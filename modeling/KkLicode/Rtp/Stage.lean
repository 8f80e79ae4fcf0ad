import Mathlib.Logic.Function.Basic
import Mathlib.Order.Basic
import Mathlib.Data.Nat.Basic
import KkLicode.Base.Streams
import KkLicode.Rtp.DataPacket

/-! Handlers that share packets. A handler keeps pointers to packets that it wrote
before, and the handlers behind it rewrite the headers of those same packets while
it writes. So packets are objects in a store, and what lies behind a handler is a
context that may change the store. -/

namespace KkLicode.Rtp

/-- The packets allocated so far. -/
structure Packets where
  count : ℕ := 0
  packet : ℕ → DataPacket := fun _ => {}

namespace Packets

def alloc (ps : Packets) (p : DataPacket) : Packets × ℕ :=
  ({ count := ps.count + 1, packet := Function.update ps.packet ps.count p }, ps.count)

def modify (ps : Packets) (ref : ℕ) (f : DataPacket → DataPacket) : Packets :=
  { ps with packet := Function.update ps.packet ref (f (ps.packet ref)) }

/-- Later stores keep the packets and whether they are video packets. -/
structure Extends (ps ps' : Packets) : Prop where
  count : ps.count ≤ ps'.count
  isVideo : ∀ ref < ps.count, (ps'.packet ref).isVideo = (ps.packet ref).isVideo

variable {ps ps' ps'' : Packets}

theorem Extends.refl (ps : Packets) : Extends ps ps := ⟨le_rfl, fun _ _ => rfl⟩

theorem Extends.trans (h : Extends ps ps') (h' : Extends ps' ps'') : Extends ps ps'' where
  count := h.count.trans h'.count
  isVideo ref hr := (h'.isVideo ref (hr.trans_le h.count)).trans (h.isVideo ref hr)

theorem extends_alloc (ps : Packets) (p : DataPacket) : Extends ps (ps.alloc p).1 where
  count := Nat.le_succ _
  isVideo ref hr := by
    show (Function.update ps.packet ps.count p ref).isVideo = _
    rw [Function.update_of_ne (by omega)]

theorem extends_modify (ps : Packets) (ref : ℕ) {f : DataPacket → DataPacket}
    (hf : ∀ p, (f p).isVideo = p.isVideo) : Extends ps (ps.modify ref f) where
  count := le_rfl
  isVideo ref' _ := by
    show (Function.update ps.packet ref _ ref').isVideo = _
    by_cases h : ref' = ref
    · rw [h, Function.update_self, hf]
    · rw [Function.update_of_ne h]

theorem extends_setSeqNumber (ps : Packets) (ref : ℕ) (n : UInt16) :
    Extends ps (ps.modify ref (·.setSeqNumber n)) :=
  extends_modify ps ref fun p => p.setSeqNumber_isVideo n

theorem extends_setTimestamp (ps : Packets) (ref : ℕ) (n : UInt32) :
    Extends ps (ps.modify ref (·.setTimestamp n)) :=
  extends_modify ps ref fun p => p.setTimestamp_isVideo n

/-- A pointer to a video packet. -/
def Video (ps : Packets) (ref : ℕ) : Prop := ref < ps.count ∧ (ps.packet ref).isVideo = true

theorem Video.mono {ref : ℕ} (hv : ps.Video ref) (h : Extends ps ps') : ps'.Video ref :=
  ⟨hv.1.trans_le h.count, (h.isVideo ref hv.1).trans hv.2⟩

@[simp] theorem alloc_packet (ps : Packets) (p : DataPacket) :
    (ps.alloc p).1.packet (ps.alloc p).2 = p := Function.update_self ..

@[simp] theorem modify_packet (ps : Packets) (ref : ℕ) (f : DataPacket → DataPacket) :
    (ps.modify ref f).packet ref = f (ps.packet ref) := Function.update_self ..

end Packets

/-- Whose packet is written: one that came in, one the handler made or kept itself, or one it has
nothing to do with. -/
inductive Origin where
  | source | own | other
  deriving DecidableEq, Repr

/-- `fireWrite` of the context of a handler with the handlers `D` behind it. The origin is only
recorded. -/
abbrev Context (D : Type) := D → Packets → Origin → ℕ → D × Packets

/-- A handler at work: the handler, what lies behind it, and the packets. -/
structure Stage (H D : Type) where
  handler : H
  next : D
  packets : Packets

namespace Stage

variable {H D : Type}

def fireWrite (ctx : Context D) (s : Stage H D) (origin : Origin) (ref : ℕ) : Stage H D :=
  let (next, packets) := ctx s.next s.packets origin ref
  { s with next := next, packets := packets }

def setHandler (s : Stage H D) (h : H) : Stage H D := { s with handler := h }

def modify (s : Stage H D) (ref : ℕ) (f : DataPacket → DataPacket) : Stage H D :=
  { s with packets := s.packets.modify ref f }

end Stage

/-- Fewer than 4095 own packets come before each packet that came in; `k` of them were written
since the last one. -/
def FewOwn : ℕ → List Origin → Prop
  | _, [] => True
  | k, .source :: l => k < 4095 ∧ FewOwn 0 l
  | k, .own :: l => FewOwn (k + 1) l
  | k, .other :: l => FewOwn k l

instance FewOwn.decidable : ∀ k l, Decidable (FewOwn k l)
  | _, [] => isTrue trivial
  | k, .source :: l =>
    haveI := FewOwn.decidable 0 l
    inferInstanceAs (Decidable (k < 4095 ∧ FewOwn 0 l))
  | k, .own :: l => FewOwn.decidable (k + 1) l
  | k, .other :: l => FewOwn.decidable k l

/-- The own packets since the last packet that came in. -/
def ownCount : ℕ → List Origin → ℕ
  | k, [] => k
  | _, .source :: l => ownCount 0 l
  | k, .own :: l => ownCount (k + 1) l
  | k, .other :: l => ownCount k l

theorem fewOwn_append {k : ℕ} {l m : List Origin} :
    FewOwn k (l ++ m) ↔ FewOwn k l ∧ FewOwn (ownCount k l) m := by
  induction l generalizing k with
  | nil => simp [FewOwn, ownCount]
  | cons origin l ih =>
    cases origin with
    | source => simp [FewOwn, ownCount, ih, and_assoc]
    | own => simp [FewOwn, ownCount, ih]
    | other => simp [FewOwn, ownCount, ih]

theorem ownCount_append (k : ℕ) (l m : List Origin) :
    ownCount k (l ++ m) = ownCount (ownCount k l) m := by
  induction l generalizing k with
  | nil => rfl
  | cons origin l ih => cases origin <;> exact ih _

/-! ### What is asked of a context -/

open Base.Streams

/-- A context takes packets whose numbers go on one by one. `I c` is its state when it was last
given the number `c`. -/
structure Takes {D : Type} (ctx : Context D) (I : Option UInt16 → D → Packets → Prop) : Prop where
  mono : ∀ {c d ps ps'}, I c d ps → Packets.Extends ps ps' → I c d ps'
  video : ∀ {c d ps} (origin) {ref}, I c d ps → ps.Video ref →
    Follows c (ps.packet ref).header.seqNumber →
    I (some (ps.packet ref).header.seqNumber) (ctx d ps origin ref).1 (ctx d ps origin ref).2
  other : ∀ {c d ps} (origin) {ref}, I c d ps → (ps.packet ref).isVideo = false →
    I c (ctx d ps origin ref).1 (ctx d ps origin ref).2

/-- It also leaves the packets that a handler keeps what they are. -/
structure Carries {D : Type} (ctx : Context D) (I : Option UInt16 → D → Packets → Prop) : Prop
    extends Takes ctx I where
  keeps : ∀ d ps origin ref, Packets.Extends ps (ctx d ps origin ref).2

end KkLicode.Rtp
