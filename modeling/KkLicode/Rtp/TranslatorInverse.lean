import KkLicode.Base.PairedTables
import KkLicode.Rtp.TranslatorWindow

/-! Whether `reverse` is the inverse of the const `get`. A number is found by its
input in one table and by its output in the other. A packet takes slots in both
tables, but the two slots of another number need not be among them: around the wrap
of inputs or outputs, and when a number is generated, only one of the two is taken. -/

namespace KkLicode.Rtp.SequenceNumberTranslator

open Base Base.Serial Base.SlotRing Base.PairedTables

variable {t : SequenceNumberTranslator}

def inSlot (e : SequenceNumber) : Slot := slot e.input

def outSlot (e : SequenceNumber) : Slot := slot e.output

/-- The inputs that `reverse` does not reject. -/
def Accepts (t : SequenceNumberTranslator) (i : UInt16) : Prop :=
  sequenceNumberLessThan i t.firstInputSequenceNumber = false ∧
    sequenceNumberLessThan t.lastInputSequenceNumber i = false

/-- The inputs between the first and the last one. -/
def Between (t : SequenceNumberTranslator) (i : UInt16) : Prop :=
  ahead i t.lastInputSequenceNumber ≤ ahead t.firstInputSequenceNumber t.lastInputSequenceNumber

instance (t : SequenceNumberTranslator) (i : UInt16) : Decidable (t.Accepts i) :=
  inferInstanceAs (Decidable (_ ∧ _))

instance (t : SequenceNumberTranslator) (i : UInt16) : Decidable (t.Between i) :=
  inferInstanceAs (Decidable (_ ≤ _))

/-- The numbers that `reverse` may find. -/
def Found (t : SequenceNumberTranslator) (e : SequenceNumber) : Prop :=
  e.type = .valid ∧ t.Accepts e.input

/-- The numbers of the window. -/
def Held (t : SequenceNumberTranslator) (e : SequenceNumber) : Prop :=
  e.type = .valid ∧ t.Between e.input

instance (t : SequenceNumberTranslator) : DecidablePred t.Found :=
  fun e => inferInstanceAs (Decidable (e.type = .valid ∧ t.Accepts e.input))

instance (t : SequenceNumberTranslator) : DecidablePred t.Held :=
  fun e => inferInstanceAs (Decidable (e.type = .valid ∧ t.Between e.input))

/-- `reverse` and the const `get` agree. -/
structure Inverse (t : SequenceNumberTranslator) : Prop where
  reverse : ∀ o, (t.reverse o).type = .valid →
    t.getConst (t.reverse o).input = ⟨(t.reverse o).input, o, .valid⟩
  getConst : ∀ i o, t.Between i → t.getConst i = ⟨i, o, .valid⟩ → t.reverse o = ⟨i, o, .valid⟩

theorem getConst_eq_iff {i o : UInt16} :
    t.getConst i = ⟨i, o, .valid⟩ ↔ Stands inSlot t.inOutBuffer ⟨i, o, .valid⟩ := by
  rw [getConst, Stands, inSlot]
  split_ifs with h
  · rfl
  · refine iff_of_false (fun he => by cases he) fun he => h ?_
    rw [he]

theorem reverse_valid {o : UInt16} (h : (t.reverse o).type = .valid) :
    Stands outSlot t.outInBuffer (t.reverse o) ∧ (t.reverse o).output = o ∧
      t.Accepts (t.reverse o).input := by
  rw [reverse] at h ⊢
  split_ifs at h ⊢ with hr
  simp only [Bool.or_eq_true, decide_eq_true_eq, not_or, not_not, Bool.not_eq_true] at hr
  obtain ⟨⟨ho, hf⟩, hl⟩ := hr
  exact ⟨by rw [Stands, outSlot, ho], ho, hf, hl⟩

theorem reverse_eq {i o : UInt16} (h : Stands outSlot t.outInBuffer ⟨i, o, .valid⟩)
    (ha : t.Accepts i) : t.reverse o = ⟨i, o, .valid⟩ := by
  have h : t.outInBuffer (slot o) = ⟨i, o, .valid⟩ := h
  simp [reverse, h, ha.1, ha.2]

/-- The two tables agree on the valid numbers. -/
def Agrees (t : SequenceNumberTranslator) : Prop :=
  Agree inSlot outSlot t.inOutBuffer t.outInBuffer t.Found t.Held

/-- What is in the window is accepted. -/
theorem Windowed.accepts (h : Windowed t) {i : UInt16} (hb : t.Between i) : t.Accepts i := by
  have hs := h.span
  have h1 := ahead_base i t.firstInputSequenceNumber t.lastInputSequenceNumber
  have h2 := ahead_base i t.lastInputSequenceNumber i
  have h3 := ahead_lt i t.firstInputSequenceNumber
  rw [Between] at hb
  rw [ahead_self] at h2
  exact ⟨sequenceNumberLessThan_false_iff.mpr (by omega),
    sequenceNumberLessThan_false_iff.mpr (by omega)⟩

theorem Agrees.inverse (h : Agrees t) (hw : Windowed t) : Inverse t where
  reverse o hv := by
    obtain ⟨hs, ho, ha⟩ := reverse_valid hv
    have he : t.reverse o = ⟨(t.reverse o).input, o, .valid⟩ := by
      rcases hr : t.reverse o with ⟨i, o', type⟩
      rw [hr] at hv ho
      dsimp only at hv ho
      rw [hv, ho]
    rw [getConst_eq_iff, ← he]
    exact h.found _ ⟨hv, ha⟩ hs
  getConst i o hb hg :=
    reverse_eq (h.kept _ ⟨rfl, hb⟩ (getConst_eq_iff.mp hg)) (hw.accepts hb)

/-! ### What a packet enters -/

/-- The numbers a packet enters that comes while none was forwarded, or that is newer. -/
def entries (t : SequenceNumberTranslator) (input : UInt16) (skip : Bool) : List SequenceNumber :=
  if t.initialized then
    (List.range (ahead t.lastInputSequenceNumber input)).map fun j => t.newEntry input skip (j + 1)
  else [⟨input, t.firstOutput input, entryType skip⟩]

/-- The window after such a packet. -/
def moved (t : SequenceNumberTranslator) (input : UInt16) (skip : Bool) : SequenceNumberTranslator :=
  if t.initialized then
    { t with firstInputSequenceNumber := t.nextFirst input, lastInputSequenceNumber := input }
  else if skip then t
  else { t with firstInputSequenceNumber := input, lastInputSequenceNumber := input }

theorem writeRun_eq_enter (key : SequenceNumber → Slot) (item : ℕ → SequenceNumber) (table : Buffer)
    (n : ℕ) : writeRun (fun j => key (item j)) item table 1 n =
      enter key table ((List.range n).map fun j => item (j + 1)) := by
  induction n with
  | zero => rfl
  | succ n ih =>
    rw [writeRun_succ, ih, List.range_succ, List.map_append, enter_append, Nat.add_comm 1 n]
    rfl

/-- A packet that is newer, or comes while none was forwarded, takes the slots of a number
together: of one that is still found not only that of the input, of one that is still in the
window not only that of the output. What was rejected is not found again. -/
structure TakesBoth (t : SequenceNumberTranslator) (input : UInt16) (skip : Bool) : Prop where
  found : ∀ s, outSlot (t.outInBuffer s) = s → (t.moved input skip).Found (t.outInBuffer s) →
    ¬PairedTables.Takes outSlot (t.entries input skip) (t.outInBuffer s) →
      t.Found (t.outInBuffer s) ∧ ¬PairedTables.Takes inSlot (t.entries input skip) (t.outInBuffer s)
  held : ∀ s, inSlot (t.inOutBuffer s) = s → (t.moved input skip).Held (t.inOutBuffer s) →
    ¬PairedTables.Takes inSlot (t.entries input skip) (t.inOutBuffer s) →
      ¬PairedTables.Takes outSlot (t.entries input skip) (t.inOutBuffer s)
  together : Together inSlot outSlot (t.moved input skip).Found (t.moved input skip).Held
    (t.entries input skip)

instance (t : SequenceNumberTranslator) (input : UInt16) (skip : Bool) :
    Decidable (t.TakesBoth input skip) :=
  decidable_of_iff (_ ∧ _ ∧ _) ⟨fun ⟨h, h', h''⟩ => ⟨h, h', h''⟩, fun ⟨h, h', h''⟩ => ⟨h, h', h''⟩⟩

/-- The step keeps the tables in pairs: a packet takes both slots of a number or none, a generated
number takes no slot of a number of the window, and a late packet finds its own slot. -/
def Pairs (t : SequenceNumberTranslator) : Call → Prop
  | .get input skip =>
    if t.Late input then t.InWindow input ∧ t.Kept input
    else t.initialized = false ∨ sequenceNumberLessThan input t.firstInputSequenceNumber = false →
      t.TakesBoth input skip
  | .generate => ∀ s, inSlot (t.inOutBuffer s) = s → t.Held (t.inOutBuffer s) →
    outSlot (t.inOutBuffer s) ≠ slot (t.frontier + 1)
  | .reset => True

instance (t : SequenceNumberTranslator) (c : Call) : Decidable (t.Pairs c) :=
  match c with
  | .get input skip => inferInstanceAs (Decidable (if t.Late input then _
      else _ → t.TakesBoth input skip))
  | .generate => inferInstanceAs (Decidable (∀ s, inSlot (t.inOutBuffer s) = s →
      t.Held (t.inOutBuffer s) → _))
  | .reset => isTrue trivial

/-! ### Runs -/

/-- A packet that enters numbers: the tables agree after it if it takes slots in pairs. -/
theorem Agrees.entered (h : Agrees t) {t' : SequenceNumberTranslator} {input : UInt16} {skip : Bool}
    (hb : t.TakesBoth input skip)
    (hin : t'.inOutBuffer = enter inSlot t.inOutBuffer (t.entries input skip))
    (hout : t'.outInBuffer = enter outSlot t.outInBuffer (t.entries input skip))
    (hfirst : t'.firstInputSequenceNumber = (t.moved input skip).firstInputSequenceNumber)
    (hlast : t'.lastInputSequenceNumber = (t.moved input skip).lastInputSequenceNumber)
    (hbetween : ∀ i, (t.moved input skip).Between i → (∀ e ∈ t.entries input skip, e.input ≠ i) →
      t.Between i) : Agrees t' := by
  have hfound : t'.Found = (t.moved input skip).Found := by
    funext e
    rw [Found, Found, Accepts, Accepts, hfirst, hlast]
  have hheld : t'.Held = (t.moved input skip).Held := by
    funext e
    rw [Held, Held, Between, Between, hfirst, hlast]
  rw [Agrees, hin, hout, hfound, hheld]
  refine h.enter (fun e he hs hn => ?_) (fun e he hs hn => ?_) hb.together
  · have := hb.found (outSlot e)
    rw [show t.outInBuffer (outSlot e) = e from hs] at this
    exact this rfl he hn
  · have := hb.held (inSlot e)
    rw [show t.inOutBuffer (inSlot e) = e from hs] at this
    refine ⟨⟨he.1, hbetween e.input he.2 fun x hx hxe => hn ⟨x, hx, ?_⟩⟩, this rfl he hn⟩
    rw [inSlot, inSlot, hxe]

theorem Agrees.getFirst (h : Agrees t) (hi : t.initialized = false) {input : UInt16} {skip : Bool}
    (hb : t.TakesBoth input skip) : Agrees (t.getFirst input skip).1 := by
  rw [getFirst_eq t hi]
  have hentries : t.entries input skip = [⟨input, t.firstOutput input, entryType skip⟩] := by
    simp [entries, hi]
  refine h.entered hb ?_ ?_ ?_ ?_ fun i hm hne => ?_
  · rw [hentries]
    rfl
  · rw [hentries]
    rfl
  · cases skip <;> simp [moved, hi]
  · cases skip <;> simp [moved, hi]
  · cases skip with
    | true => simpa [moved, hi] using hm
    | false =>
      -- only the packet itself is in the window
      have hm : i = input := by simpa [moved, hi, Between, ahead_eq_zero] using hm
      exact absurd hm.symm (hne _ (by rw [hentries]; exact List.mem_singleton_self _))

theorem Agrees.getForward (h : Agrees t) (hw : Windowed t) (hi : t.initialized = true)
    {input : UInt16} {skip : Bool} (hlt : sequenceNumberLessThan t.lastInputSequenceNumber input = true)
    (hb : t.TakesBoth input skip) : Agrees (t.getForward input skip).1 := by
  have hf := (getForward_spec t hi skip hlt).1
  have hd := (sequenceNumberLessThan_iff.mp hlt).2
  have hentries : t.entries input skip =
      (List.range (ahead t.lastInputSequenceNumber input)).map fun j => t.newEntry input skip (j + 1) := by
    simp [entries, hi]
  refine h.entered hb ?_ ?_ ?_ ?_ fun i hm hne => ?_
  · rw [hf.inOut, hentries]
    exact writeRun_eq_enter inSlot _ _ _
  · rw [hf.outIn, hentries]
    exact writeRun_eq_enter outSlot _ _ _
  · simp [moved, hi, hf.first]
  · simp [moved, hi, hf.last]
  · have hm : ahead i input ≤ ahead (t.nextFirst input) input := by simpa [moved, hi, Between] using hm
    rw [nextFirst_ahead t hw.span hd] at hm
    have hx : ahead t.lastInputSequenceNumber input ≤ ahead i input := by
      by_contra hx
      rw [not_le] at hx
      have hinput : (t.newEntry input skip
          (ahead t.lastInputSequenceNumber input - ahead i input)).input = i := newEntry_input hx
      refine hne _ ?_ hinput
      rw [hentries]
      refine List.mem_map.mpr ⟨ahead t.lastInputSequenceNumber input - ahead i input - 1,
        List.mem_range.mpr (by omega), ?_⟩
      rw [Nat.sub_add_cancel (by omega)]
    have h1 := ahead_base i t.lastInputSequenceNumber input
    have h2 := ahead_base t.lastInputSequenceNumber i input
    have h3 := ahead_base t.lastInputSequenceNumber i t.lastInputSequenceNumber
    have h4 := ahead_lt t.lastInputSequenceNumber i
    rw [ahead_self] at h3
    rw [Between]
    omega

/-- A late packet that finds its own number changes the type of it in both tables. -/
theorem Agrees.getLate (h : Agrees t) (hw : Windowed t) {input : UInt16} (skip : Bool)
    (hwin : t.InWindow input) (hk : t.Kept input) : Agrees (t.getLate input skip).1 := by
  have hinput := hw.owner input hwin hk
  have hin : Stands inSlot t.inOutBuffer (t.internalGet input) := by
    rw [Stands, inSlot, hinput]
    rfl
  rw [getLate_eq t hwin.1]
  by_cases hv : (t.internalGet input).type = .valid
  · have hout : Stands outSlot t.outInBuffer (t.internalGet input) := h.kept _ ⟨hv, by rw [hinput]; exact hwin.2⟩ hin
    have hlate : { t.internalReverse (t.internalGet input).output with
        type := (t.lateEntry input skip).type } = t.lateEntry input skip := by
      have hr : t.internalReverse (t.internalGet input).output = t.internalGet input := hout
      rw [hr, lateEntry, if_pos hv]
    have hslot : inSlot (t.lateEntry input skip) = inSlot (t.internalGet input) := by
      rw [inSlot, inSlot, lateEntry_input]
    have hslot' : outSlot (t.lateEntry input skip) = outSlot (t.internalGet input) := by
      rw [outSlot, outSlot, lateEntry, if_pos hv]
    have := h.replace hin hout hslot hslot'
    rw [if_pos hv, hlate]
    rw [inSlot, outSlot, lateEntry_input, hinput, lateEntry, if_pos hv] at this
    rw [lateEntry, if_pos hv]
    exact this
  · have hlate : t.lateEntry input skip = t.internalGet input := by rw [lateEntry, if_neg hv]
    have hsame : Function.update t.inOutBuffer (slot input) (t.internalGet input) = t.inOutBuffer :=
      Function.update_eq_self _ _
    rw [if_neg hv, hlate, hsame]
    exact h

theorem Agrees.get (h : Agrees t) (hw : Windowed t) {input : UInt16} {skip : Bool}
    (hp : t.Pairs (.get input skip)) : Agrees (t.get input skip).1 := by
  rw [Pairs] at hp
  rcases get_cases t input skip with ⟨hi, hg⟩ | ⟨hi, ⟨-, -, hg⟩ | ⟨hf, ⟨h1, h2, hg⟩ | ⟨hl, hg⟩⟩⟩ <;> rw [hg]
  · rw [if_neg fun hlate => Bool.false_ne_true (hi.symm.trans hlate.1)] at hp
    exact h.getFirst hi (hp (.inl hi))
  · exact h
  · have hlt := sequenceNumberLessThan_iff.mpr ⟨h1, h2⟩
    rw [if_neg fun hlate => Bool.false_ne_true (hlate.2.2.symm.trans hlt)] at hp
    exact h.getForward hw hi hlt (hp (.inr (sequenceNumberLessThan_false_iff.mpr hf)))
  · rw [if_pos ⟨hi, sequenceNumberLessThan_false_iff.mpr hf, sequenceNumberLessThan_false_iff.mpr hl⟩] at hp
    exact h.getLate hw skip hp.1 hp.2

theorem Agrees.generate (h : Agrees t) (hp : t.Pairs .generate) : Agrees t.generate.1 := by
  have hout : t.offset + 1 + t.lastOutputSequenceNumber = t.frontier + 1 := by
    rw [frontier, UInt16.add_comm, UInt16.add_assoc]
  refine h.enter_second (x := ⟨0, t.offset + 1 + t.lastOutputSequenceNumber, .generated⟩)
    (fun hx => SequenceNumberType.noConfusion hx.1) fun e he hs hne => ?_
  have := hp (inSlot e)
  rw [show t.inOutBuffer (inSlot e) = e from hs] at this
  exact this rfl he (by rw [← hne, outSlot, hout])

/-- Where nothing was written the tables hold the same entry in all slots. -/
theorem Agrees.empty (h : t.inOutBuffer = t.outInBuffer) (hd : ∀ s, t.inOutBuffer s = default) :
    Agrees t where
  found e _ hs := by
    have he : e = default := by rw [← show t.outInBuffer (outSlot e) = e from hs, ← h, hd]
    rw [Stands, hd, he]
  kept e _ hs := by
    have he : e = default := by rw [← show t.inOutBuffer (inSlot e) = e from hs, hd]
    rw [Stands, ← h, hd, he]

theorem Agrees.call (h : Agrees t) (hw : Windowed t) {c : Call} (hp : t.Pairs c) :
    Agrees (t.call c).1 := by
  cases c with
  | get input skip => exact h.get hw hp
  | generate => exact h.generate hp
  | reset =>
    show Agrees t.reset
    rw [reset]
    split_ifs
    · exact h
    · exact .empty rfl fun _ => rfl

/-- As long as every step takes slots in pairs, `reverse` and the const `get` are inverse. -/
theorem inverse_of_pairs {calls : List Call} (h : Runs.Steps call Pairs {} calls) :
    ∀ pre, pre <+: calls → Inverse (Runs.final call {} pre) := by
  rintro pre ⟨post, rfl⟩
  have hrun : Windowed (Runs.final call {} pre) ∧ Agrees (Runs.final call {} pre) :=
    (Runs.steps_append.mp h).1.invariant (P := fun t => Windowed t ∧ Agrees t)
      (fun t c ht hc => ⟨ht.1.call c, ht.2.call ht.1 hc⟩)
      ⟨Windowed.empty, .empty rfl fun _ => rfl⟩
  exact hrun.2.inverse hrun.1

/-- Across the wrap, with a number generated, packets lost, and a late one discarded. -/
theorem inverse_of_pairs_wrap :
    Inverse (Runs.final call {} [.get 65534 false, .generate, .get 1 false, .get 65535 true]) :=
  @inverse_of_pairs [.get 65534 false, .generate, .get 1 false, .get 65535 true, .reset]
    ⟨by decide +kernel, by decide +kernel, by decide +kernel, by decide +kernel, trivial, trivial⟩ _
    (List.prefix_append _ [Call.reset])

/-- The packet 63 takes the slot of the input 65535, but not that of its output. -/
theorem not_inverse : ¬∀ calls, Inverse (Runs.final call {} calls) := by
  intro h
  have := (h [.generate, .get 65535 false, .get 63 false]).reverse 2 (by decide +kernel)
  exact absurd this (by decide +kernel)

end KkLicode.Rtp.SequenceNumberTranslator
