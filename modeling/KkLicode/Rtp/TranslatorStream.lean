import KkLicode.Base.Streams
import KkLicode.Rtp.TranslatorSteps

/-! Gapless outputs. As long as the inputs arrive in order and without loss, the
numbers handed out go on one by one: skipped packets take no number, generated
numbers move the frontier, and a reset keeps it. `Streaming` says where the
stream stands; each call is described once, and runs follow by induction. -/

namespace KkLicode.Rtp.SequenceNumberTranslator

open Base Base.Serial Base.Streams

/-- The numbers handed out end with `o`, and `k` numbers were generated since the
last packet that was not skipped. -/
structure Streaming (t : SequenceNumberTranslator) (o : Option UInt16) (k : ℕ) : Prop where
  offset : t.offset = .ofNat k
  window : t.initialized = true →
    ahead t.firstInputSequenceNumber t.lastInputSequenceNumber ≤ 500
  fresh : o = none → t.initialized = false ∧ t.reset_ = false ∧ k = 0
  cursor : ∀ p ∈ o, p = t.frontier ∧ (t.initialized = true ∨ t.reset_ = true ∨ 0 < k)

variable {t : SequenceNumberTranslator} {o : Option UInt16} {k : ℕ}

theorem Streaming.empty : Streaming {} none 0 where
  offset := rfl
  window := by simp
  fresh := by simp
  cursor := by simp

theorem Streaming.follows (h : Streaming t o k) : Follows o (t.frontier + 1) := by
  intro p hp
  rw [(h.cursor p hp).1]

/-- A generated number goes on from the last one. -/
theorem Streaming.generate (h : Streaming t o k) :
    Streaming t.generate.1 (some (t.frontier + 1)) (k + 1) ∧
      t.generate.2 = ⟨0, t.frontier + 1, .generated⟩ := by
  have hf : t.offset + 1 + t.lastOutputSequenceNumber = t.frontier + 1 := by
    rw [frontier]; grind
  refine ⟨⟨?_, h.window, by simp, ?_⟩, by rw [SequenceNumberTranslator.generate, hf]⟩
  · rw [ofNat_add_one, ← h.offset]; rfl
  · intro p hp
    rw [← Option.some.inj hp]
    refine ⟨?_, by simp⟩
    simp only [SequenceNumberTranslator.generate, frontier]
    grind

theorem Streaming.reset (h : Streaming t o k) :
    Streaming t.reset o k ∧ t.reset.initialized = false := by
  rw [SequenceNumberTranslator.reset]
  cases hi : t.initialized with
  | false => simpa [hi] using h
  | true =>
    refine ⟨⟨h.offset, by simp, fun ho => ?_, fun p hp => ⟨(h.cursor p hp).1, by simp⟩⟩, by simp⟩
    exact absurd (h.fresh ho).1 (by simp [hi])

/-! ### Packets in order -/

/-- The packet that comes next when the newest one was forwarded or skipped in order. -/
def InOrder (t : SequenceNumberTranslator) (input : UInt16) : Prop :=
  t.initialized = true → input = t.lastInputSequenceNumber + 1

/-- A packet in order never takes a late branch. -/
theorem get_inOrder (hw : t.initialized = true →
    ahead t.firstInputSequenceNumber t.lastInputSequenceNumber ≤ 500) {input : UInt16}
    (hin : InOrder t input) (skip : Bool) :
    (t.initialized = false ∧ t.get input skip = t.getFirst input skip) ∨
      (t.initialized = true ∧ sequenceNumberLessThan t.lastInputSequenceNumber input = true ∧
        ahead t.lastInputSequenceNumber input = 1 ∧ t.get input skip = t.getForward input skip) := by
  rcases get_cases t input skip with hg | ⟨hi, hg⟩
  · exact .inl hg
  · refine .inr ⟨hi, ?_⟩
    have hw := hw hi
    have h1 : ahead t.lastInputSequenceNumber input = 1 := by rw [hin hi, ahead_add_one]
    have h2 := ahead_base t.firstInputSequenceNumber t.lastInputSequenceNumber input
    have h3 := ahead_base t.firstInputSequenceNumber input t.firstInputSequenceNumber
    rw [ahead_self] at h3
    have h4 := ahead_lt t.firstInputSequenceNumber input
    refine ⟨sequenceNumberLessThan_iff.mpr ⟨h1.ge, by omega⟩, h1, ?_⟩
    rcases hg with ⟨_, _, _⟩ | ⟨_, ⟨_, _, hg⟩ | ⟨_, _⟩⟩
    · omega
    · exact hg
    · omega

/-- A skipped packet leaves the stream where it is. -/
theorem Streaming.skip (h : Streaming t o k) {input : UInt16} (hin : InOrder t input) :
    Streaming (t.get input true).1 o k ∧ handedOut (some (t.get input true).2) = none ∧
      (t.get input true).1.initialized = t.initialized ∧
      (t.initialized = true → (t.get input true).1.lastInputSequenceNumber = input) := by
  rcases get_inOrder h.window hin true with ⟨hi, hg⟩ | ⟨hi, hlt, hd, hg⟩
  · rw [hg, getFirst_eq t hi]
    refine ⟨⟨h.offset, by simp, ?_, ?_⟩, by simp [handedOut, entryType, SequenceNumber.HandedOut],
      by simp [hi], by simp [hi]⟩
    · simpa [hi] using h.fresh
    · simpa [hi, frontier] using h.cursor
  · rw [hg, getForward_eq t hi true hlt]
    have hw := h.window hi
    refine ⟨⟨h.offset, fun _ => ?_, ?_, ?_⟩, by simp [handedOut, entryType, SequenceNumber.HandedOut],
      rfl, fun _ => rfl⟩
    · show ahead (t.nextFirst input) input ≤ 500
      rw [nextFirst_ahead t hw (by omega)]
      omega
    · exact h.fresh
    · simpa [frontier] using h.cursor

/-- The first packet forwarded takes its own number, or the next one of a stream that exists. -/
theorem Streaming.firstOutput (h : Streaming t o k) (hk : k < 4095) (hi : t.initialized = false)
    (input : UInt16) : Follows o (t.firstOutput input) ∧
      (!(t.reset_ || t.offset > 0) ||
        sequenceNumberLessThan t.lastOutputSequenceNumber (t.firstOutput input)) = true := by
  have hlt : sequenceNumberLessThan t.lastOutputSequenceNumber (t.frontier + 1) = true := by
    rw [sequenceNumberLessThan_iff, frontier, h.offset, UInt16.add_assoc, ← ofNat_add_one,
      ahead_add_ofNat]
    omega
  cases o with
  | none =>
    obtain ⟨-, hr, rfl⟩ := h.fresh rfl
    simp [hr, h.offset]
  | some p =>
    have hb : (t.reset_ || t.offset > 0) = true := by
      rcases (h.cursor p rfl).2 with hi' | hr | hk'
      · simp [hi] at hi'
      · simp [hr]
      · have : 0 < t.offset := by
          rw [h.offset, UInt16.lt_iff_toNat_lt, UInt16.toNat_ofNat']
          simp
          omega
        simp [this]
    rw [SequenceNumberTranslator.firstOutput, if_pos hb, hlt, Bool.or_true]
    exact ⟨h.follows, rfl⟩

/-- A packet in order takes the next number, and the last output moves on to it if it is ahead. -/
theorem get_next (hi : t.initialized = true)
    (hw : ahead t.firstInputSequenceNumber t.lastInputSequenceNumber ≤ 500) (input : UInt16)
    (hin : input = t.lastInputSequenceNumber + 1) :
    (t.get input false).2 = ⟨input, t.frontier + 1, .valid⟩ ∧
      (t.get input false).1.offset = 0 ∧
      (t.get input false).1.lastOutputSequenceNumber =
        (if sequenceNumberLessThan t.lastOutputSequenceNumber (t.frontier + 1) then t.frontier + 1
        else t.lastOutputSequenceNumber) ∧
      (t.get input false).1.initialized = true ∧
      (t.get input false).1.lastInputSequenceNumber = input ∧
      ahead (t.get input false).1.firstInputSequenceNumber input ≤ 500 := by
  rcases get_inOrder (fun _ => hw) (fun _ => hin) false with ⟨hi', -⟩ | ⟨-, hl, hd, hg⟩
  · exact absurd hi' (by simp [hi])
  · rw [hg, getForward_eq t hi false hl, hd]
    refine ⟨rfl, rfl, rfl, hi, rfl, ?_⟩
    show ahead (t.nextFirst input) input ≤ 500
    rw [nextFirst_ahead t hw (by omega)]
    omega

/-- A packet in order that is not skipped has a number. -/
theorem Streaming.forward_valid (h : Streaming t o k) {input : UInt16} (hin : InOrder t input) :
    (t.get input false).2.type = .valid := by
  rcases get_inOrder h.window hin false with ⟨hi, hg⟩ | ⟨hi, hl, -, hg⟩
  · rw [hg, getFirst_eq t hi]
    rfl
  · rw [hg, getForward_eq t hi false hl]
    rfl

/-- A packet that is not skipped goes on from the last number, if the last output catches up with
the numbers generated since, or is there already. -/
theorem Streaming.forward_of_offset (h : Streaming t o k) (hk : (t.offset + 1).toNat ≤ 4095)
    (hfirst : t.initialized = false → k < 4095) {input : UInt16} (hin : InOrder t input) :
    ∃ output, (t.get input false).2 = ⟨input, output, .valid⟩ ∧ Follows o output ∧
      Streaming (t.get input false).1 (some output) 0 ∧
      (t.get input false).1.initialized = true ∧
      (t.get input false).1.lastInputSequenceNumber = input := by
  rcases get_inOrder h.window hin false with ⟨hi, hg⟩ | ⟨hi, -⟩
  · obtain ⟨hf, hu⟩ := h.firstOutput (hfirst hi) hi input
    rw [hg, getFirst_eq t hi]
    refine ⟨t.firstOutput input, rfl, hf, ⟨rfl, by simp, by simp, fun p hp => ?_⟩, rfl, rfl⟩
    rw [← Option.some.inj hp]
    exact ⟨by simp only [frontier, hu, Bool.not_false, Bool.true_and, if_true]; simp, .inl rfl⟩
  · obtain ⟨hr, ho, hlast, hi', hin', hw⟩ := get_next hi (h.window hi) input (hin hi)
    have hahead : ahead t.lastOutputSequenceNumber (t.frontier + 1) = (t.offset + 1).toNat := by
      rw [ahead, frontier]
      congr 1
      grind
    refine ⟨t.frontier + 1, hr, h.follows,
      ⟨ho, fun _ => hin'.symm ▸ hw, by simp, fun p hp => ⟨?_, .inl hi'⟩⟩, hi', hin'⟩
    rw [← Option.some.inj hp]
    show t.frontier + 1 = (t.get input false).1.lastOutputSequenceNumber + (t.get input false).1.offset
    rw [ho, hlast, UInt16.add_zero]
    split_ifs with hlt
    · rfl
    · -- the last output is there already
      rw [Bool.not_eq_true, sequenceNumberLessThan_false_iff, hahead] at hlt
      exact (ahead_eq_zero.mp (by omega)).symm

theorem Streaming.forward (h : Streaming t o k) (hk : k < 4095) {input : UInt16}
    (hin : InOrder t input) :
    ∃ output, (t.get input false).2 = ⟨input, output, .valid⟩ ∧ Follows o output ∧
      Streaming (t.get input false).1 (some output) 0 ∧
      (t.get input false).1.initialized = true ∧
      (t.get input false).1.lastInputSequenceNumber = input := by
  refine h.forward_of_offset ?_ (fun _ => hk) hin
  rw [h.offset, ← ofNat_add_one, UInt16.toNat_ofNat']
  omega

/-! ### Runs -/

theorem outputs_append (t : SequenceNumberTranslator) (l m : List Call) :
    outputs t (l ++ m) = outputs t l ++ outputs (Runs.final call t l) m := by
  rw [outputs, Runs.trace_append, List.filterMap_append, outputs, outputs]

/-- The inputs of every segment between two resets are consecutive; `c` is the input before. -/
def LosslessFrom : Option UInt16 → List Call → Prop
  | _, [] => True
  | c, .get input _ :: calls => Follows c input ∧ LosslessFrom (some input) calls
  | c, .generate :: calls => LosslessFrom c calls
  | _, .reset :: calls => LosslessFrom none calls

/-- Fewer than 4095 numbers are generated between two packets that are not skipped. `k` counts
those generated since the last one; without a count, none is held against the next packet. -/
def FewGenerated : Option ℕ → List Call → Prop
  | _, [] => True
  | k, .get _ skip :: calls =>
    if skip then FewGenerated k calls else (∀ n ∈ k, n < 4095) ∧ FewGenerated (some 0) calls
  | k, .generate :: calls => FewGenerated (k.map (· + 1)) calls
  | k, .reset :: calls => FewGenerated k calls

/-- The outputs of a lossless run go on from the last one. -/
theorem outputs_chainFrom {calls : List Call} {c : Option UInt16} (h : Streaming t o k)
    (hc : t.initialized = true → c = some t.lastInputSequenceNumber)
    (hl : LosslessFrom c calls) (hf : FewGenerated (some k) calls) :
    ChainFrom o (outputs t calls) := by
  induction calls generalizing t o k c with
  | nil => trivial
  | cons a calls ih =>
    cases a with
    | generate =>
      obtain ⟨hs, hr⟩ := h.generate
      have := ih hs hc hl hf
      simpa [outputs, call, hr, handedOut, SequenceNumber.HandedOut, h.follows] using this
    | reset =>
      obtain ⟨hs, hi⟩ := h.reset
      have := ih hs (by simp [hi]) hl hf
      simpa [outputs, call, handedOut] using this
    | get input skip =>
      obtain ⟨hin, hl⟩ := hl
      have hin : InOrder t input := fun hi => by simpa [hc hi] using hin
      cases skip with
      | true =>
        obtain ⟨hs, hr, hi, hlast⟩ := h.skip hin
        have := ih hs (fun h' => by rw [hlast (hi ▸ h')]) hl hf
        simpa [outputs, call, hr] using this
      | false =>
        obtain ⟨hk, hf⟩ := hf
        obtain ⟨output, hr, hfo, hs, hi, hlast⟩ := h.forward (hk k rfl) hin
        have := ih hs (fun _ => by rw [hlast]) hl hf
        simpa [outputs, call, hr, handedOut, SequenceNumber.HandedOut, hfo] using this

/-- On lossless streams the numbers handed out are consecutive, across all resets. -/
theorem outputs_consecutive (calls : List Call) (hl : LosslessFrom none calls)
    (hf : FewGenerated (some 0) calls) : Consecutive (outputs {} calls) :=
  chainFrom_none_iff.mp (outputs_chainFrom Streaming.empty (by simp) hl hf)

/-- A stream with a packet skipped before the first one, a wrap and a reset. -/
theorem outputs_consecutive_reset : Consecutive (outputs {}
    [.generate, .get 65535 true, .get 0 false, .generate, .get 1 false, .reset, .get 7 false]) :=
  outputs_consecutive _ (by simp [LosslessFrom]) (by simp [FewGenerated])

/-! Before the first packet the bound is needed as well: after 4095 generated numbers the first
packet does not move the last output, and the second one takes a number given out before. -/

theorem final_generate (t : SequenceNumberTranslator) (n : ℕ) :
    ∃ buffer, Runs.final call t (List.replicate n .generate) =
      { t with outInBuffer := buffer, offset := t.offset + .ofNat n } := by
  induction n generalizing t with
  | zero => exact ⟨t.outInBuffer, by simp⟩
  | succ n ih =>
    obtain ⟨buffer, hb⟩ := ih (call t .generate).1
    refine ⟨buffer, ?_⟩
    rw [List.replicate_succ, Runs.final_cons, hb]
    simp only [call, SequenceNumberTranslator.generate, ofNat_add_one]
    congr 1
    grind

theorem lossless_generate (n : ℕ) (c : Option UInt16) (calls : List Call) :
    LosslessFrom c (List.replicate n .generate ++ calls) ↔ LosslessFrom c calls := by
  induction n with
  | zero => rfl
  | succ n ih => exact ih

theorem fewGenerated_generate (n : ℕ) (calls : List Call) :
    FewGenerated none (List.replicate n .generate ++ calls) ↔ FewGenerated none calls := by
  induction n with
  | zero => rfl
  | succ n ih => exact ih

theorem outputs_generated_first : ¬∀ calls : List Call, LosslessFrom none calls →
    FewGenerated none calls → Consecutive (outputs {} calls) := by
  intro h
  have hc := h (List.replicate 4095 .generate ++ [.get 0 false, .get 1 false])
    ((lossless_generate _ _ _).mpr (by simp [LosslessFrom]))
    ((fewGenerated_generate _ _).mpr (by simp [FewGenerated]))
  obtain ⟨buffer, hb⟩ := final_generate {} 4095
  have ho : outputs { ({} : SequenceNumberTranslator) with outInBuffer := buffer, offset := 4095 }
      [.get 0 false, .get 1 false] = [4096, 1] := by
    have h1 : sequenceNumberLessThan 0 4096 = false := by decide
    have h2 : sequenceNumberLessThan 0 1 = true := by decide
    have h3 : sequenceNumberLessThan 1 0 = false := by decide
    simp [outputs, call, get, getFirst_eq, getForward_eq, firstOutput, frontier, ahead, entryType,
      handedOut, SequenceNumber.HandedOut, h1, h2, h3]
  rw [outputs_append, hb, Consecutive, List.isChain_append] at hc
  have h2 := hc.2.1
  rw [show (0 : UInt16) + .ofNat 4095 = 4095 from rfl, ho] at h2
  exact absurd h2 (by decide)

end KkLicode.Rtp.SequenceNumberTranslator
