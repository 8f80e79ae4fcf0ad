import KkLicode.Rtp.TranslatorSteps

/-! Packets that are not skipped and advance are all shifted by the numbers that
were generated before them, whatever is lost between them. The shift is the
distance from the newest input to the frontier; a packet keeps it and a generated
number raises it by one. -/

namespace KkLicode.Rtp.SequenceNumberTranslator

open Base Base.Serial

/-- After the input `input` packets and generated numbers come, and no packet is skipped. A packet
is at least one ahead of the one before it, and at most 4095 together with the numbers generated
since, of which there are `k` so far. -/
def Advancing : UInt16 → ℕ → List Call → Prop
  | _, _, [] => True
  | input, k, .get next skip :: calls =>
    (skip = false ∧ 1 ≤ ahead input next ∧ ahead input next + k ≤ 4095) ∧ Advancing next 0 calls
  | input, k, .generate :: calls => Advancing input (k + 1) calls
  | _, _, .reset :: _ => False

instance Advancing.decidable : ∀ input k calls, Decidable (Advancing input k calls)
  | _, _, [] => isTrue trivial
  | _, _, .get next _ :: calls =>
    haveI := Advancing.decidable next 0 calls
    inferInstanceAs (Decidable (_ ∧ _))
  | input, k, .generate :: calls => Advancing.decidable input (k + 1) calls
  | _, _, .reset :: _ => isFalse id

/-- What the calls should return when `g` numbers were generated so far and `output` was handed
out last. -/
def shifted : ℕ → UInt16 → List Call → List (Option SequenceNumber)
  | _, _, [] => []
  | g, _, .get input _ :: calls =>
    some ⟨input, input + .ofNat g, .valid⟩ :: shifted g (input + .ofNat g) calls
  | g, output, .generate :: calls =>
    some ⟨0, output + 1, .generated⟩ :: shifted (g + 1) (output + 1) calls
  | g, output, .reset :: calls => none :: shifted g output calls

/-- The newest input is `input`, the numbers go on from `input` shifted by `g`, and the last `k`
numbers were generated. -/
structure Shifting (t : SequenceNumberTranslator) (input : UInt16) (g k : ℕ) : Prop where
  initialized : t.initialized = true
  last : t.lastInputSequenceNumber = input
  window : ahead t.firstInputSequenceNumber input ≤ 500
  offset : t.offset = .ofNat k
  frontier : t.frontier = input + .ofNat g

variable {t : SequenceNumberTranslator} {input next : UInt16} {g k : ℕ}

theorem Shifting.first (input : UInt16) :
    Shifting (SequenceNumberTranslator.get {} input false).1 input 0 0 ∧
      (SequenceNumberTranslator.get {} input false).2 = ⟨input, input, .valid⟩ := by
  have hget : SequenceNumberTranslator.get {} input false = getFirst {} input false := rfl
  rw [hget, getFirst_eq {} rfl]
  refine ⟨⟨rfl, rfl, ?_, rfl, ?_⟩, rfl⟩
  · exact (ahead_self input).le.trans (Nat.zero_le _)
  · simp [SequenceNumberTranslator.frontier, firstOutput]

/-- A generated number follows the last one and raises the shift. -/
theorem Shifting.generate (h : Shifting t input g k) :
    Shifting t.generate.1 input (g + 1) (k + 1) ∧
      t.generate.2 = ⟨0, input + .ofNat g + 1, .generated⟩ := by
  have hnext : t.offset + 1 + t.lastOutputSequenceNumber = input + .ofNat g + 1 := by
    rw [← h.frontier, SequenceNumberTranslator.frontier]
    grind
  refine ⟨⟨h.initialized, h.last, h.window, ?_, ?_⟩, ?_⟩
  · rw [ofNat_add_one, ← h.offset]
    rfl
  · rw [ofNat_add_one, ← UInt16.add_assoc, ← hnext, UInt16.add_comm]
    rfl
  · rw [SequenceNumberTranslator.generate, hnext]

/-- An advancing packet is neither late nor too old. -/
theorem Shifting.get_eq (h : Shifting t input g k) (hpos : 1 ≤ ahead input next)
    (hle : ahead input next ≤ 4095) :
    sequenceNumberLessThan t.lastInputSequenceNumber next = true ∧
      t.get next false = t.getForward next false := by
  have hw := h.window
  have hbase := ahead_base t.firstInputSequenceNumber input next
  have hback := ahead_base t.firstInputSequenceNumber next t.firstInputSequenceNumber
  have hlt := ahead_lt t.firstInputSequenceNumber next
  rw [ahead_self] at hback
  have hless : sequenceNumberLessThan t.lastInputSequenceNumber next = true := by
    rw [h.last]
    exact sequenceNumberLessThan_iff.mpr ⟨hpos, hle⟩
  have hnot : sequenceNumberLessThan next t.firstInputSequenceNumber = false := by
    rw [sequenceNumberLessThan_false_iff]
    omega
  refine ⟨hless, ?_⟩
  unfold SequenceNumberTranslator.get
  rw [h.initialized, hnot, hless]
  rfl

/-- An advancing packet keeps the shift. -/
theorem Shifting.get (h : Shifting t input g k) (hpos : 1 ≤ ahead input next)
    (hle : ahead input next + k ≤ 4095) :
    Shifting (t.get next false).1 next g 0 ∧
      (t.get next false).2 = ⟨next, next + .ofNat g, .valid⟩ := by
  obtain ⟨hless, hget⟩ := h.get_eq hpos (by omega)
  obtain ⟨hforward, hresult⟩ := getForward_spec t h.initialized false hless
  have houtput : t.frontier + .ofNat (ahead t.lastInputSequenceNumber next) = next + .ofNat g := by
    rw [h.last, h.frontier, UInt16.add_assoc, UInt16.add_comm (.ofNat g), ← UInt16.add_assoc,
      add_ahead]
  -- the output is at most 4095 ahead of the last one, so it becomes the last one
  have hnewer : sequenceNumberLessThan t.lastOutputSequenceNumber (next + .ofNat g) = true := by
    rw [← houtput, SequenceNumberTranslator.frontier, h.offset, h.last, UInt16.add_assoc,
      ← UInt16.ofNat_add, sequenceNumberLessThan_iff, ahead_add_ofNat]
    omega
  have hahead : ahead t.lastInputSequenceNumber next ≤ 4095 := by
    rw [h.last]
    omega
  have hwindow := nextFirst_ahead t (by rw [h.last]; exact h.window) hahead
  rw [hget]
  refine ⟨⟨hforward.initialized, hforward.last, ?_, hforward.offset, ?_⟩, ?_⟩
  · rw [hforward.first, hwindow]
    exact Nat.min_le_left _ _
  · rw [SequenceNumberTranslator.frontier, hforward.lastOutput, hforward.offset, houtput, hnewer]
    simp
  · rw [hresult, houtput]
    rfl

/-- The calls after the first packet return what they should. -/
theorem Shifting.trace (h : Shifting t input g k) (calls : List Call) (ha : Advancing input k calls) :
    (Runs.trace call t calls).map (·.2) = shifted g (input + .ofNat g) calls := by
  induction calls generalizing t input g k with
  | nil => rfl
  | cons c calls ih =>
    cases c with
    | get next skip =>
      obtain ⟨⟨rfl, hpos, hle⟩, ha⟩ := ha
      obtain ⟨hnext, hresult⟩ := h.get hpos hle
      rw [Runs.trace_cons, List.map_cons, shifted]
      exact congrArg₂ List.cons (congrArg some hresult) (ih hnext ha)
    | generate =>
      obtain ⟨hnext, hresult⟩ := h.generate
      have hrest := ih hnext ha
      rw [ofNat_add_one, ← UInt16.add_assoc] at hrest
      rw [Runs.trace_cons, List.map_cons, shifted]
      exact congrArg₂ List.cons (congrArg some hresult) hrest
    | reset => exact ha.elim

/-- From the first packet on, every packet is shifted by the numbers generated so far, and every
number generated follows the last one handed out. -/
theorem trace_shifted (input : UInt16) (calls : List Call) (ha : Advancing input 0 calls) :
    (Runs.trace call {} (.get input false :: calls)).map (·.2) =
      shifted 0 input (.get input false :: calls) := by
  obtain ⟨hfirst, hresult⟩ := Shifting.first input
  have hrest := hfirst.trace calls ha
  have hzero : input + UInt16.ofNat 0 = input := UInt16.add_zero input
  rw [Runs.trace_cons, List.map_cons, shifted]
  rw [hzero] at hrest ⊢
  exact congrArg₂ List.cons (congrArg some hresult) hrest

/-- Loss and generated numbers across the wrap. -/
theorem trace_shifted_wrap :
    (Runs.trace call {} (.get 65000 false :: [.generate, .get 65530 false, .generate, .generate,
      .get 3 false, .get 4000 false, .generate])).map (·.2) =
      shifted 0 65000 (.get 65000 false :: [.generate, .get 65530 false, .generate, .generate,
        .get 3 false, .get 4000 false, .generate]) :=
  trace_shifted 65000 _ (by decide)

end KkLicode.Rtp.SequenceNumberTranslator
