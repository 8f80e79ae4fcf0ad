import KkLicode.Rtp.TranslatorWindow

/-! No number is given to two packets. The numbers handed out lie between a base
and the frontier; a packet of the window that was lost has its number reserved,
and nothing but this packet ever gets it. The ledger below says this of the calls
made so far and the entries they left. -/

namespace KkLicode.Rtp.SequenceNumberTranslator

open Base Base.Serial Base.SlotRing

/-- A call with its result. -/
abbrev Record := Call × Option SequenceNumber

/-- Two results with one output belong to the same packet. -/
def SamePacket (r r' : Record) : Prop :=
  ∀ s ∈ r.2, ∀ s' ∈ r'.2, s.HandedOut → s'.HandedOut → s.output = s'.output →
    ∃ i skip skip', r.1 = .get i skip ∧ r'.1 = .get i skip'

/-- The call moves the last output over all numbers it reserves: a newer packet that is skipped is
next to the newest one, the output of one that is not skipped is at most 4095 ahead of the last
output, and a late packet that is not skipped finds its own slot. -/
def Allocates (t : SequenceNumberTranslator) : Call → Prop
  | .generate => True
  | .reset => False
  | .get input skip =>
    if t.initialized then
      if sequenceNumberLessThan input t.firstInputSequenceNumber then True
      else if sequenceNumberLessThan t.lastInputSequenceNumber input then
        if skip then input = t.lastInputSequenceNumber + 1
        else t.offset.toNat + ahead t.lastInputSequenceNumber input ≤ 4095
      else skip ∨ t.InWindow input ∧ t.Kept input
    else skip ∨ t.offset.toNat < 4095

instance (t : SequenceNumberTranslator) (c : Call) : Decidable (t.Allocates c) :=
  match c with
  | .generate => isTrue trivial
  | .reset => isFalse id
  | .get _ _ => by unfold Allocates; infer_instance

/-- The numbers by which the call moves the frontier. -/
def reserved (t : SequenceNumberTranslator) : Call → ℕ
  | .generate => 1
  | .reset => 0
  | .get input skip =>
    if skip then 0
    else if !t.initialized then 1
    else if sequenceNumberLessThan input t.firstInputSequenceNumber then 0
    else if sequenceNumberLessThan t.lastInputSequenceNumber input then
      ahead t.lastInputSequenceNumber input
    else if sequenceNumberLessThan t.lastOutputSequenceNumber (t.internalGet input).output then
      ahead t.lastOutputSequenceNumber (t.internalGet input).output
    else 0

/-- Every result with the output of this entry was given to the packet `i`. -/
def OnlyFor (trace : List Record) (i output : UInt16) : Prop :=
  ∀ r ∈ trace, ∀ s ∈ r.2, s.HandedOut → s.output = output → ∃ skip, r.1 = .get i skip

/-- The books of a run: `last` is the last output and `gap` the offset, counted without wrap. -/
structure Ledger (trace : List Record) (t : SequenceNumberTranslator) (base last gap : ℕ) : Prop where
  lastOutput : t.lastOutputSequenceNumber = .ofNat last
  offset : t.offset = .ofNat gap
  noReset : t.reset_ = false
  base_le : base ≤ last
  untouched : t.initialized = false → gap = 0 → ∀ r ∈ trace, ∀ s ∈ r.2, ¬s.HandedOut
  handed : ∀ r ∈ trace, ∀ s ∈ r.2, s.HandedOut →
    ∃ o, base ≤ o ∧ o ≤ last + gap ∧ s.output = .ofNat o
  entryType : ∀ i, (t.inOutBuffer i).type ≠ .generated
  entry : ∀ i, t.InWindow i → t.Kept i → ∃ o, base ≤ o ∧ o ≤ last + gap + 1 ∧
    (t.internalGet i).output = .ofNat o ∧
    ((t.internalGet i).type = .valid → o ≤ last ∧ OnlyFor trace i (.ofNat o))
  distinct : ∀ i j, t.InWindow i → t.Kept i → t.InWindow j → t.Kept j →
    (t.internalGet i).type = .valid → (t.internalGet j).type = .valid →
    (t.internalGet i).output = (t.internalGet j).output → i = j
  unique : trace.Pairwise SamePacket

variable {t : SequenceNumberTranslator} {trace : List Record} {base last gap : ℕ}

theorem Ledger.empty : Ledger [] {} 0 0 0 where
  lastOutput := rfl
  offset := rfl
  noReset := rfl
  base_le := le_rfl
  untouched := by simp
  handed := by simp
  entryType i := by simp [default]
  entry i hi := by simp [InWindow] at hi
  distinct i j hi := by simp [InWindow] at hi
  unique := .nil

/-! ### Entering a result -/

theorem Ledger.append_silent (h : Ledger trace t base last gap) {r : Record}
    (hr : ∀ s ∈ r.2, ¬s.HandedOut) : Ledger (trace ++ [r]) t base last gap where
  lastOutput := h.lastOutput
  offset := h.offset
  noReset := h.noReset
  base_le := h.base_le
  untouched hi hg := by
    intro r' hr'
    rcases List.mem_append.mp hr' with hr' | hr'
    · exact h.untouched hi hg r' hr'
    · rwa [List.mem_singleton.mp hr']
  handed := by
    intro r' hr' s hs hh
    rcases List.mem_append.mp hr' with hr' | hr'
    · exact h.handed r' hr' s hs hh
    · rw [List.mem_singleton.mp hr'] at hs
      exact absurd hh (hr s hs)
  entryType := h.entryType
  entry i hw hk := by
    obtain ⟨o, h1, h2, ho, hv⟩ := h.entry i hw hk
    refine ⟨o, h1, h2, ho, fun hv' => ⟨(hv hv').1, fun r' hr' s hs hh => ?_⟩⟩
    rcases List.mem_append.mp hr' with hr' | hr'
    · exact (hv hv').2 r' hr' s hs hh
    · rw [List.mem_singleton.mp hr'] at hs
      exact absurd hh (hr s hs)
  distinct := h.distinct
  unique := by
    refine List.pairwise_append.mpr ⟨h.unique, List.pairwise_singleton _ _, fun a _ b hb => ?_⟩
    rw [List.mem_singleton.mp hb]
    exact fun s _ s' hs' _ hh' => absurd hh' (hr s' hs')

/-- A packet that finds its entry valid gets the number reserved for it. -/
theorem Ledger.append_packet (h : Ledger trace t base last gap) {i : UInt16} (skip : Bool)
    (hw : t.InWindow i) (hk : t.Kept i) (hv : (t.internalGet i).type = .valid) :
    Ledger (trace ++ [(.get i skip, some (t.internalGet i))]) t base last gap where
  lastOutput := h.lastOutput
  offset := h.offset
  noReset := h.noReset
  base_le := h.base_le
  untouched hi := by simp [hw.1] at hi
  handed := by
    intro r hr s hs hh
    rcases List.mem_append.mp hr with hr | hr
    · exact h.handed r hr s hs hh
    · rw [List.mem_singleton.mp hr] at hs
      obtain ⟨o, h1, -, ho, hv'⟩ := h.entry i hw hk
      have := (hv' hv).1
      exact ⟨o, h1, by omega, by rw [← Option.some.inj hs, ho]⟩
  entryType := h.entryType
  entry j hwj hkj := by
    obtain ⟨o, h1, h2, ho, hv'⟩ := h.entry j hwj hkj
    refine ⟨o, h1, h2, ho, fun hvj => ⟨(hv' hvj).1, fun r hr s hs hh he => ?_⟩⟩
    rcases List.mem_append.mp hr with hr | hr
    · exact (hv' hvj).2 r hr s hs hh he
    · rw [List.mem_singleton.mp hr] at hs ⊢
      rw [← Option.some.inj hs, ← ho] at he
      exact ⟨skip, by rw [h.distinct i j hw hk hwj hkj hv hvj he]⟩
  distinct := h.distinct
  unique := by
    refine List.pairwise_append.mpr ⟨h.unique, List.pairwise_singleton _ _, fun a ha b hb => ?_⟩
    rw [List.mem_singleton.mp hb]
    intro s hs s' hs' hh _ he
    obtain ⟨o, -, -, ho, hv'⟩ := h.entry i hw hk
    rw [← Option.some.inj hs', ho] at he
    obtain ⟨skip', hs⟩ := (hv' hv).2 a ha s hs hh he
    exact ⟨i, skip', skip, hs, rfl⟩

/-! ### The branches -/

theorem Ledger.frontier (h : Ledger trace t base last gap) : t.frontier = .ofNat (last + gap) := by
  rw [SequenceNumberTranslator.frontier, h.lastOutput, h.offset, UInt16.ofNat_add]

theorem Ledger.generate (h : Ledger trace t base last gap) (hspan : last + gap + 1 ≤ base + 61440) :
    Ledger (trace ++ [(.generate, some t.generate.2)]) t.generate.1 base last (gap + 1) := by
  have hout : t.offset + 1 + t.lastOutputSequenceNumber = .ofNat (last + gap + 1) := by
    rw [ofNat_add_one, ← h.frontier, SequenceNumberTranslator.frontier]
    grind
  -- the number is larger than those handed out and those of valid entries
  have hnew : ∀ o, base ≤ o → o ≤ last + gap → UInt16.ofNat o ≠ .ofNat (last + gap + 1) :=
    fun o h1 h2 he => by
      have := ofNat_inj_of_lt he (by omega) (by omega)
      omega
  refine ⟨h.lastOutput, ?_, h.noReset, h.base_le, by simp, ?_, h.entryType, ?_, h.distinct, ?_⟩
  · rw [ofNat_add_one, ← h.offset]
    rfl
  · intro r hr s hs hh
    rcases List.mem_append.mp hr with hr | hr
    · obtain ⟨o, h1, h2, ho⟩ := h.handed r hr s hs hh
      exact ⟨o, h1, by omega, ho⟩
    · rw [List.mem_singleton.mp hr] at hs
      exact ⟨last + gap + 1, by have := h.base_le; omega, by omega, by
        rw [← Option.some.inj hs]; exact hout⟩
  · intro i hw hk
    obtain ⟨o, h1, h2, ho, hv⟩ := h.entry i hw hk
    refine ⟨o, h1, by omega, ho, fun hv' => ⟨(hv hv').1, fun r hr s hs hh he => ?_⟩⟩
    rcases List.mem_append.mp hr with hr | hr
    · exact (hv hv').2 r hr s hs hh he
    · rw [List.mem_singleton.mp hr] at hs
      have hs : t.generate.2.output = s.output := congrArg (·.output) (Option.some.inj hs)
      have := (hv hv').1
      exact absurd (he.symm.trans (hs.symm.trans hout)) (hnew o h1 (by omega))
  · refine List.pairwise_append.mpr ⟨h.unique, List.pairwise_singleton _ _, fun a ha b hb => ?_⟩
    rw [List.mem_singleton.mp hb]
    intro s hs s' hs' hh _ he
    obtain ⟨o, h1, h2, ho⟩ := h.handed a ha s hs hh
    have hs' : t.generate.2.output = s'.output := congrArg (·.output) (Option.some.inj hs')
    exact absurd (ho.symm.trans (he.trans (hs'.symm.trans hout))) (hnew o h1 h2)

/-! The table of inputs never holds a generated number. -/

theorem update_not_generated {buffer : Buffer} (h : ∀ i, (buffer i).type ≠ .generated)
    {s : SequenceNumber} (hs : s.type ≠ .generated) (n i : Slot) :
    (Function.update buffer n s i).type ≠ .generated := by
  by_cases hn : i = n
  · rwa [hn, Function.update_self]
  · rw [Function.update_of_ne hn]
    exact h i

theorem writeRun_not_generated {buffer : Buffer} (h : ∀ i, (buffer i).type ≠ .generated)
    {place : ℕ → Slot} {item : ℕ → SequenceNumber} (hs : ∀ j, (item j).type ≠ .generated) (a n : ℕ) :
    ∀ i, (writeRun place item buffer a n i).type ≠ .generated := by
  induction n with
  | zero => exact h
  | succ n ih => exact update_not_generated ih (hs _) _

theorem entryType_not_generated (skip : Bool) : entryType skip ≠ .generated := by
  cases skip <;> decide

theorem newEntry_not_generated (t : SequenceNumberTranslator) (input : UInt16) (skip : Bool) (j : ℕ) :
    (t.newEntry input skip j).type ≠ .generated := by
  rw [newEntry]
  split_ifs
  · exact entryType_not_generated skip
  · simp

theorem lateEntry_not_generated (h : ∀ i, (t.inOutBuffer i).type ≠ .generated) (input : UInt16)
    (skip : Bool) : (t.lateEntry input skip).type ≠ .generated := by
  rw [lateEntry]
  split_ifs
  · simp
  · simp
  · exact h _

/-- A packet that is skipped while none has been forwarded. -/
theorem Ledger.first_skip (h : Ledger trace t base last gap) (hi : t.initialized = false)
    (input : UInt16) : Ledger trace (t.getFirst input true).1 base last gap := by
  rw [getFirst_eq t hi]
  exact ⟨h.lastOutput, h.offset, h.noReset, h.base_le, fun _ => h.untouched hi, h.handed,
    update_not_generated h.entryType (entryType_not_generated true) _,
    fun i hw => by simp [InWindow] at hw, fun i j hw => by simp [InWindow] at hw, h.unique⟩

/-- The first packet that is forwarded. -/
theorem Ledger.first (h : Ledger trace t base last gap) (hi : t.initialized = false)
    (input : UInt16) (hgap : gap < 4095) (hspan : last + gap + 1 ≤ base + 61440) :
    ∃ base' last', last' + base ≤ last + gap + 1 + base' ∧
      Ledger trace (t.getFirst input false).1 base' last' 0 := by
  have hwin : ∀ {i}, (t.getFirst input false).1.InWindow i → i = input := fun {i} hw =>
    ahead_eq_zero.mp (by simpa [getFirst_eq t hi, InWindow] using hw)
  have hget : (t.getFirst input false).1.internalGet input = ⟨input, t.firstOutput input, .valid⟩ := by
    simp [getFirst_eq t hi, internalGet, SequenceNumberTranslator.entryType]
  have hfirst : ∀ base' last', base' ≤ last' → t.firstOutput input = .ofNat last' →
      (t.getFirst input false).1.lastOutputSequenceNumber = .ofNat last' →
      (∀ r ∈ trace, ∀ s ∈ r.2, s.HandedOut → ∃ o, base' ≤ o ∧ o < last' ∧ s.output = .ofNat o) →
      last' < base' + 65536 → Ledger trace (t.getFirst input false).1 base' last' 0 := by
    intro base' last' hle hout hlast hhand hlt
    refine ⟨hlast, by simp [getFirst_eq t hi], by simp [getFirst_eq t hi], hle,
      by simp [getFirst_eq t hi], fun r hr s hs hh => ?_, ?_, ?_, ?_, h.unique⟩
    · obtain ⟨o, h1, h2, ho⟩ := hhand r hr s hs hh
      exact ⟨o, h1, by omega, ho⟩
    · rw [getFirst_eq t hi]
      exact update_not_generated h.entryType (entryType_not_generated false) _
    · intro i hw _
      rw [hwin hw, hget]
      refine ⟨last', hle, by omega, hout, fun _ => ⟨le_rfl, fun r hr s hs hh he => ?_⟩⟩
      obtain ⟨o, h1, h2, ho⟩ := hhand r hr s hs hh
      have := ofNat_inj_of_lt (ho.symm.trans he) (by omega) (by omega)
      omega
    · intro i j hwi _ hwj _ _ _ _
      rw [hwin hwi, hwin hwj]
  by_cases hg : gap = 0
  · -- nothing was handed out: the packet keeps its number
    subst hg
    have hf : t.firstOutput input = input := by simp [firstOutput, h.noReset, h.offset]
    refine ⟨input.toNat, input.toNat, by have := h.base_le; omega, hfirst _ _ le_rfl ?_ ?_ ?_ (by omega)⟩
    · rw [hf, UInt16.ofNat_toNat]
    · simp [getFirst_eq t hi, h.noReset, h.offset, hf]
    · exact fun r hr s hs hh => absurd hh (h.untouched hi rfl r hr s hs)
  · have hpos : (t.reset_ || t.offset > 0) = true := by
      have : 0 < t.offset := by
        rw [h.offset, UInt16.lt_iff_toNat_lt, UInt16.toNat_ofNat']
        simp
        omega
      simp [this]
    have hf : t.firstOutput input = .ofNat (last + gap + 1) := by
      rw [firstOutput, if_pos hpos, h.frontier, ofNat_add_one]
    have hlt : sequenceNumberLessThan t.lastOutputSequenceNumber (.ofNat (last + gap + 1)) = true := by
      rw [sequenceNumberLessThan_iff, h.lastOutput, ahead_ofNat _ _ (by omega)]
      omega
    have := h.base_le
    refine ⟨base, last + gap + 1, by omega, hfirst _ _ (by omega) hf ?_ ?_ (by omega)⟩
    · rw [getFirst_eq t hi]
      simp only [hf, hlt, Bool.or_true, Bool.not_false, Bool.and_true, if_true]
    · intro r hr s hs hh
      obtain ⟨o, h1, h2, ho⟩ := h.handed r hr s hs hh
      exact ⟨o, h1, by omega, ho⟩

/-- A newer packet: forwarded over all numbers up to it, or skipped next to the newest one. -/
theorem Ledger.forward (h : Ledger trace t base last gap) (hwin : Windowed t)
    (hi : t.initialized = true) {input : UInt16} {skip : Bool} {t' : SequenceNumberTranslator}
    (hf : Forwarded t input skip t') (h1 : 1 ≤ ahead t.lastInputSequenceNumber input)
    (h2 : ahead t.lastInputSequenceNumber input ≤ 4095) {last' gap' : ℕ}
    (hcase : skip = true ∧ ahead t.lastInputSequenceNumber input = 1 ∧ last' = last ∧ gap' = gap ∨
      skip = false ∧ gap + ahead t.lastInputSequenceNumber input ≤ 4095 ∧
        last' = last + gap + ahead t.lastInputSequenceNumber input ∧ gap' = 0)
    (hspan : last' + gap' + 1 ≤ base + 65535) : Ledger trace t' base last' gap' := by
  have hb := h.base_le
  have hnew : ∀ x, (t.newEntry input skip (ahead t.lastInputSequenceNumber input - x)).output =
      .ofNat (last + gap + (ahead t.lastInputSequenceNumber input - x)) := fun x => by
    rw [newEntry, h.frontier, UInt16.ofNat_add (last + gap)]
  generalize hd : ahead t.lastInputSequenceNumber input = d at *
  have hentry : ∀ {i}, t'.InWindow i → t'.Kept i →
      (ahead i input < d ∧ t'.internalGet i = t.newEntry input skip (d - ahead i input)) ∨
      (d ≤ ahead i input ∧ t.InWindow i ∧ t.Kept i ∧ t'.internalGet i = t.internalGet i) :=
    fun hw hk => hd ▸ hwin.forward hi hf (by omega) hw hk
  -- a new entry that is valid was reserved by a packet that is not skipped
  have hvalid : ∀ {x}, x < d → (t.newEntry input skip (d - x)).type = .valid → skip = false := by
    intro x hx hv
    rcases hcase with ⟨rfl, h', -⟩ | ⟨h', -⟩
    · obtain rfl : x = 0 := by omega
      simp [newEntry, hd, SequenceNumberTranslator.entryType] at hv
    · exact h'
  have hold : ∀ r ∈ trace, ∀ s ∈ r.2, s.HandedOut → ∃ o, base ≤ o ∧ o ≤ last' + gap' ∧
      o ≤ last + gap ∧ s.output = .ofNat o := by
    intro r hr s hs hh
    obtain ⟨o, h1, h2, ho⟩ := h.handed r hr s hs hh
    exact ⟨o, h1, by omega, h2, ho⟩
  refine ⟨?_, ?_, hf.reset_.trans h.noReset, by omega, by simp [hf.initialized], ?_, ?_, ?_, ?_, h.unique⟩
  · rw [hf.lastOutput, h.frontier, hd, ← UInt16.ofNat_add, h.lastOutput]
    rcases hcase with ⟨rfl, -, rfl, -⟩ | ⟨rfl, hle, rfl, -⟩
    · rfl
    · rw [if_pos]
      rw [Bool.not_false, Bool.true_and, sequenceNumberLessThan_iff, ahead_ofNat _ _ (by omega)]
      omega
  · rw [hf.offset]
    rcases hcase with ⟨rfl, -, -, rfl⟩ | ⟨rfl, -, -, rfl⟩
    · exact h.offset
    · rfl
  · intro r hr s hs hh
    obtain ⟨o, h1, h2, -, ho⟩ := hold r hr s hs hh
    exact ⟨o, h1, h2, ho⟩
  · rw [hf.inOut]
    exact writeRun_not_generated h.entryType (newEntry_not_generated t input skip) _ _
  · intro i hw hk
    rcases hentry hw hk with ⟨hx, he⟩ | ⟨-, hw, hk, he⟩ <;> rw [he]
    · refine ⟨last + gap + (d - ahead i input), by omega, by omega, hnew _, fun hv => ?_⟩
      have hs := hvalid hx hv
      refine ⟨by simp [hs] at hcase; omega, fun r hr s hs hh he => ?_⟩
      obtain ⟨o, h1, -, h2, ho⟩ := hold r hr s hs hh
      have := ofNat_inj_of_lt (ho.symm.trans he) (by omega) (by omega)
      omega
    · obtain ⟨o, h1, h2, ho, hv⟩ := h.entry i hw hk
      exact ⟨o, h1, by omega, ho, fun hv' => ⟨by have := (hv hv').1; omega, (hv hv').2⟩⟩
  · intro i j hwi hki hwj hkj hvi hvj he
    rcases hentry hwi hki with ⟨hxi, hei⟩ | ⟨-, hwi, hki, hei⟩ <;>
      rcases hentry hwj hkj with ⟨hxj, hej⟩ | ⟨-, hwj, hkj, hej⟩ <;>
      rw [hei] at hvi he <;> rw [hej] at hvj he
    · rw [hnew, hnew] at he
      have := ofNat_inj_of_lt he (by omega) (by omega)
      exact eq_of_ahead_eq' (c := input) (by omega)
    · obtain ⟨o, h1, -, ho, hv⟩ := h.entry j hwj hkj
      have := (hv hvj).1
      rw [hnew, ho] at he
      have := ofNat_inj_of_lt he (by omega) (by omega)
      omega
    · obtain ⟨o, h1, -, ho, hv⟩ := h.entry i hwi hki
      have := (hv hvi).1
      rw [hnew, ho] at he
      have := ofNat_inj_of_lt he (by omega) (by omega)
      omega
    · exact h.distinct i j hwi hki hwj hkj hvi hvj he

/-- A late packet leaves outputs as they are and makes no entry valid. -/
theorem late_internalGet (hi : t.initialized = true) (input i : UInt16) (skip : Bool) :
    ((t.getLate input skip).1.internalGet i).output = (t.internalGet i).output ∧
      (((t.getLate input skip).1.internalGet i).type = .valid →
        (t.getLate input skip).1.internalGet i = t.internalGet i) := by
  rw [getLate_eq t hi]
  show (Function.update t.inOutBuffer (slot input) (t.lateEntry input skip) (slot i)).output = _ ∧
    ((Function.update t.inOutBuffer (slot input) (t.lateEntry input skip) (slot i)).type = .valid →
      Function.update t.inOutBuffer (slot input) (t.lateEntry input skip) (slot i) = _)
  by_cases hs : slot i = slot input
  · have he : t.internalGet i = t.internalGet input := by rw [internalGet, internalGet, hs]
    rw [hs, Function.update_self, he]
    cases skip with
    | false => simp
    | true =>
      by_cases hv : (t.internalGet input).type = .valid
      · simp [lateEntry, hv]
      · simp [lateEntry, hv]
  · rw [Function.update_of_ne hs]
    exact ⟨rfl, fun _ => rfl⟩

/-- A late packet: it may lift the last output up to that of a packet skipped before. -/
theorem Ledger.late (h : Ledger trace t base last gap) (hi : t.initialized = true) {input : UInt16}
    {skip : Bool} (hc : skip = true ∨ t.InWindow input ∧ t.Kept input)
    (hspan : last + gap ≤ base + 61440) :
    ∃ last', last ≤ last' ∧ (last' = last ∨ skip = false ∧
        sequenceNumberLessThan t.lastOutputSequenceNumber (t.internalGet input).output = true ∧
        last' - last = ahead t.lastOutputSequenceNumber (t.internalGet input).output) ∧
      Ledger trace (t.getLate input skip).1 base last' gap := by
  have hstep : ∀ last', last ≤ last' →
      (t.getLate input skip).1.lastOutputSequenceNumber = .ofNat last' →
      Ledger trace (t.getLate input skip).1 base last' gap := by
    intro last' hle hlast
    have hwin : ∀ {i}, (t.getLate input skip).1.InWindow i → t.InWindow i := fun hw => by
      rw [getLate_eq t hi] at hw
      exact hw
    have hkept : ∀ {i}, (t.getLate input skip).1.Kept i → t.Kept i := fun hk => by
      rw [getLate_eq t hi] at hk
      exact hk
    have hb := h.base_le
    refine ⟨hlast, by rw [getLate_eq t hi]; exact h.offset, by rw [getLate_eq t hi]; exact h.noReset,
      by omega, by simp [getLate_eq t hi, hi], fun r hr s hs hh => ?_, ?_, fun i hw hk => ?_,
      fun i j hwi hki hwj hkj hvi hvj he => ?_, h.unique⟩
    · obtain ⟨o, h1, h2, ho⟩ := h.handed r hr s hs hh
      exact ⟨o, h1, by omega, ho⟩
    · rw [getLate_eq t hi]
      exact update_not_generated h.entryType (lateEntry_not_generated h.entryType input skip) _
    · obtain ⟨hout, hval⟩ := late_internalGet hi input i skip
      obtain ⟨o, h1, h2, ho, hv⟩ := h.entry i (hwin hw) (hkept hk)
      refine ⟨o, h1, by omega, hout.trans ho, fun hv' => ?_⟩
      rw [hval hv'] at hv'
      exact ⟨by have := (hv hv').1; omega, (hv hv').2⟩
    · have hi' := (late_internalGet hi input i skip).2 hvi
      have hj' := (late_internalGet hi input j skip).2 hvj
      rw [hi'] at hvi he
      rw [hj'] at hvj he
      exact h.distinct i j (hwin hwi) (hkept hki) (hwin hwj) (hkept hkj) hvi hvj he
  have hlast : (t.getLate input skip).1.lastOutputSequenceNumber =
      if !skip && sequenceNumberLessThan t.lastOutputSequenceNumber (t.internalGet input).output then
        (t.internalGet input).output else t.lastOutputSequenceNumber := by
    rw [getLate_eq t hi]
    cases skip <;> simp
  by_cases hlift : (!skip &&
      sequenceNumberLessThan t.lastOutputSequenceNumber (t.internalGet input).output) = true
  · rw [if_pos hlift] at hlast
    simp only [Bool.and_eq_true, Bool.not_eq_true'] at hlift
    obtain ⟨hw, hk⟩ := hc.resolve_left (by simp [hlift.1])
    obtain ⟨o, h1, h2, ho, -⟩ := h.entry input hw hk
    have hseq := sequenceNumberLessThan_iff.mp hlift.2
    have hb := h.base_le
    rw [ho, h.lastOutput] at hseq
    -- an output behind the last one would be more than 61440 behind it
    have hle : last ≤ o := by
      by_contra hlt
      have := ahead_ofNat o last (by omega)
      have := ahead_base (UInt16.ofNat last) (UInt16.ofNat o) (UInt16.ofNat last)
      rw [ahead_self] at this
      omega
    rw [ahead_ofNat _ _ hle] at hseq
    refine ⟨o, hle, .inr ⟨hlift.1, hlift.2, ?_⟩, hstep o hle (hlast.trans ho)⟩
    rw [ho, h.lastOutput, ahead_ofNat _ _ hle]
    omega
  · rw [if_neg hlift] at hlast
    exact ⟨last, le_rfl, .inl rfl, hstep last le_rfl (hlast.trans h.lastOutput)⟩

/-! ### Runs -/

/-- The packet that was just forwarded is the newest of the window. -/
theorem Ledger.append_newest {t' : SequenceNumberTranslator} {input o : UInt16}
    (h : Ledger trace t' base last gap) (hi : t'.initialized = true)
    (hl : t'.lastInputSequenceNumber = input) (he : t'.internalGet input = ⟨input, o, .valid⟩) :
    Ledger (trace ++ [(.get input false, some ⟨input, o, .valid⟩)]) t' base last gap := by
  have := h.append_packet (i := input) false ⟨hi, by simp [hl]⟩ (.inr (by simp [hl])) (by rw [he])
  rwa [he] at this

theorem Ledger.offset_toNat (h : Ledger trace t base last gap) (hspan : last + gap ≤ base + 61440) :
    t.offset.toNat = gap := by
  have := h.base_le
  rw [h.offset, UInt16.toNat_ofNat']
  omega

/-- The books after a call. -/
theorem Ledger.get (h : Ledger trace t base last gap) (hwin : Windowed t) {input : UInt16}
    {skip : Bool} (hc : t.Allocates (.get input skip))
    (hspan : last + gap + t.reserved (.get input skip) ≤ base + 61440) :
    ∃ base' last' gap', last' + gap' + base ≤ last + gap + t.reserved (.get input skip) + base' ∧
      Ledger (trace ++ [(.get input skip, some (t.get input skip).2)]) (t.get input skip).1
        base' last' gap' := by
  have hoff := h.offset_toNat (by omega)
  rcases get_cases t input skip with ⟨hi, hg⟩ | ⟨hi, ⟨h1, h2, hg⟩ | ⟨hf, ⟨h1, h2, hg⟩ | ⟨hl, hg⟩⟩⟩ <;>
    rw [hg]
  · cases skip with
    | true =>
      refine ⟨base, last, gap, by omega, (h.first_skip hi input).append_silent ?_⟩
      simp [getFirst_eq t hi, SequenceNumberTranslator.entryType, SequenceNumber.HandedOut]
    | false =>
      have hr : t.reserved (.get input false) = 1 := by simp [reserved, hi]
      rw [hr] at hspan ⊢
      obtain ⟨base', last', hle, hled⟩ := h.first hi input
        (by simpa [Allocates, hi, hoff] using hc) (by omega)
      refine ⟨base', last', 0, by omega, ?_⟩
      have hres : (t.getFirst input false).2 = ⟨input, t.firstOutput input, .valid⟩ := by
        simp [getFirst_eq t hi, SequenceNumberTranslator.entryType]
      rw [hres]
      refine hled.append_newest ?_ ?_ ?_ <;>
        simp [getFirst_eq t hi, internalGet, SequenceNumberTranslator.entryType]
  · refine ⟨base, last, gap, by omega, h.append_silent ?_⟩
    simp [SequenceNumber.HandedOut]
  · have hf' := sequenceNumberLessThan_false_iff.mpr hf
    have hl' := sequenceNumberLessThan_iff.mpr ⟨h1, h2⟩
    obtain ⟨hs, hr⟩ := getForward_spec t hi skip hl'
    have hb := h.base_le
    cases skip with
    | true =>
      have hin : input = t.lastInputSequenceNumber + 1 := by simpa [Allocates, hi, hf', hl'] using hc
      have hd : ahead t.lastInputSequenceNumber input = 1 := by rw [hin, ahead_add_one]
      refine ⟨base, last, gap, by omega, (h.forward hwin hi hs h1 h2 (.inl ⟨rfl, hd, rfl, rfl⟩)
        (by omega)).append_silent ?_⟩
      simp [hr, SequenceNumberTranslator.entryType, SequenceNumber.HandedOut]
    | false =>
      have hle : gap + ahead t.lastInputSequenceNumber input ≤ 4095 := by
        simpa [Allocates, hi, hf', hl', hoff] using hc
      have hres : t.reserved (.get input false) = ahead t.lastInputSequenceNumber input := by
        simp [reserved, hi, hf', hl']
      rw [hres] at hspan ⊢
      refine ⟨base, last + gap + ahead t.lastInputSequenceNumber input, 0, by omega, ?_⟩
      have hled := h.forward hwin hi hs h1 h2 (.inr ⟨rfl, hle, rfl, rfl⟩) (by omega)
      have hv : (t.get input false).2.type = .valid := by rw [hg, hr]; rfl
      obtain ⟨-, hw, he⟩ := hwin.get_valid (fun hlate => by simp [hlate.2.2] at hl') hv
      rw [hg] at he
      rw [hr] at he ⊢
      exact hled.append_newest hs.initialized hs.last he
  · have hf' := sequenceNumberLessThan_false_iff.mpr hf
    have hl' := sequenceNumberLessThan_false_iff.mpr hl
    have hc' : skip = true ∨ t.InWindow input ∧ t.Kept input := by
      simpa [Allocates, hi, hf', hl'] using hc
    have hres : (t.getLate input skip).2 = t.lateEntry input skip := by rw [getLate_eq t hi]
    obtain ⟨last', hle, hlift, hled⟩ := h.late hi hc' (by omega)
    refine ⟨base, last', gap, ?_, ?_⟩
    · rcases hlift with rfl | ⟨rfl, hlt, hx⟩
      · omega
      · simp only [reserved, hi, hf', hl', hlt]
        simp
        omega
    · rw [hres]
      by_cases hv : (t.lateEntry input skip).type = .valid
      · have hs : skip = false := by
          by_contra hs
          rw [Bool.not_eq_false] at hs
          subst hs
          rw [lateEntry] at hv
          split_ifs at hv with hv' <;> simp_all
        obtain ⟨hw, hk⟩ := hc'.resolve_left (by simp [hs])
        have he : (t.getLate input skip).1.internalGet input = t.lateEntry input skip := by
          rw [getLate_eq t hi]
          exact Function.update_self ..
        have := hled.append_packet skip (i := input) (by rw [getLate_eq t hi]; exact hw)
          (by rw [getLate_eq t hi]; exact hk) (by rw [he]; exact hv)
        rwa [he] at this
      · refine hled.append_silent ?_
        intro s hs hh
        rw [← Option.some.inj hs] at hh
        exact hh.elim hv (lateEntry_not_generated h.entryType input skip)

theorem Ledger.call (h : Ledger trace t base last gap) (hwin : Windowed t) {c : Call}
    (hc : t.Allocates c) (hspan : last + gap + t.reserved c ≤ base + 61440) :
    ∃ base' last' gap', last' + gap' + base ≤ last + gap + t.reserved c + base' ∧
      Ledger (trace ++ [(c, (t.call c).2)]) (t.call c).1 base' last' gap' := by
  cases c with
  | get input skip => exact h.get hwin hc hspan
  | generate =>
    simp only [reserved] at hspan ⊢
    exact ⟨base, last, gap + 1, by omega, h.generate (by omega)⟩
  | reset => exact hc.elim

/-- The books after a run. -/
theorem Ledger.run {calls : List Call} (h : Ledger trace t base last gap) (hwin : Windowed t)
    (hc : Runs.Steps SequenceNumberTranslator.call Allocates t calls)
    (hspan : last + gap + Runs.total SequenceNumberTranslator.call reserved t calls ≤ base + 61440) :
    ∃ base' last' gap', Ledger (trace ++ Runs.trace SequenceNumberTranslator.call t calls)
      (Runs.final SequenceNumberTranslator.call t calls) base' last' gap' := by
  induction calls generalizing t trace base last gap with
  | nil => exact ⟨base, last, gap, by simpa using h⟩
  | cons c calls ih =>
    rw [Runs.total] at hspan
    obtain ⟨base', last', gap', hle, h'⟩ := h.call hwin hc.1 (by omega)
    simpa using ih h' (hwin.call c) hc.2 (by omega)

/-- No number is handed out to two packets in a run that reserves at most 61440 numbers. -/
theorem outputs_unique (calls : List Call) (hc : Runs.Steps call Allocates {} calls)
    (hspan : Runs.total call reserved {} calls ≤ 61440) :
    (Runs.trace call {} calls).Pairwise SamePacket := by
  obtain ⟨base, last, gap, h⟩ := Ledger.empty.run Windowed.empty hc (by omega)
  simpa using h.unique

/-- A run across the wrap with a lost packet that comes late and again, a skipped one and a
generated number. -/
theorem outputs_unique_wrap : (Runs.trace call {} [.get 65534 false, .generate, .get 1 false,
    .get 65535 false, .get 2 true, .get 3 false, .get 65535 false, .get 2 false]).Pairwise SamePacket :=
  outputs_unique _ (by decide) (by decide)

/-- The packet 65535 sent again gets the number of the packet 63. -/
theorem outputs_unique_fails : ¬∀ calls : List Call, .reset ∉ calls → Near 4095 500 none calls →
    (outputs {} calls).length < 2 ^ 15 → (Runs.trace call {} calls).Pairwise SamePacket := by
  intro h
  have hr : Runs.trace call {} [.get 65535 false, .get 63 false, .get 65535 false] =
      [(.get 65535 false, some ⟨65535, 65535, .valid⟩), (.get 63 false, some ⟨63, 63, .valid⟩),
        (.get 65535 false, some ⟨63, 63, .valid⟩)] := by decide +kernel
  have hp := h [.get 65535 false, .get 63 false, .get 65535 false] (by decide)
    (by simp [Near, ahead]) (by rw [outputs, hr]; simp [handedOut, SequenceNumber.HandedOut])
  rw [hr, List.pairwise_cons, List.pairwise_cons] at hp
  obtain ⟨i, skip, skip', h1, h2⟩ := hp.2.1 _ (List.mem_singleton_self _) _ rfl _ rfl
    (.inl rfl) (.inl rfl) rfl
  exact absurd ((Call.get.inj h1).1.trans (Call.get.inj h2).1.symm) (by decide)

end KkLicode.Rtp.SequenceNumberTranslator
