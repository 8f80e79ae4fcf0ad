import KkLicode.Rtp.TranslatorSteps

/-! The window of inputs and its slots. The 501 inputs up to the newest one have
a slot each, except around the wrap: 65536 is not a multiple of 1023, so a number
from 65472 on shares its slot with the number 64 later. Until that number arrives
the slot holds the entry of the earlier one, and a packet that is sent again finds
the number it had. -/

namespace KkLicode.Rtp.SequenceNumberTranslator

open Base Base.Serial Base.SlotRing

variable {t : SequenceNumberTranslator}

/-- Two numbers less than 1023 apart share a slot only across the wrap, 64 apart. -/
theorem slot_shared_ahead {a b : UInt16} (hs : slot a = slot b) (h1 : 1 ≤ ahead a b)
    (h2 : ahead a b < 1023) : 65472 ≤ a.toNat ∧ ahead a b = 64 := by
  have ha := a.toNat_lt
  have hb : b.toNat = (a.toNat + ahead a b) % 65536 := by
    have := b.toNat_lt
    simp only [ahead, UInt16.toNat_sub]
    omega
  have hm := slot_eq_iff.mp hs
  rw [hb, ← Nat.mod_eq_of_lt ha] at hm
  have := slot_shared (W := 65536) (R := 1023) (a := a.toNat) (b := a.toNat + ahead a b)
    (by omega) (by omega) (by decide) (by simpa using hm)
  omega

/-- The numbers that are still looked up. -/
def InWindow (t : SequenceNumberTranslator) (i : UInt16) : Prop :=
  t.initialized = true ∧
    ahead i t.lastInputSequenceNumber ≤ ahead t.firstInputSequenceNumber t.lastInputSequenceNumber

/-- The slot of a number of the window has not been taken by a newer number. -/
def Kept (t : SequenceNumberTranslator) (i : UInt16) : Prop :=
  i.toNat < 65472 ∨ ahead i t.lastInputSequenceNumber < 64

instance (t : SequenceNumberTranslator) (i : UInt16) : Decidable (t.InWindow i) :=
  inferInstanceAs (Decidable (_ ∧ _))

instance (t : SequenceNumberTranslator) (i : UInt16) : Decidable (t.Kept i) :=
  inferInstanceAs (Decidable (_ ∨ _))

/-- The entries of the window after a newer packet, where their slots are kept. -/
theorem forward_slot {input i : UInt16} (skip : Bool) (hx : ahead i input ≤ 500)
    (hk : i.toNat < 65472 ∨ ahead i input < 64) (hd : ahead t.lastInputSequenceNumber input ≤ 4095) :
    writeRun (fun j => slot (t.newEntry input skip j).input) (t.newEntry input skip) t.inOutBuffer 1
        (ahead t.lastInputSequenceNumber input) (slot i) =
      if ahead i input < ahead t.lastInputSequenceNumber input then
        t.newEntry input skip (ahead t.lastInputSequenceNumber input - ahead i input)
      else t.inOutBuffer (slot i) := by
  generalize hdd : ahead t.lastInputSequenceNumber input = d at *
  generalize hxx : ahead i input = x at *
  have hpos : ∀ j ≤ d, ahead i (t.lastInputSequenceNumber + .ofNat j) = (x + 65536 - (d - j)) % 65536 := by
    intro j hj
    have h1 := ahead_base t.lastInputSequenceNumber i input
    have h2 := ahead_base t.lastInputSequenceNumber i (t.lastInputSequenceNumber + .ofNat j)
    have h3 := ahead_lt t.lastInputSequenceNumber i
    rw [ahead_add_ofNat] at h2
    omega
  -- a number of the run behind `i` does not fall into its slot
  have hne : ∀ j ≤ d, d < x + j → slot (t.lastInputSequenceNumber + .ofNat j) ≠ slot i := by
    intro j hj hlt hs
    have hp := hpos j hj
    have := slot_shared_ahead hs.symm (by omega) (by omega)
    omega
  split_ifs with hxd
  · obtain ⟨k, hk'⟩ : ∃ k, d - x = 1 + k := ⟨d - x - 1, by omega⟩
    have hi : i = t.lastInputSequenceNumber + .ofNat (1 + k) := by
      have := hpos (1 + k) (by omega)
      exact ahead_eq_zero.mp (by omega)
    have hrun := writeRun_owner (fun j => slot (t.newEntry input skip j).input)
      (t.newEntry input skip) t.inOutBuffer 1 (n := d) (k := k) (by omega) fun m hm hkm => by
        show slot (t.lastInputSequenceNumber + .ofNat (1 + m)) ≠
          slot (t.lastInputSequenceNumber + .ofNat (1 + k))
        rw [← hi]
        exact hne (1 + m) (by omega) (by omega)
    rw [hk']
    rwa [show (t.newEntry input skip (1 + k)).input = i from hi.symm] at hrun
  · exact writeRun_of_ne _ _ _ _ fun j hj => hne (1 + j) (by omega) (by omega)

/-- At most 501 numbers are looked up, and the slot of each one that is kept holds its entry. -/
structure Windowed (t : SequenceNumberTranslator) : Prop where
  span : ahead t.firstInputSequenceNumber t.lastInputSequenceNumber ≤ 500
  owner : ∀ i, t.InWindow i → t.Kept i → (t.internalGet i).input = i

/-- The window has no two kept numbers in one slot. -/
theorem Windowed.slot_inj (h : Windowed t) {i j : UInt16} (hi : t.InWindow i) (hj : t.InWindow j)
    (hki : t.Kept i) (hkj : t.Kept j) (hs : slot i = slot j) : i = j := by
  have hb := ahead_base i j t.lastInputSequenceNumber
  have hl := ahead_lt i j
  have hb' := ahead_base j i t.lastInputSequenceNumber
  have hl' := ahead_lt j i
  have h1 := hi.2.trans h.span
  have h2 := hj.2.trans h.span
  have h3 := ahead_lt j t.lastInputSequenceNumber
  rw [Kept] at hki hkj
  rcases Nat.lt_trichotomy (ahead i t.lastInputSequenceNumber) (ahead j t.lastInputSequenceNumber)
    with hlt | heq | hlt
  · have := slot_shared_ahead hs.symm (by omega) (by omega)
    omega
  · exact ahead_eq_zero.mp (by omega)
  · have := slot_shared_ahead hs (by omega) (by omega)
    omega

/-- The window and its entries after a newer packet. -/
theorem Windowed.forward (h : Windowed t) (hi : t.initialized = true) {input : UInt16} {skip : Bool}
    {t' : SequenceNumberTranslator} (hf : Forwarded t input skip t')
    (hd : ahead t.lastInputSequenceNumber input ≤ 4095) {i : UInt16} (hw : t'.InWindow i)
    (hk : t'.Kept i) :
    (ahead i input < ahead t.lastInputSequenceNumber input ∧
        t'.internalGet i = t.newEntry input skip
          (ahead t.lastInputSequenceNumber input - ahead i input)) ∨
      (ahead t.lastInputSequenceNumber input ≤ ahead i input ∧ t.InWindow i ∧ t.Kept i ∧
        t'.internalGet i = t.internalGet i) := by
  rw [InWindow, hf.first, hf.last, nextFirst_ahead t h.span hd] at hw
  rw [Kept, hf.last] at hk
  have hb := ahead_base t.lastInputSequenceNumber i input
  have hlt := ahead_lt t.lastInputSequenceNumber i
  have hb' := ahead_base t.lastInputSequenceNumber i t.lastInputSequenceNumber
  rw [ahead_self] at hb'
  rw [internalGet, internalGet, hf.inOut, forward_slot skip (by omega) hk hd, InWindow, Kept]
  split_ifs with hx
  · exact .inl ⟨hx, rfl⟩
  · refine .inr ⟨by omega, ⟨hi, by omega⟩, hk.imp_right (by omega), rfl⟩

theorem newEntry_input {input i : UInt16} {skip : Bool}
    (h : ahead i input < ahead t.lastInputSequenceNumber input) :
    (t.newEntry input skip (ahead t.lastInputSequenceNumber input - ahead i input)).input = i := by
  have hb := ahead_base t.lastInputSequenceNumber i input
  have hlt := ahead_lt t.lastInputSequenceNumber i
  refine eq_of_ahead_eq (c := t.lastInputSequenceNumber) ?_
  rw [newEntry, ahead_add_ofNat]
  omega

theorem Windowed.empty : Windowed {} where
  span := by simp
  owner i hi := by simp [InWindow] at hi

/-- Late packets keep the inputs of all slots. -/
theorem lateEntry_input (t : SequenceNumberTranslator) (input : UInt16) (skip : Bool) :
    (t.lateEntry input skip).input = (t.internalGet input).input := by
  rw [lateEntry]
  split_ifs <;> rfl

/-- A late packet that is not skipped leaves its entry as it is. -/
@[simp] theorem lateEntry_false (t : SequenceNumberTranslator) (input : UInt16) :
    t.lateEntry input false = t.internalGet input := by
  rw [lateEntry]
  rcases t.internalGet input with ⟨i, o, type⟩
  cases type <;> rfl

theorem Windowed.get (h : Windowed t) (input : UInt16) (skip : Bool) :
    Windowed (t.get input skip).1 := by
  rcases get_cases t input skip with ⟨hi, hg⟩ | ⟨hi, ⟨-, -, hg⟩ | ⟨-, ⟨h1, h2, hg⟩ | ⟨-, hg⟩⟩⟩ <;> rw [hg]
  · rw [getFirst_eq t hi]
    cases skip with
    | true => exact ⟨h.span, fun i hw => by simp [InWindow] at hw⟩
    | false =>
      refine ⟨by simp, fun i hw _ => ?_⟩
      have : i = input := ahead_eq_zero.mp (by simpa [InWindow] using hw)
      simp [internalGet, this]
  · exact h
  · have hf := (getForward_spec t hi skip (sequenceNumberLessThan_iff.mpr ⟨h1, h2⟩)).1
    refine ⟨?_, fun i hw hk => ?_⟩
    · rw [hf.first, hf.last, nextFirst_ahead t h.span h2]
      omega
    · rcases h.forward hi hf h2 hw hk with ⟨hx, he⟩ | ⟨-, hw, hk, he⟩
      · rw [he, newEntry_input hx]
      · rw [he, h.owner i hw hk]
  · rw [getLate_eq t hi]
    refine ⟨h.span, fun i hw hk => ?_⟩
    have ho := h.owner i hw hk
    by_cases hs : slot i = slot input
    · have : t.internalGet input = t.internalGet i := by rw [internalGet, internalGet, hs]
      simp only [internalGet] at *
      rw [hs, Function.update_self, lateEntry_input]
      simp only [internalGet]
      rw [← hs, ho]
    · simp only [internalGet] at *
      rw [Function.update_of_ne hs, ho]

/-- Every state is windowed, whatever the calls were. -/
theorem Windowed.call (h : Windowed t) (c : Call) : Windowed (t.call c).1 := by
  cases c with
  | get input skip => exact h.get input skip
  | generate => exact ⟨h.span, h.owner⟩
  | reset =>
    show Windowed t.reset
    rw [reset]
    split_ifs with hi
    · exact h
    · exact ⟨by simp, fun i hw => by simp [InWindow] at hw⟩

theorem Windowed.final (h : Windowed t) (calls : List Call) :
    Windowed (Runs.final SequenceNumberTranslator.call t calls) := by
  induction calls generalizing t with
  | nil => exact h
  | cons c calls ih => exact ih (h.call c)

/-! ### Packets sent again -/

/-- The packet is looked up in its slot. -/
def Late (t : SequenceNumberTranslator) (i : UInt16) : Prop :=
  t.initialized = true ∧ sequenceNumberLessThan i t.firstInputSequenceNumber = false ∧
    sequenceNumberLessThan t.lastInputSequenceNumber i = false

/-- A late packet belongs to the window and its slot has not been taken. -/
def LateKept (t : SequenceNumberTranslator) : Call → Prop
  | .get input _ => t.Late input → t.InWindow input ∧ t.Kept input
  | _ => True

/-- The call leaves the number `i` among the 500 newest inputs and does not discard it. -/
def Retains (i : UInt16) (t : SequenceNumberTranslator) (c : Call) : Prop :=
  c ≠ .reset ∧ c ≠ .get i true ∧ ahead i (t.call c).1.lastInputSequenceNumber < 500

instance (t : SequenceNumberTranslator) (i : UInt16) : Decidable (t.Late i) :=
  inferInstanceAs (Decidable (_ ∧ _))

instance (t : SequenceNumberTranslator) (c : Call) : Decidable (t.LateKept c) :=
  match c with
  | .get input _ => inferInstanceAs (Decidable (t.Late input → _))
  | .generate => isTrue trivial
  | .reset => isTrue trivial

instance (i : UInt16) (t : SequenceNumberTranslator) (c : Call) : Decidable (Retains i t c) :=
  inferInstanceAs (Decidable (_ ∧ _))

theorem get_late {input : UInt16} (h : t.Late input) (skip : Bool) :
    t.get input skip = t.getLate input skip := by
  obtain ⟨hi, hf, hl⟩ := h
  simp [SequenceNumberTranslator.get, hi, hf, hl]

/-- The numbers of the window are looked up. -/
theorem Windowed.late (h : Windowed t) {i : UInt16} (hw : t.InWindow i) : t.Late i := by
  have hx := hw.2
  have hs := h.span
  have h1 := ahead_base i t.firstInputSequenceNumber t.lastInputSequenceNumber
  have h2 := ahead_base i t.lastInputSequenceNumber i
  have h3 := ahead_lt i t.firstInputSequenceNumber
  rw [ahead_self] at h2
  exact ⟨hw.1, sequenceNumberLessThan_false_iff.mpr (by omega),
    sequenceNumberLessThan_false_iff.mpr (by omega)⟩

/-- A result handed out for a packet carries the input asked for. -/
theorem Windowed.get_valid (h : Windowed t) {input : UInt16} {skip : Bool}
    (hc : t.LateKept (.get input skip)) (hv : (t.get input skip).2.type = .valid) :
    (t.get input skip).2.input = input ∧ (t.get input skip).1.InWindow input ∧
      (t.get input skip).1.internalGet input = (t.get input skip).2 := by
  rcases get_cases t input skip with ⟨hi, hg⟩ | ⟨hi, ⟨-, -, hg⟩ | ⟨hf, ⟨h1, h2, hg⟩ | ⟨hl, hg⟩⟩⟩ <;>
    rw [hg] at hv ⊢
  · rw [getFirst_eq t hi] at hv ⊢
    cases skip with
    | true => simp [entryType] at hv
    | false => simp [InWindow, internalGet]
  · simp at hv
  · obtain ⟨hs, hr⟩ := getForward_spec t hi skip (sequenceNumberLessThan_iff.mpr ⟨h1, h2⟩)
    have hw : (t.getForward input skip).1.InWindow input := by simp [InWindow, hs.initialized, hs.last]
    rcases h.forward hi hs h2 hw (.inr (by simp [hs.last])) with ⟨hx, he⟩ | ⟨hx, -⟩
    · refine ⟨by rw [hr], hw, ?_⟩
      rw [he, hr, ahead_self, Nat.sub_zero, newEntry, if_pos rfl, add_ahead]
    · simp at hx
      omega
  · obtain ⟨hw, hk⟩ := hc ⟨hi, sequenceNumberLessThan_false_iff.mpr hf,
      sequenceNumberLessThan_false_iff.mpr hl⟩
    rw [getLate_eq t hi]
    refine ⟨by rw [lateEntry_input, h.owner _ hw hk], hw, ?_⟩
    simp [internalGet]

/-- A call that retains a number of the window keeps its entry, if its slot is not taken. -/
theorem Windowed.retains (h : Windowed t) {i : UInt16} (hw : t.InWindow i) {c : Call}
    (hc : t.LateKept c) (hr : Retains i t c) :
    (t.call c).1.InWindow i ∧ ((t.call c).1.Kept i → t.Kept i) ∧
      ((t.call c).1.Kept i → (t.call c).1.internalGet i = t.internalGet i) := by
  obtain ⟨hne, hni, hx⟩ := hr
  cases c with
  | reset => exact absurd rfl hne
  | generate => exact ⟨hw, id, fun _ => rfl⟩
  | get input skip =>
    have hxw := hw.2.trans h.span
    show (t.get input skip).1.InWindow i ∧ ((t.get input skip).1.Kept i → t.Kept i) ∧
      ((t.get input skip).1.Kept i → (t.get input skip).1.internalGet i = t.internalGet i)
    have hx : ahead i (t.get input skip).1.lastInputSequenceNumber < 500 := hx
    rcases get_cases t input skip with ⟨hi, hg⟩ | ⟨hi, ⟨-, -, hg⟩ | ⟨hf, ⟨h1, h2, hg⟩ | ⟨hl, hg⟩⟩⟩ <;>
      rw [hg] at hx ⊢
    · exact absurd hw.1 (by simp [hi])
    · exact ⟨hw, id, fun _ => rfl⟩
    · have hs := (getForward_spec t hi skip (sequenceNumberLessThan_iff.mpr ⟨h1, h2⟩)).1
      have hb := ahead_base i t.lastInputSequenceNumber input
      rw [hs.last] at hx
      have hlt := ahead_lt i input
      have hw' : (t.getForward input skip).1.InWindow i := by
        have := hw.2
        rw [InWindow, hs.first, hs.last, nextFirst_ahead t h.span h2]
        exact ⟨hs.initialized, by omega⟩
      refine ⟨hw', fun hk => ?_, fun hk => ?_⟩ <;>
        rcases h.forward hi hs h2 hw' hk with ⟨hx', -⟩ | ⟨-, -, hk', he⟩
      · omega
      · exact hk'
      · omega
      · exact he
    · rw [getLate_eq t hi]
      refine ⟨hw, id, fun hk => ?_⟩
      obtain ⟨hwj, hkj⟩ := hc ⟨hi, sequenceNumberLessThan_false_iff.mpr hf,
        sequenceNumberLessThan_false_iff.mpr hl⟩
      show Function.update t.inOutBuffer (slot input) (t.lateEntry input skip) (slot i) = _
      by_cases hij : i = input
      · subst hij
        cases skip with
        | true => exact absurd rfl hni
        | false => rw [Function.update_self, lateEntry_false]
      · rw [Function.update_of_ne fun hs => hij (h.slot_inj hw hwj hk hkj hs), internalGet]

/-- The run rule for a retained number: its entry is found again. -/
theorem Windowed.retains_run (h : Windowed t) {i : UInt16} (hw : t.InWindow i) {calls : List Call}
    (hc : Runs.Steps SequenceNumberTranslator.call LateKept t calls)
    (hr : Runs.Steps SequenceNumberTranslator.call (Retains i) t calls) :
    (Runs.final SequenceNumberTranslator.call t calls).InWindow i ∧
      ((Runs.final SequenceNumberTranslator.call t calls).Kept i → t.Kept i ∧
        (Runs.final SequenceNumberTranslator.call t calls).internalGet i = t.internalGet i) := by
  induction calls generalizing t with
  | nil => exact ⟨hw, fun hk => ⟨hk, rfl⟩⟩
  | cons c calls ih =>
    obtain ⟨hw', hk', he'⟩ := h.retains hw hc.1 hr.1
    obtain ⟨hwf, hf⟩ := ih (h.call c) hw' hc.2 hr.2
    refine ⟨hwf, fun hk => ?_⟩
    obtain ⟨hkc, hec⟩ := hf hk
    exact ⟨hk' hkc, hec.trans (he' hkc)⟩

/-- In a run whose late packets find their slots, valid results carry the input asked for. -/
theorem Windowed.trace_valid (h : Windowed t) {calls : List Call}
    (hc : Runs.Steps SequenceNumberTranslator.call LateKept t calls) :
    ∀ r ∈ Runs.trace SequenceNumberTranslator.call t calls, ∀ s ∈ r.2, s.type = .valid →
      ∃ skip, r.1 = .get s.input skip := by
  induction calls generalizing t with
  | nil => simp
  | cons c calls ih =>
    intro r hr s hs hv
    rcases List.mem_cons.mp hr with rfl | hr
    · cases c with
      | get input skip =>
        have hs : (t.get input skip).2 = s := Option.some.inj hs
        exact ⟨skip, by rw [← hs, (h.get_valid hc.1 (hs ▸ hv)).1]⟩
      | generate =>
        have hs : t.generate.2 = s := Option.some.inj hs
        simp [← hs, generate] at hv
      | reset => simp [SequenceNumberTranslator.call] at hs
    · exact ih (h.call c) hc.2 r hr s hs hv

/-- A number whose slot was taken is not found. -/
theorem Windowed.not_found (h : Windowed t) {i : UInt16} (hw : t.InWindow i) (hk : ¬t.Kept i) :
    (t.internalGet i).input ≠ i := by
  simp only [Kept, not_or, not_lt] at hk
  have hx := ahead_lt i t.lastInputSequenceNumber
  have h64 : ahead i (i + 64) = 64 := ahead_add_ofNat i 64
  have hb := ahead_base i (i + 64) t.lastInputSequenceNumber
  have hlt := i.toNat_lt
  have hj : (i + 64).toNat = i.toNat - 65472 := by
    simp only [UInt16.toNat_add, UInt16.reduceToNat]
    omega
  have hs : slot i = slot (i + 64) := by
    rw [slot_eq_iff, hj]
    omega
  have ho := h.owner (i + 64) ⟨hw.1, by have := hw.2; omega⟩ (.inl (by omega))
  rw [internalGet, hs]
  intro he
  rw [internalGet, he] at ho
  rw [← ho, ahead_self] at h64
  exact absurd h64 (by decide)

/-- A packet that was forwarded and stays among the newest has its number again, exactly as long
as the number 64 later has not taken its slot. -/
theorem get_again_iff (pre post : List Call) (i o : UInt16)
    (hlate : Runs.Steps call LateKept {} (pre ++ .get i false :: post))
    (hget : ((Runs.final call {} pre).get i false).2 = ⟨i, o, .valid⟩)
    (hpost : Runs.Steps call (Retains i) (Runs.final call {} (pre ++ [.get i false])) post) :
    let t := Runs.final call {} (pre ++ .get i false :: post)
    (∀ r ∈ Runs.trace call {} (pre ++ .get i false :: post), ∀ s ∈ r.2, s.type = .valid →
      ∃ skip, r.1 = .get s.input skip) ∧
    (t.getConst i = ⟨i, o, .valid⟩ ∧ (t.get i false).2 = ⟨i, o, .valid⟩ ↔ t.Kept i) := by
  have hw := Windowed.empty.final pre
  obtain ⟨-, hc, hlate'⟩ := Runs.steps_append.mp hlate
  rw [Runs.final_append] at hpost
  have hv : ((Runs.final call {} pre).get i false).2.type = .valid := by rw [hget]
  obtain ⟨-, hwin, he⟩ := hw.get_valid hc hv
  have hw' := hw.call (.get i false)
  obtain ⟨hwf, hf⟩ := hw'.retains_run hwin hlate' hpost
  have hwF := hw'.final post
  intro t
  have ht : t = Runs.final call ((Runs.final call {} pre).call (.get i false)).1 post :=
    Runs.final_append _ _ _ _
  rw [← ht] at hwf hf hwF
  refine ⟨Windowed.empty.trace_valid hlate, fun hv => ?_, fun hk => ?_⟩
  · by_contra hk
    refine hwF.not_found hwf hk ?_
    have := hv.2
    rw [get_late (hwF.late hwf), getLate_eq t hwf.1, lateEntry_false] at this
    exact congrArg (·.input) this
  · have hi : t.internalGet i = ⟨i, o, .valid⟩ := by
      rw [(hf hk).2]
      exact he.trans hget
    constructor
    · rw [internalGet] at hi
      simp [getConst, hi]
    · rw [get_late (hwF.late hwf), getLate_eq t hwf.1, lateEntry_false, hi]

/-- Across the wrap, with a packet lost, one sent late and a generated number in between. -/
theorem get_again_iff_wrap :
    let t := Runs.final call {} [.get 65533 false, .get 65535 false, .get 2 false, .generate,
      .get 0 false]
    t.getConst 65535 = ⟨65535, 65535, .valid⟩ ∧
      (t.get 65535 false).2 = ⟨65535, 65535, .valid⟩ :=
  (get_again_iff [.get 65533 false] [.get 2 false, .generate, .get 0 false] 65535 65535
    (by decide) (by decide) (by decide)).2.mpr (by decide)

/-- The inputs are at most `front` ahead of and at most `back` behind the newest one before. -/
def Near (front back : ℕ) : Option UInt16 → List Call → Prop
  | _, [] => True
  | none, .get input _ :: calls => Near front back (some input) calls
  | some newest, .get input _ :: calls =>
    (ahead newest input ≤ front ∨ ahead input newest ≤ back) ∧
      Near front back (some (if ahead newest input ≤ front then input else newest)) calls
  | newest, .generate :: calls => Near front back newest calls
  | _, .reset :: calls => Near front back none calls

/-- The packet 65535 is lost to the packet 63 later, and gets its number. -/
theorem get_again_fails : ¬∀ (pre post : List Call) (i o : UInt16),
    .reset ∉ pre ++ post → Near 4095 4095 none (pre ++ .get i false :: post) →
    ((Runs.final call {} pre).get i false).2 = ⟨i, o, .valid⟩ →
    Runs.Steps call (Retains i) (Runs.final call {} (pre ++ [.get i false])) post →
    let t := Runs.final call {} (pre ++ .get i false :: post)
    t.getConst i = ⟨i, o, .valid⟩ ∧ (t.get i false).2 = ⟨i, o, .valid⟩ := by
  intro h
  have := h [] [.get 63 false] 65535 65535 (by decide) (by simp [Near, ahead]) (by decide) (by decide)
  exact absurd this.2 (by decide)

end KkLicode.Rtp.SequenceNumberTranslator
