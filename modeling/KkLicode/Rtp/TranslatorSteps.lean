import KkLicode.Base.SlotRing
import KkLicode.Rtp.SequenceNumberTranslator

/-! What each call of the translator does, branch by branch. `fill` writes the
same entries as one loop over the missing numbers, also when it wraps; a newer
packet is placed after them as the last entry of one run of entries. -/

namespace KkLicode.Rtp.SequenceNumberTranslator

open Base.Serial Base.SlotRing

variable (t : SequenceNumberTranslator)

/-! ### Filling -/

/-- Add `k` entries with consecutive inputs from `n` and outputs from `output`. -/
def addRun (t : SequenceNumberTranslator) (n output : UInt16) : ℕ → SequenceNumberTranslator
  | 0 => t
  | k + 1 => (t.addRun n output k).add ⟨n + .ofNat k, output + .ofNat k, .valid⟩

theorem addRun_succ' (n output : UInt16) (k : ℕ) :
    t.addRun n output (k + 1) = (t.add ⟨n, output, .valid⟩).addRun (n + 1) (output + 1) k := by
  induction k with
  | zero => simp [addRun]
  | succ k ih =>
    rw [addRun, ih, addRun]
    congr 2 <;> grind [ofNat_add_one]

theorem addRun_eq (n output : UInt16) (k : ℕ) : t.addRun n output k = { t with
    inOutBuffer := writeRun (fun j => slot (n + .ofNat j))
      (fun j => ⟨n + .ofNat j, output + .ofNat j, .valid⟩) t.inOutBuffer 0 k
    outInBuffer := writeRun (fun j => slot (output + .ofNat j))
      (fun j => ⟨n + .ofNat j, output + .ofNat j, .valid⟩) t.outInBuffer 0 k } := by
  induction k with
  | zero => rfl
  | succ k ih => rw [addRun, ih]; simp [add, writeRun_succ]

theorem ahead_succ {n last : UInt16} (h : 1 ≤ ahead n last) :
    ahead (n + 1) last = ahead n last - 1 := by
  have h1 := ahead_base n (n + 1) last
  have h2 := ahead_lt n last
  rw [ahead_add_one] at h1
  omega

/-- Any fuel from 4095 on gives the same loop. -/
theorem fillLoop_fuel (n last output : UInt16) {fuel : ℕ} (hf : 4095 ≤ fuel) :
    fillLoop fuel t n last output = if ahead n last ≤ 4095 then
      (t.addRun n output (ahead n last), output + .ofNat (ahead n last)) else (t, output) := by
  have key : ∀ (fuel : ℕ) (t : SequenceNumberTranslator) (n output : UInt16),
      ahead n last ≤ fuel → ahead n last ≤ 4095 → fillLoop fuel t n last output =
        (t.addRun n output (ahead n last), output + .ofNat (ahead n last)) := by
    intro fuel
    induction fuel with
    | zero =>
      intro t n output h _
      rw [Nat.le_zero.mp h]
      simp [fillLoop, addRun]
    | succ fuel ih =>
      intro t n output h h'
      rw [fillLoop]
      rcases Nat.eq_zero_or_pos (ahead n last) with h0 | h0
      · simp [h0, sequenceNumberLessThan_false_iff.mpr (Or.inl h0), addRun]
      · obtain ⟨k, hk⟩ : ∃ k, ahead n last = k + 1 := ⟨ahead n last - 1, by omega⟩
        have hs := ahead_succ h0
        rw [if_pos (sequenceNumberLessThan_iff.mpr ⟨h0, h'⟩), ih _ _ _ (by omega) (by omega), hs, hk,
          Nat.add_sub_cancel, addRun_succ', ofNat_add_one]
        congr 1
        grind
  split_ifs with h
  · exact key fuel t n output (by omega) h
  · obtain ⟨fuel, rfl⟩ : ∃ m, fuel = m + 1 := ⟨fuel - 1, by omega⟩
    rw [fillLoop, if_neg]
    rw [sequenceNumberLessThan_iff]
    omega

@[simp] theorem addRun_lastOutput (n output : UInt16) (k : ℕ) :
    (t.addRun n output k).lastOutputSequenceNumber = t.lastOutputSequenceNumber := by
  rw [addRun_eq]

@[simp] theorem addRun_offset (n output : UInt16) (k : ℕ) :
    (t.addRun n output k).offset = t.offset := by
  rw [addRun_eq]

theorem fillRange_eq {first last : UInt16} (h : ahead first last ≤ 4095) :
    t.fillRange first last =
      (t.addRun first (t.lastOutputSequenceNumber + t.offset + 1) (ahead first last),
        t.lastOutputSequenceNumber + t.offset + 1 + .ofNat (ahead first last)) := by
  rw [fillRange, fillLoop_fuel t first last _ le_rfl, if_pos h]

/-- A run of entries overwrites a part of itself that was written before. -/
theorem addRun_absorb (n m output : UInt16) {k l : ℕ} (hlk : l ≤ k)
    (hm : ∀ j < l, ∃ i < k, m + .ofNat j = n + .ofNat i) :
    (t.addRun m output l).addRun n output k = t.addRun n output k := by
  rw [addRun_eq, addRun_eq, addRun_eq]
  congr 1 <;> funext s <;> apply writeRun_congr <;> intro h <;> apply writeRun_of_ne <;>
    intro j hj
  · obtain ⟨i, hi, he⟩ := hm j hj
    simpa [he] using h i hi
  · exact h j (by omega)

/-- `fill` adds the missing numbers in order, also across the wrap. -/
theorem fill_eq {first last : UInt16} (h : ahead first last ≤ 4095) :
    t.fill first last =
      (t.addRun first (t.lastOutputSequenceNumber + t.offset + 1) (ahead first last),
        t.lastOutputSequenceNumber + t.offset + 1 + .ofNat (ahead first last)) := by
  rw [fill]
  split_ifs with hlt
  · have hf := first.toNat_lt
    have hl := last.toNat_lt
    have hk : ahead first last = 65536 - first.toNat + last.toNat := by
      have := UInt16.lt_iff_toNat_lt.mp hlt
      simp only [ahead, UInt16.toNat_sub]
      omega
    have h1 : ahead first 65535 = 65535 - first.toNat := by
      simp only [ahead, UInt16.toNat_sub, UInt16.reduceToNat]
      omega
    have h2 : ahead 0 last = last.toNat := by simp [ahead]
    rw [fillRange_eq t (show ahead first 65535 ≤ 4095 by omega),
      fillRange_eq _ (show ahead 0 last ≤ 4095 by omega), fillRange_eq _ h]
    simp only [addRun_lastOutput, addRun_offset]
    rw [addRun_absorb, addRun_absorb]
    · omega
    · exact fun j hj => ⟨j, by omega, rfl⟩
    · omega
    · -- the numbers from 0 on follow those up to 65535
      intro j hj
      refine ⟨65536 - first.toNat + j, by omega, UInt16.toNat_inj.mp ?_⟩
      simp only [UInt16.toNat_add, UInt16.toNat_ofNat', UInt16.reduceToNat]
      omega
  · exact fillRange_eq t h

/-- The single loop `fill` stands for: the numbers from `first` on, up to but not including `last`,
with the outputs behind the last one. -/
def plainFill (t : SequenceNumberTranslator) (first last : UInt16) : SequenceNumberTranslator :=
  (List.range (ahead first last)).foldl
    (fun u k => u.add ⟨first + .ofNat k, t.lastOutputSequenceNumber + t.offset + 1 + .ofNat k, .valid⟩)
    t

theorem foldl_add_eq_addRun (n output : UInt16) (k : ℕ) :
    (List.range k).foldl (fun u j => u.add ⟨n + .ofNat j, output + .ofNat j, .valid⟩) t =
      t.addRun n output k := by
  induction k with
  | zero => rfl
  | succ k ih => rw [List.range_succ, List.foldl_append, ih, List.foldl_cons, List.foldl_nil, addRun]

/-- Every slot of both tables is as the single loop leaves it, whether `fill` wraps or not, and the
returned number is the one behind the last output. -/
theorem fill_eq_plainFill {first last : UInt16} (h : ahead first last ≤ 4095) :
    (t.fill first last).1 = t.plainFill first last ∧
      (∀ s, (t.fill first last).1.inOutBuffer s = (t.plainFill first last).inOutBuffer s ∧
        (t.fill first last).1.outInBuffer s = (t.plainFill first last).outInBuffer s) ∧
      (t.fill first last).2 = t.lastOutputSequenceNumber + t.offset + 1 + (last - first) := by
  have hloop : (t.fill first last).1 = t.plainFill first last := by
    rw [fill_eq t h, plainFill, foldl_add_eq_addRun]
  refine ⟨hloop, fun s => ?_, ?_⟩
  · rw [hloop]
    exact ⟨rfl, rfl⟩
  · rw [fill_eq t h, ahead, UInt16.ofNat_toNat]

/-- Across the wrap: the four numbers from 65534 to 1. -/
theorem fill_eq_plainFill_wrap :
    ahead 65534 2 = 4 ∧ (({ offset := 7 } : SequenceNumberTranslator).fill 65534 2).1 =
      ({ offset := 7 } : SequenceNumberTranslator).plainFill 65534 2 ∧
        (({ offset := 7 } : SequenceNumberTranslator).fill 65534 2).2 = 12 := by
  have h := fill_eq_plainFill { offset := 7 } (show ahead 65534 2 ≤ 4095 by decide)
  exact ⟨by decide, h.1, h.2.2⟩

/-! ### The branches of `get` -/

/-- The number the next packet or the next generated number follows. -/
def frontier (t : SequenceNumberTranslator) : UInt16 := t.lastOutputSequenceNumber + t.offset

/-- The entries written for a newer packet: numbers `1, …, d` after the newest
input, where the packet is the last one. -/
def newEntry (t : SequenceNumberTranslator) (input : UInt16) (skip : Bool) (j : ℕ) :
    SequenceNumber :=
  ⟨t.lastInputSequenceNumber + .ofNat j, t.frontier + .ofNat j,
    if j = ahead t.lastInputSequenceNumber input then entryType skip else .valid⟩

@[simp] theorem getConst_update (t : SequenceNumberTranslator) (s : SequenceNumber) :
    ({ t with inOutBuffer := Function.update t.inOutBuffer (slot s.input) s } :
      SequenceNumberTranslator).getConst s.input = s := by
  simp [getConst]

theorem updateLast_initialized (hi : t.initialized = true) (skip : Bool) (output : UInt16) :
    t.updateLastOutputSequenceNumber skip output = { t with
      lastOutputSequenceNumber :=
        if !skip && sequenceNumberLessThan t.lastOutputSequenceNumber output then output
        else t.lastOutputSequenceNumber } := by
  simp [updateLastOutputSequenceNumber, hi]

/-- A newer packet: its entry closes the run of entries for the missing ones. -/
theorem getForward_eq (hi : t.initialized = true) {input : UInt16} (skip : Bool)
    (hlt : sequenceNumberLessThan t.lastInputSequenceNumber input = true) :
    t.getForward input skip = ({ t with
      inOutBuffer := writeRun (fun j => slot (t.newEntry input skip j).input)
        (t.newEntry input skip) t.inOutBuffer 1 (ahead t.lastInputSequenceNumber input)
      outInBuffer := writeRun (fun j => slot (t.newEntry input skip j).output)
        (t.newEntry input skip) t.outInBuffer 1 (ahead t.lastInputSequenceNumber input)
      firstInputSequenceNumber := t.nextFirst input
      lastInputSequenceNumber := input
      lastOutputSequenceNumber :=
        if !skip && sequenceNumberLessThan t.lastOutputSequenceNumber
          (t.frontier + .ofNat (ahead t.lastInputSequenceNumber input)) then
          t.frontier + .ofNat (ahead t.lastInputSequenceNumber input)
        else t.lastOutputSequenceNumber
      offset := if skip then t.offset else 0 },
      ⟨input, t.frontier + .ofNat (ahead t.lastInputSequenceNumber input), entryType skip⟩) := by
  obtain ⟨hd1, hd2⟩ := sequenceNumberLessThan_iff.mp hlt
  obtain ⟨k, hk⟩ : ∃ k, ahead t.lastInputSequenceNumber input = k + 1 := ⟨_, (Nat.sub_add_cancel hd1).symm⟩
  have hs : ahead (t.lastInputSequenceNumber + 1) input = k := by rw [ahead_succ hd1]; omega
  have hin : input = t.lastInputSequenceNumber + .ofNat (k + 1) := by rw [← hk, add_ahead]
  have hout : t.lastOutputSequenceNumber + t.offset + 1 + .ofNat k = t.frontier + .ofNat (k + 1) := by
    rw [frontier, ofNat_add_one]; grind
  have hinit : (t.addRun (t.lastInputSequenceNumber + 1)
      (t.lastOutputSequenceNumber + t.offset + 1) k).initialized = true := by rw [addRun_eq]; exact hi
  have hbuf : ∀ (key : SequenceNumber → UInt16) (buf : Buffer) (e : ℕ → SequenceNumber),
      (∀ j < k, e j = t.newEntry input skip (1 + j)) →
      writeRun (fun j => slot (key (e j))) e buf 0 k =
        writeRun (fun j => slot (key (t.newEntry input skip j))) (t.newEntry input skip) buf 1 k := by
    intro key buf e he
    apply writeRun_ext
    intro j hj
    simp [he j hj]
  have hnew : ∀ j < k, (⟨t.lastInputSequenceNumber + 1 + .ofNat j,
      t.lastOutputSequenceNumber + t.offset + 1 + .ofNat j, .valid⟩ : SequenceNumber) =
        t.newEntry input skip (1 + j) := by
    intro j hj
    simp only [newEntry, hk, if_neg (show ¬1 + j = k + 1 by omega), frontier, UInt16.ofNat_add]
    congr 1 <;> grind
  have hlast : t.newEntry input skip (1 + k) = ⟨input, t.frontier + .ofNat (k + 1), entryType skip⟩ := by
    rw [newEntry, if_pos (by omega), Nat.add_comm, ← hin]
  rw [getForward, fill_eq t (by omega), hs]
  simp only [hout, updateLast_initialized _ hinit]
  rw [addRun_eq]
  simp only [add, getConst, hk, writeRun_succ, hlast, Function.update_self, if_true,
    hbuf (·.input) _ _ hnew, hbuf (·.output) _ _ hnew]
  cases skip <;> rfl

/-- The state after a newer packet. -/
structure Forwarded (t : SequenceNumberTranslator) (input : UInt16) (skip : Bool)
    (t' : SequenceNumberTranslator) : Prop where
  inOut : t'.inOutBuffer = writeRun (fun j => slot (t.newEntry input skip j).input)
    (t.newEntry input skip) t.inOutBuffer 1 (ahead t.lastInputSequenceNumber input)
  outIn : t'.outInBuffer = writeRun (fun j => slot (t.newEntry input skip j).output)
    (t.newEntry input skip) t.outInBuffer 1 (ahead t.lastInputSequenceNumber input)
  first : t'.firstInputSequenceNumber = t.nextFirst input
  last : t'.lastInputSequenceNumber = input
  lastOutput : t'.lastOutputSequenceNumber =
    if !skip && sequenceNumberLessThan t.lastOutputSequenceNumber
      (t.frontier + .ofNat (ahead t.lastInputSequenceNumber input)) then
      t.frontier + .ofNat (ahead t.lastInputSequenceNumber input)
    else t.lastOutputSequenceNumber
  offset : t'.offset = if skip then t.offset else 0
  initialized : t'.initialized = true
  reset_ : t'.reset_ = t.reset_

theorem getForward_spec (hi : t.initialized = true) {input : UInt16} (skip : Bool)
    (hlt : sequenceNumberLessThan t.lastInputSequenceNumber input = true) :
    Forwarded t input skip (t.getForward input skip).1 ∧ (t.getForward input skip).2 =
      ⟨input, t.frontier + .ofNat (ahead t.lastInputSequenceNumber input), entryType skip⟩ := by
  rw [getForward_eq t hi skip hlt]
  exact ⟨⟨rfl, rfl, rfl, rfl, rfl, rfl, hi, rfl⟩, rfl⟩

/-- The number of a packet that arrives while none has been forwarded. -/
def firstOutput (t : SequenceNumberTranslator) (input : UInt16) : UInt16 :=
  if t.reset_ || t.offset > 0 then t.frontier + 1 else input

/-- A packet that arrives while none has been forwarded. -/
theorem getFirst_eq (hi : t.initialized = false) (input : UInt16) (skip : Bool) :
    t.getFirst input skip = ({ t with
      inOutBuffer := Function.update t.inOutBuffer (slot input)
        ⟨input, t.firstOutput input, entryType skip⟩
      outInBuffer := Function.update t.outInBuffer (slot (t.firstOutput input))
        ⟨input, t.firstOutput input, entryType skip⟩
      firstInputSequenceNumber := if skip then t.firstInputSequenceNumber else input
      lastInputSequenceNumber := if skip then t.lastInputSequenceNumber else input
      lastOutputSequenceNumber :=
        if !skip && (!(t.reset_ || t.offset > 0) ||
          sequenceNumberLessThan t.lastOutputSequenceNumber (t.firstOutput input)) then
          t.firstOutput input
        else t.lastOutputSequenceNumber
      offset := if skip then t.offset else 0
      initialized := !skip
      reset_ := skip && t.reset_ }, ⟨input, t.firstOutput input, entryType skip⟩) := by
  cases skip <;>
    simp [getFirst, add, updateLastOutputSequenceNumber, getConst, firstOutput, frontier, hi,
      Bool.or_comm]

/-- What a late packet finds in its slot: a valid entry becomes a discarded one when the packet
is skipped, other entries stay as they are. -/
def lateEntry (t : SequenceNumberTranslator) (input : UInt16) (skip : Bool) : SequenceNumber :=
  if (t.internalGet input).type = .valid then
    { t.internalGet input with type := if skip then .discard else .valid }
  else t.internalGet input

/-- A packet that is late or sent again. -/
theorem getLate_eq (hi : t.initialized = true) (input : UInt16) (skip : Bool) :
    t.getLate input skip = ({ t with
      inOutBuffer := Function.update t.inOutBuffer (slot input) (t.lateEntry input skip)
      outInBuffer := if (t.internalGet input).type = .valid then
          Function.update t.outInBuffer (slot (t.internalGet input).output)
            { t.internalReverse (t.internalGet input).output with
              type := (t.lateEntry input skip).type }
        else t.outInBuffer
      lastOutputSequenceNumber :=
        if !skip && sequenceNumberLessThan t.lastOutputSequenceNumber (t.lateEntry input skip).output
        then (t.lateEntry input skip).output
        else t.lastOutputSequenceNumber }, t.lateEntry input skip) := by
  by_cases h : (t.internalGet input).type = .valid
  · simp [getLate, lateEntry, h, updateLast_initialized, hi]
  · have hu : Function.update t.inOutBuffer (slot input) (t.internalGet input) = t.inOutBuffer :=
      Function.update_eq_self _ _
    simp [getLate, lateEntry, h, updateLast_initialized, hi, hu]

/-- The branches of `get`, with their guards as distances. -/
theorem get_cases (input : UInt16) (skip : Bool) :
    (t.initialized = false ∧ t.get input skip = t.getFirst input skip) ∨
    t.initialized = true ∧
      ((1 ≤ ahead input t.firstInputSequenceNumber ∧ ahead input t.firstInputSequenceNumber ≤ 4095 ∧
          t.get input skip = (t, ⟨input, 0, .skip⟩)) ∨
        (ahead input t.firstInputSequenceNumber = 0 ∨
          4096 ≤ ahead input t.firstInputSequenceNumber) ∧
        ((1 ≤ ahead t.lastInputSequenceNumber input ∧ ahead t.lastInputSequenceNumber input ≤ 4095 ∧
            t.get input skip = t.getForward input skip) ∨
          (ahead t.lastInputSequenceNumber input = 0 ∨
            4096 ≤ ahead t.lastInputSequenceNumber input) ∧
          t.get input skip = t.getLate input skip)) := by
  unfold get
  cases hi : t.initialized with
  | false => simp
  | true =>
    cases hf : sequenceNumberLessThan input t.firstInputSequenceNumber with
    | true =>
      obtain ⟨h1, h2⟩ := sequenceNumberLessThan_iff.mp hf
      simp [h1, h2]
    | false =>
      have hf' := sequenceNumberLessThan_false_iff.mp hf
      cases hl : sequenceNumberLessThan t.lastInputSequenceNumber input with
      | true =>
        obtain ⟨h1, h2⟩ := sequenceNumberLessThan_iff.mp hl
        simp [hf', h1, h2]
      | false =>
        have hl' := sequenceNumberLessThan_false_iff.mp hl
        simp [hf', hl']

/-! ### The window of inputs -/

/-- The window ends with the newest input and covers at most 500 steps behind it. -/
theorem nextFirst_ahead {input : UInt16}
    (h : ahead t.firstInputSequenceNumber t.lastInputSequenceNumber ≤ 500)
    (hd : ahead t.lastInputSequenceNumber input ≤ 4095) :
    ahead (t.nextFirst input) input =
      min 500 (ahead t.firstInputSequenceNumber t.lastInputSequenceNumber +
        ahead t.lastInputSequenceNumber input) := by
  have h1 := ahead_base t.firstInputSequenceNumber t.lastInputSequenceNumber input
  have h2 : ahead (input - kMaxDistance) input = 500 := ahead_sub_ofNat input 500
  have h3 := ahead_base t.firstInputSequenceNumber (input - kMaxDistance) input
  have h4 := ahead_lt t.firstInputSequenceNumber input
  have h5 := ahead_lt t.firstInputSequenceNumber (input - kMaxDistance)
  rw [nextFirst]
  split_ifs with hs
  · have := (sequenceNumberLessThan_iff.mp hs)
    omega
  · rw [sequenceNumberLessThan_iff] at hs
    omega

end KkLicode.Rtp.SequenceNumberTranslator
