import KkLicode.Rtp.RtcpPacket
import KkLicode.Rtp.SequenceNumberTranslator

/-! `RtpPaddingRemovalHandler`. Incoming packets lose their padding, and those
that are nothing but padding are dropped; the others are renumbered, one
translator for each source. Requests for lost packets that go back are translated
to the numbers the sender uses. -/

namespace KkLicode.Rtp

open Base.Serial

structure RtpPaddingRemovalHandler where
  enabled : Bool := true
  translatorMap : UInt32 → Option SequenceNumberTranslator := fun _ => none

/-- `RtpUtils::getPaddingLength`. -/
def getPaddingLength (packet : DataPacket) : ℕ :=
  if packet.header.padding then packet.lastByte.toNat else 0

namespace RtpPaddingRemovalHandler

/-- `read`, with the packet that goes on and its new length. -/
def read (h : RtpPaddingRemovalHandler) (packet : DataPacket) :
    RtpPaddingRemovalHandler × Option (DataPacket × ℤ) :=
  if packet.isVideo && h.enabled then
    let ssrc := packet.header.ssrc
    let seqNumber := packet.header.seqNumber
    let translator := (h.translatorMap ssrc).getD {}
    let store (t : SequenceNumberTranslator) : RtpPaddingRemovalHandler :=
      { h with translatorMap := Function.update h.translatorMap ssrc (some t) }
    let paddingLength := getPaddingLength packet
    if paddingLength + packet.header.headerLength = packet.length then
      (store (translator.get seqNumber true).1, none)
    else
      let packet := { packet with header := { packet.header with padding := false } }
      let r := translator.get seqNumber false
      if r.2.type ≠ .valid then (store r.1, none)
      else (store r.1, some (packet.setSeqNumber r.2.output, (packet.length : ℤ) - paddingLength))
  else (h, some (packet, packet.length))

/-- The number a number was translated from. -/
def image (t : SequenceNumberTranslator) (n : UInt16) : Option UInt16 :=
  let info := t.reverse n
  if info.type = .valid then some info.input else none

/-- The numbers the seventeen numbers from `pid` on were translated from. -/
def seqNums (t : SequenceNumberTranslator) (pid : UInt16) : List UInt16 :=
  (List.range 17).filterMap fun i => image t (pid + .ofNat i)

/-- `1 << distance`, of which sixteen bits are kept. A shift by 32 or more is undefined. -/
def shiftOne (distance : UInt16) : Option UInt16 :=
  if distance < 32 then some ((1 : UInt32) <<< distance.toUInt32).toUInt16 else none

/-- The mask for the numbers behind `pid`. -/
def maskOf (pid : UInt16) (blp : UInt16) : List UInt16 → Option UInt16
  | [] => some blp
  | n :: rest => do
    let bit ← shiftOne (n - pid - 1)
    maskOf pid (blp ||| bit) rest

def translateNack (t : SequenceNumberTranslator) (nack : NackBlock) : Option NackBlock :=
  match seqNums t nack.pid with
  | [] => some nack
  | pid :: rest => (maskOf pid 0 rest).map fun blp => ⟨pid, blp⟩

/-- `write` of a packet with an RTCP header. There is no result where the behaviour is undefined. -/
def write (h : RtpPaddingRemovalHandler) (packet : RtcpPacket) : Option RtcpPacket :=
  if !h.enabled || packet.type ≠ .video || !packet.first.isFeedback then some packet
  else
    match h.translatorMap packet.first.sourceSSRC with
    | none => some packet
    | some t => RtpUtils.forEachRRBlock packet (RtpUtils.forEachNack · (translateNack t))

/-! ### One entry -/

variable {t : SequenceNumberTranslator} {nack : NackBlock} {pid blp n : UInt16}

theorem shiftOne_eq {distance : UInt16} (h : distance.toNat < 32) :
    shiftOne distance = some ((1 : UInt32) <<< distance.toUInt32).toUInt16 :=
  if_pos (UInt16.lt_iff_toNat_lt.mpr h)

theorem shiftOne_lt {distance bit : UInt16} (h : shiftOne distance = some bit) :
    distance.toNat < 32 := by
  unfold shiftOne at h
  split_ifs at h with hd
  exact UInt16.lt_iff_toNat_lt.mp hd

/-- A shift by less than 16 sets one bit, a shift by less than 32 none. -/
theorem shiftOne_testBit {distance bit : UInt16} (h : shiftOne distance = some bit) (k : ℕ) :
    bit.toNat.testBit k = true ↔ distance.toNat = k ∧ k < 16 := by
  have hd := shiftOne_lt h
  rw [shiftOne_eq hd] at h
  have hbit : bit.toNat = 2 ^ distance.toNat % 2 ^ 16 := by
    rw [← Option.some.inj h, UInt32.toNat_toUInt16, UInt32.toNat_shiftLeft, UInt16.toNat_toUInt32,
      Nat.mod_eq_of_lt hd, UInt32.toNat_one, Nat.one_shiftLeft, Nat.mod_mod_of_dvd _ (by decide)]
  rw [hbit, Nat.testBit_mod_two_pow, Nat.testBit_two_pow]
  simp [and_comm]

/-- The bit of a number tells how far it is from the first one. -/
theorem toNat_distance (pid n : UInt16) :
    (n - pid - 1).toNat = (ahead pid n + 65535) % 65536 := by
  have hn := n.toNat_lt
  have hp := pid.toNat_lt
  simp only [ahead, UInt16.toNat_sub, UInt16.reduceToNat]
  omega

/-- The mask is defined if all numbers are near the first one, and then it has their bits. -/
theorem maskOf_spec {l : List UInt16} :
    (∀ n ∈ l, 1 ≤ ahead pid n ∧ ahead pid n ≤ 32) →
      ∃ m, maskOf pid blp l = some m ∧ ∀ k, m.toNat.testBit k = true ↔
        blp.toNat.testBit k = true ∨ ∃ n ∈ l, ahead pid n = k + 1 ∧ k < 16 := by
  induction l generalizing blp with
  | nil => exact fun _ => ⟨blp, rfl, by simp⟩
  | cons n l ih =>
    intro hl
    obtain ⟨h1, h2⟩ := hl n List.mem_cons_self
    have hd : (n - pid - 1).toNat = ahead pid n - 1 := by
      rw [toNat_distance]
      omega
    have hs : shiftOne (n - pid - 1) = some _ := shiftOne_eq (by omega)
    obtain ⟨m, hm, hk⟩ := @ih (blp ||| ((1 : UInt32) <<< (n - pid - 1).toUInt32).toUInt16)
      fun n hn => hl n (List.mem_cons_of_mem _ hn)
    refine ⟨m, ?_, fun k => ?_⟩
    · rw [maskOf, hs]
      exact hm
    · rw [hk, UInt16.toNat_or, Nat.testBit_or, Bool.or_eq_true, shiftOne_testBit hs, hd]
      simp only [List.mem_cons, exists_eq_or_imp, or_assoc]
      have : ahead pid n - 1 = k ↔ ahead pid n = k + 1 := by omega
      rw [this]

/-- The mask is not defined otherwise. -/
theorem maskOf_near {l : List UInt16} {m : UInt16} (h : maskOf pid blp l = some m) :
    ∀ n ∈ l, 1 ≤ ahead pid n ∧ ahead pid n ≤ 32 := by
  induction l generalizing blp with
  | nil => simp
  | cons n l ih =>
    rw [maskOf] at h
    obtain ⟨bit, hb, h⟩ := Option.bind_eq_some_iff.mp h
    have hd := shiftOne_lt hb
    rw [toNat_distance] at hd
    have := ahead_lt pid n
    refine List.forall_mem_cons.mpr ⟨?_, ih h⟩
    omega

/-! The seventeen numbers from `pid` on, by their offsets. -/

/-- `n` is the image of the number at an offset of at most sixteen. -/
def ImageAt (t : SequenceNumberTranslator) (pid : UInt16) (i : ℕ) (n : UInt16) : Prop :=
  i ≤ 16 ∧ image t (pid + .ofNat i) = some n

/-- `first` is the image of the first of the numbers that has one. -/
def FirstImage (t : SequenceNumberTranslator) (pid : UInt16) (i : ℕ) (first : UInt16) : Prop :=
  ImageAt t pid i first ∧ ∀ j < i, image t (pid + .ofNat j) = none

/-- The images behind the first one are so near it that the shifts are defined. -/
def Shifts (t : SequenceNumberTranslator) (nack : NackBlock) : Prop :=
  ∀ i first, FirstImage t nack.pid i first → ∀ j n, i < j → ImageAt t nack.pid j n →
    1 ≤ ahead first n ∧ ahead first n ≤ 32

/-- An image of one of the seventeen numbers, at most sixteen behind the first image. -/
def Near (t : SequenceNumberTranslator) (nack : NackBlock) (n : UInt16) : Prop :=
  ∃ i first j, FirstImage t nack.pid i first ∧ ImageAt t nack.pid j n ∧ ahead first n ≤ 16

/-- An entry whose seventeen numbers have no image stays as it is. -/
def Kept (t : SequenceNumberTranslator) (nack : NackBlock) (n : UInt16) : Prop :=
  (∀ i ≤ 16, image t (nack.pid + .ofNat i) = none) ∧ n ∈ nack.numbers

theorem seqNums_eq_nil : seqNums t pid = [] ↔ ∀ i ≤ 16, image t (pid + .ofNat i) = none := by
  rw [seqNums, List.filterMap_eq_nil_iff]
  simp only [List.mem_range, Nat.lt_succ_iff]

theorem mem_seqNums : n ∈ seqNums t pid ↔ ∃ i, ImageAt t pid i n := by
  simp only [seqNums, List.mem_filterMap, List.mem_range, ImageAt, Nat.lt_succ_iff]

/-- The first of the images, and the ones behind it. -/
theorem exists_of_seqNums {first : UInt16} {rest : List UInt16} (h : seqNums t pid = first :: rest) :
    ∃ i, FirstImage t pid i first ∧ ∀ n, n ∈ rest ↔ ∃ j, i < j ∧ ImageAt t pid j n := by
  rw [seqNums, List.range_eq_range', List.filterMap_eq_cons_iff] at h
  obtain ⟨before, i, behind, heq, hnone, hfirst, hrest⟩ := h
  obtain ⟨k, hk, rfl, hcons⟩ := List.range'_eq_append_iff.mp heq
  obtain ⟨hi, hlt, rfl⟩ := List.range'_eq_cons_iff.mp hcons.symm
  obtain rfl : k = i := by omega
  refine ⟨k, ⟨⟨by omega, hfirst⟩, fun j hj => hnone j (by simp; omega)⟩, fun n => ?_⟩
  simp only [← hrest, List.mem_filterMap, List.mem_range'_1, ImageAt]
  constructor
  · rintro ⟨j, hj, hn⟩
    exact ⟨j, by omega, by omega, hn⟩
  · rintro ⟨j, hj, hle, hn⟩
    exact ⟨j, by omega, hn⟩

/-- There is one first image. -/
theorem FirstImage.unique {i j : ℕ} {first first' : UInt16} (h : FirstImage t pid i first)
    (h' : FirstImage t pid j first') : i = j ∧ first = first' := by
  obtain rfl : i = j := by
    rcases Nat.lt_trichotomy i j with hlt | heq | hlt
    · exact absurd (h'.2 i hlt) (by simp [h.1.2])
    · exact heq
    · exact absurd (h.2 j hlt) (by simp [h'.1.2])
  exact ⟨rfl, Option.some.inj (h.1.2.symm.trans h'.1.2)⟩

theorem FirstImage.seqNums {i : ℕ} {first : UInt16} (h : FirstImage t pid i first) :
    ∃ rest, seqNums t pid = first :: rest ∧ ∀ n, n ∈ rest ↔ ∃ j, i < j ∧ ImageAt t pid j n := by
  cases hs : RtpPaddingRemovalHandler.seqNums t pid with
  | nil => exact absurd (seqNums_eq_nil.mp hs i h.1.1) (by simp [h.1.2])
  | cons first' rest =>
    obtain ⟨j, hfirst, hrest⟩ := exists_of_seqNums hs
    obtain ⟨rfl, rfl⟩ := h.unique hfirst
    exact ⟨rest, rfl, hrest⟩

theorem shifts_iff : Shifts t nack ↔ ∀ first rest, seqNums t nack.pid = first :: rest →
    ∀ n ∈ rest, 1 ≤ ahead first n ∧ ahead first n ≤ 32 := by
  constructor
  · intro h first rest hs n hn
    obtain ⟨i, hfirst, hrest⟩ := exists_of_seqNums hs
    obtain ⟨j, hj, hat⟩ := (hrest n).mp hn
    exact h i first hfirst j n hj hat
  · intro h i first hfirst j n hj hat
    obtain ⟨rest, hs, hrest⟩ := hfirst.seqNums
    exact h first rest hs n ((hrest n).mpr ⟨j, hj, hat⟩)

theorem near_iff : Near t nack n ↔ ∃ first rest, seqNums t nack.pid = first :: rest ∧
    n ∈ first :: rest ∧ ahead first n ≤ 16 := by
  constructor
  · rintro ⟨i, first, j, hfirst, hat, hle⟩
    obtain ⟨rest, hs, -⟩ := hfirst.seqNums
    exact ⟨first, rest, hs, hs ▸ mem_seqNums.mpr ⟨j, hat⟩, hle⟩
  · rintro ⟨first, rest, hs, hn, hle⟩
    obtain ⟨i, hfirst, -⟩ := exists_of_seqNums hs
    obtain ⟨j, hat⟩ := mem_seqNums.mp (hs ▸ hn)
    exact ⟨i, first, j, hfirst, hat, hle⟩

theorem kept_iff : Kept t nack n ↔ seqNums t nack.pid = [] ∧ n ∈ nack.numbers := by
  rw [Kept, seqNums_eq_nil]

theorem mem_numbers_maskOf {rest : List UInt16} (h : ∀ n ∈ rest, 1 ≤ ahead pid n ∧ ahead pid n ≤ 32) :
    ∃ blp, maskOf pid 0 rest = some blp ∧
      ∀ n, n ∈ (⟨pid, blp⟩ : NackBlock).numbers ↔ n ∈ pid :: rest ∧ ahead pid n ≤ 16 := by
  obtain ⟨blp, hm, hk⟩ := @maskOf_spec _ 0 _ h
  refine ⟨blp, hm, fun n => ?_⟩
  rw [NackBlock.mem_numbers]
  constructor
  · rintro (rfl | ⟨hle, k, ha, hb⟩)
    · exact ⟨List.mem_cons_self, by simp⟩
    · rcases (hk k).mp hb with h0 | ⟨m, hm, ham, -⟩
      · simp at h0
      · -- two numbers as far from the first one are the same
        have hmn : m = n := eq_of_ahead_eq (ham.trans ha.symm)
        exact ⟨List.mem_cons_of_mem _ (hmn ▸ hm), hle⟩
  · rintro ⟨hn, hle⟩
    rcases List.mem_cons.mp hn with rfl | hn
    · exact .inl rfl
    · have h1 := (h n hn).1
      have h2 : ahead pid n = ahead pid n - 1 + 1 := by omega
      exact .inr ⟨hle, ahead pid n - 1, h2, (hk _).mpr (.inr ⟨n, hn, h2, by omega⟩)⟩

/-- What a translated entry asks for. -/
theorem translateNack_spec (h : Shifts t nack) :
    ∃ nack', translateNack t nack = some nack' ∧
      ∀ n, n ∈ nack'.numbers ↔ Near t nack n ∨ Kept t nack n := by
  simp only [near_iff, kept_iff]
  rw [shifts_iff] at h
  unfold translateNack
  cases hs : seqNums t nack.pid with
  | nil => exact ⟨nack, rfl, by simp⟩
  | cons pid rest =>
    obtain ⟨blp, hm, hn⟩ := mem_numbers_maskOf (h pid rest hs)
    exact ⟨⟨pid, blp⟩, by simp [hm], fun n => by simp [hn]⟩

theorem translateNack_shifts {nack' : NackBlock} (h : translateNack t nack = some nack') :
    Shifts t nack := by
  refine shifts_iff.mpr fun pid rest hs => ?_
  simp only [translateNack, hs] at h
  obtain ⟨blp, hm, -⟩ := Option.map_eq_some_iff.mp h
  exact maskOf_near hm

/-! ### Packets -/

/-- The packet asks for `n`, by the number the sender uses. -/
def Asked (t : SequenceNumberTranslator) (requested : List UInt16) (n : UInt16) : Prop :=
  ∃ r ∈ requested, image t r = some n

/-- An entry that is translated without adding or losing a number. What it would add another entry
may ask for, and what it would lose another entry may keep. -/
structure Clean (t : SequenceNumberTranslator) (nacks : List NackBlock) (nack : NackBlock) : Prop where
  shifts : Shifts t nack
  near : ∀ n, Near t nack n → Asked t (nacks.flatMap (·.numbers)) n
  found : ∀ n, Kept t nack n → Asked t (nacks.flatMap (·.numbers)) n
  asked : ∀ n, Asked t nack.numbers n → ∃ nack' ∈ nacks, Near t nack' n ∨ Kept t nack' n

theorem mapM_translateNack {nacks : List NackBlock} (h : ∀ nack ∈ nacks, Shifts t nack) :
    ∃ nacks', nacks.mapM (translateNack t) = some nacks' ∧
      ∀ n, n ∈ nacks'.flatMap (·.numbers) ↔ ∃ nack ∈ nacks, Near t nack n ∨ Kept t nack n := by
  induction nacks with
  | nil => exact ⟨[], rfl, by simp⟩
  | cons nack nacks ih =>
    obtain ⟨nack', h1, h2⟩ := translateNack_spec (h nack List.mem_cons_self)
    obtain ⟨nacks', h3, h4⟩ := ih fun nack hn => h nack (List.mem_cons_of_mem _ hn)
    refine ⟨nack' :: nacks', by simp [h1, h3], fun n => ?_⟩
    rw [List.flatMap_cons, List.mem_append, h2, h4]
    simp

theorem shifts_of_mapM {nacks nacks' : List NackBlock} (h : nacks.mapM (translateNack t) = some nacks') :
    ∀ nack ∈ nacks, Shifts t nack := by
  induction nacks generalizing nacks' with
  | nil => simp
  | cons nack nacks ih =>
    rw [List.mapM_cons] at h
    obtain ⟨nack', h1, h⟩ := Option.bind_eq_some_iff.mp h
    obtain ⟨rest, h2, -⟩ := Option.bind_eq_some_iff.mp h
    exact List.forall_mem_cons.mpr ⟨translateNack_shifts h1, ih h2⟩

/-- The result asks exactly for the images of the numbers the packet asks for. -/
def Translated (t : SequenceNumberTranslator) (packet : RtcpPacket) (result : Option RtcpPacket) : Prop :=
  ∃ out, result = some out ∧ ∀ n, n ∈ out.requested ↔ Asked t packet.requested n

theorem write_nacks {h : RtpPaddingRemovalHandler} {packet : RtcpPacket} (he : h.enabled = true)
    (hv : packet.type = .video) (hf : packet.first.isFeedback = true)
    (ht : h.translatorMap packet.first.sourceSSRC = some t) :
    (h.write packet).map RtcpPacket.nacks = packet.nacks.mapM (translateNack t) := by
  have hw : h.write packet =
      RtpUtils.forEachRRBlock packet (RtpUtils.forEachNack · (translateNack t)) := by
    simp [write, he, hv, hf, ht]
  rw [hw, forEachRRBlock_nacks hf]

/-- The requests of a packet are translated exactly if each of its entries is clean. -/
theorem write_translated_iff (h : RtpPaddingRemovalHandler) (packet : RtcpPacket)
    (t : SequenceNumberTranslator) (he : h.enabled = true) (hv : packet.type = .video)
    (hf : packet.first.isFeedback = true)
    (ht : h.translatorMap packet.first.sourceSSRC = some t) :
    Translated t packet (h.write packet) ↔
      ∀ nack ∈ packet.nacks, Clean t packet.nacks nack := by
  have hw := write_nacks he hv hf ht
  constructor
  · rintro ⟨out, ho, hn⟩
    rw [ho] at hw
    have hs := shifts_of_mapM hw.symm
    obtain ⟨nacks', h1, h2⟩ := mapM_translateNack hs
    have hout : nacks' = out.nacks := Option.some.inj (h1.symm.trans hw.symm)
    have hall : ∀ n, (∃ nack ∈ packet.nacks, Near t nack n ∨ Kept t nack n) ↔
        Asked t packet.requested n := fun n => by rw [← h2, hout]; exact hn n
    refine fun nack hm => ⟨hs nack hm, fun n h => ?_, fun n h => ?_, ?_⟩
    · exact (hall n).mp ⟨nack, hm, .inl h⟩
    · exact (hall n).mp ⟨nack, hm, .inr h⟩
    · rintro n ⟨r, hr, hi⟩
      exact (hall n).mpr ⟨r, List.mem_flatMap.mpr ⟨nack, hm, hr⟩, hi⟩
  · intro hc
    obtain ⟨nacks', h1, h2⟩ := mapM_translateNack fun nack hm => (hc nack hm).shifts
    rw [h1] at hw
    obtain ⟨out, ho, hout⟩ := Option.map_eq_some_iff.mp hw
    refine ⟨out, ho, fun n => ?_⟩
    rw [RtcpPacket.requested, hout, h2]
    constructor
    · rintro ⟨nack, hm, h | h⟩
      · exact (hc nack hm).near n h
      · exact (hc nack hm).found n h
    · rintro ⟨r, hr, hi⟩
      obtain ⟨nack, hm, hr⟩ := List.mem_flatMap.mp hr
      exact (hc nack hm).asked n ⟨r, hr, hi⟩

/-! An entry that needs no other: one of the seventeen numbers has an image, and those of the images
that are at most sixteen behind the first are the ones the entry asks for. -/

def CleanAlone (t : SequenceNumberTranslator) (nack : NackBlock) : Prop :=
  ∃ pid rest, seqNums t nack.pid = pid :: rest ∧
    (∀ n ∈ rest, 1 ≤ ahead pid n ∧ ahead pid n ≤ 32) ∧
    ∀ n ∈ pid :: rest, ahead pid n ≤ 16 ↔ Asked t nack.numbers n

theorem Asked.mem_seqNums (h : Asked t nack.numbers n) : n ∈ seqNums t nack.pid := by
  obtain ⟨r, hr, hi⟩ := h
  refine RtpPaddingRemovalHandler.mem_seqNums.mpr ⟨ahead nack.pid r, NackBlock.ahead_of_mem hr, ?_⟩
  rw [add_ahead, hi]

theorem Asked.flatMap {nacks : List NackBlock} (hm : nack ∈ nacks) (h : Asked t nack.numbers n) :
    Asked t (nacks.flatMap (·.numbers)) n := by
  obtain ⟨r, hr, hi⟩ := h
  exact ⟨r, List.mem_flatMap.mpr ⟨nack, hm, hr⟩, hi⟩

theorem CleanAlone.clean {nacks : List NackBlock} (hm : nack ∈ nacks) (h : CleanAlone t nack) :
    Clean t nacks nack := by
  obtain ⟨pid, rest, hs, hnear, hask⟩ := h
  refine ⟨shifts_iff.mpr fun pid' rest' hs' => ?_, fun n hn => ?_, fun n hn => ?_, fun n hn => ?_⟩
  · obtain ⟨rfl, rfl⟩ := List.cons.inj (hs.symm.trans hs')
    exact hnear
  · obtain ⟨pid', rest', hs', hn, hle⟩ := near_iff.mp hn
    obtain ⟨rfl, rfl⟩ := List.cons.inj (hs.symm.trans hs')
    exact ((hask n hn).mp hle).flatMap hm
  · rw [kept_iff, hs] at hn
    cases hn.1
  · have hn' : n ∈ pid :: rest := hs ▸ hn.mem_seqNums
    exact ⟨nack, hm, .inl (near_iff.mpr ⟨pid, rest, hs, hn', (hask n hn').mpr hn⟩)⟩

/-- When there is one entry nothing can make up for it. -/
theorem clean_single_iff : Clean t [nack] nack ↔ CleanAlone t nack := by
  refine ⟨fun h => ?_, fun h => h.clean List.mem_cons_self⟩
  have hall : ∀ n, Asked t ([nack].flatMap (·.numbers)) n ↔ Asked t nack.numbers n := by simp
  cases hs : seqNums t nack.pid with
  | nil =>
    have := (hall _).mp (h.found nack.pid (kept_iff.mpr ⟨hs, List.mem_cons_self⟩))
    have := this.mem_seqNums
    simp [hs] at this
  | cons pid rest =>
    refine ⟨pid, rest, hs, shifts_iff.mp h.shifts pid rest hs,
      fun n hn => ⟨fun hle => ?_, fun hn => ?_⟩⟩
    · exact (hall n).mp (h.near n (near_iff.mpr ⟨pid, rest, hs, hn, hle⟩))
    · obtain ⟨nack', hm, hnear | hkept⟩ := h.asked n hn
      · obtain ⟨pid', rest', hs', -, hle⟩ := near_iff.mp hnear
        rw [List.mem_singleton.mp hm] at hs'
        obtain ⟨rfl, -⟩ := List.cons.inj (hs.symm.trans hs')
        exact hle
      · rw [List.mem_singleton.mp hm, kept_iff, hs] at hkept
        cases hkept.1

instance (t : SequenceNumberTranslator) (requested : List UInt16) (n : UInt16) :
    Decidable (Asked t requested n) :=
  inferInstanceAs (Decidable (∃ r ∈ requested, image t r = some n))

/-- The handler after it read the packets. -/
def reads (arrivals : List DataPacket) : RtpPaddingRemovalHandler :=
  arrivals.foldl (fun h packet => (h.read packet).1) {}

/-- The handler after three packets across the wrap, of which the second is padding only. -/
def sample : RtpPaddingRemovalHandler :=
  reads [{ header := { seqNumber := 65534 }, payload := [7] },
    { header := { seqNumber := 65535, padding := true }, payload := [0, 2] },
    { header := { seqNumber := 0 }, payload := [7] }]

def sampleTranslator : SequenceNumberTranslator := (sample.translatorMap 0).getD {}

theorem sample_translatorMap : sample.translatorMap 0 = some sampleTranslator := by
  have h : (sample.translatorMap 0).isSome = true := by decide
  rw [sampleTranslator]
  obtain ⟨t, ht⟩ := Option.isSome_iff_exists.mp h
  rw [ht, Option.getD_some]

/-- The packet that was renumbered is asked for by its own number. -/
theorem write_translated_sample :
    Translated sampleTranslator { first := { nacks := [⟨65534, 1⟩] } }
      (sample.write { first := { nacks := [⟨65534, 1⟩] } }) := by
  have hnumbers : (⟨65534, 1⟩ : NackBlock).numbers = [65534, 65535] := by decide
  have h₁ : image sampleTranslator 65534 = some 65534 := by decide
  have h₂ : image sampleTranslator 65535 = some 0 := by decide
  have hc : CleanAlone sampleTranslator ⟨65534, 1⟩ :=
    ⟨65534, [0, 0], by decide, by simp [ahead, UInt16.size],
      by simp [ahead, UInt16.size, Asked, hnumbers, h₁, h₂]⟩
  refine (write_translated_iff sample { first := { nacks := [⟨65534, 1⟩] } } sampleTranslator
    (by decide) rfl rfl sample_translatorMap).mpr fun nack hn => ?_
  rw [show nack = ⟨65534, 1⟩ from List.mem_singleton.mp hn] at *
  exact hc.clean hn

/-- A request for one packet asks for the packet behind it as well. -/
theorem write_adds_number : ¬∀ (arrivals : List DataPacket) (packet : RtcpPacket)
    (t : SequenceNumberTranslator), packet.type = .video → packet.first.isFeedback = true →
    (reads arrivals).translatorMap packet.first.sourceSSRC = some t →
    Translated t packet ((reads arrivals).write packet) := by
  intro h
  let arrivals : List DataPacket := [{ header := { seqNumber := 10 }, payload := [7] },
    { header := { seqNumber := 11 }, payload := [7] }]
  have hs : ((reads arrivals).translatorMap 0).isSome = true := by decide
  obtain ⟨t, ht⟩ := Option.isSome_iff_exists.mp hs
  obtain ⟨out, ho, hn⟩ := h arrivals { first := { nacks := [⟨10, 0⟩] } } t rfl rfl ht
  have hw : (reads arrivals).write { first := { nacks := [⟨10, 0⟩] } } =
      some { first := { nacks := [⟨10, 1⟩] } } := by decide
  rw [← Option.some.inj (hw.symm.trans ho)] at hn
  obtain ⟨r, hr, hi⟩ := (hn 11).mp (by decide)
  have h10 : ((reads arrivals).translatorMap 0).map (image · 10) = some (some 10) := by
    decide
  rw [ht, Option.map_some] at h10
  rw [show r = 10 by simpa [RtcpPacket.requested, RtcpPacket.nacks, RtcpPacket.blocks, nacksOf,
    NackBlock.numbers] using hr, Option.some.inj h10] at hi
  exact absurd hi (by decide)

end RtpPaddingRemovalHandler

end KkLicode.Rtp
