import Mathlib.Data.Nat.Bitwise
import KkLicode.Media.RtpVP8Parser
import KkLicode.Rtp.DataPacket

/-! The picture id of a VP8 packet that is written over. The parts of the descriptor
behind the id do not look at it, so the parser finds the new id and all else as it
was before. -/

namespace KkLicode.Media.RtpVP8Parser

variable {vp8 : RTPPayloadVP8} {x : ℤ} {d rest payload : List UInt8} {r : RTPPayloadVP8 × List UInt8}

/-! ### The parts that do not look at the id -/

def withPictureID (x : ℤ) (vp8 : RTPPayloadVP8) : RTPPayloadVP8 := { vp8 with pictureID := x }

/-- The same result with another id. -/
def Parsed.withPictureID (x : ℤ) : Parsed → Parsed
  | .error vp8 => .error (RtpVP8Parser.withPictureID x vp8)
  | .ok (vp8, rest) => .ok (RtpVP8Parser.withPictureID x vp8, rest)

theorem parseVP8Tl0PicIdx_withPictureID (x : ℤ) (vp8 : RTPPayloadVP8) (d : List UInt8) :
    parseVP8Tl0PicIdx (withPictureID x vp8) d = (parseVP8Tl0PicIdx vp8 d).withPictureID x := by
  cases d <;> rfl

theorem parseVP8TIDAndKeyIdx_withPictureID (x : ℤ) (vp8 : RTPPayloadVP8) (d : List UInt8) :
    parseVP8TIDAndKeyIdx (withPictureID x vp8) d =
      (parseVP8TIDAndKeyIdx vp8 d).withPictureID x := by
  cases d with
  | nil => rfl
  | cons b rest =>
    cases ht : vp8.hasTID <;> cases hk : vp8.hasKeyIdx <;>
      simp [parseVP8TIDAndKeyIdx, withPictureID, Parsed.withPictureID, ht, hk]

theorem optional_withPictureID {bit : Bool} {part : RTPPayloadVP8 → List UInt8 → Parsed}
    (h : ∀ vp8 d, part (withPictureID x vp8) d = (part vp8 d).withPictureID x) :
    optional bit part (withPictureID x r.1, r.2) = (optional bit part r).withPictureID x := by
  cases bit with
  | true => exact h r.1 r.2
  | false => rfl

/-- The parts of the extension behind the id. -/
def parseLayers (r : RTPPayloadVP8 × List UInt8) : Parsed := do
  let r ← optional r.1.hasTl0PicIdx parseVP8Tl0PicIdx r
  optional (r.1.hasTID || r.1.hasKeyIdx) parseVP8TIDAndKeyIdx r

theorem parseLayers_withPictureID (r : RTPPayloadVP8 × List UInt8) :
    parseLayers (withPictureID x r.1, r.2) = (parseLayers r).withPictureID x := by
  have hfirst : optional (withPictureID x r.1).hasTl0PicIdx parseVP8Tl0PicIdx
      (withPictureID x r.1, r.2) =
        (optional r.1.hasTl0PicIdx parseVP8Tl0PicIdx r).withPictureID x :=
    optional_withPictureID (parseVP8Tl0PicIdx_withPictureID x)
  unfold parseLayers
  rw [hfirst]
  cases optional r.1.hasTl0PicIdx parseVP8Tl0PicIdx r with
  | error vp8 => rfl
  | ok r => exact optional_withPictureID (parseVP8TIDAndKeyIdx_withPictureID x)

theorem parseVP8FrameSize_withPictureID (x : ℤ) (vp8 : RTPPayloadVP8) (d : List UInt8) :
    parseVP8FrameSize (withPictureID x vp8) d = withPictureID x (parseVP8FrameSize vp8 d) := by
  unfold parseVP8FrameSize
  by_cases hf : vp8.frameType = .kVP8IFrame <;> by_cases hl : d.length < 10 <;>
    simp [withPictureID, hf, hl]

theorem parsePayload_withPictureID (x : ℤ) (vp8 : RTPPayloadVP8) (d : List UInt8) :
    parsePayload (withPictureID x vp8) d = withPictureID x (parsePayload vp8 d) := by
  cases d with
  | nil => rfl
  | cons b d =>
    have h := fun t => parseVP8FrameSize_withPictureID x { vp8 with frameType := t } (b :: d)
    unfold parsePayload
    exact congrArg (fun v : RTPPayloadVP8 => { v with data := some (b :: d) }) (h _)

/-! ### The written bytes -/

theorem toNat_toUInt8_and_mask (n : UInt16) : (n &&& 0x7F).toUInt8.toNat = n.toNat % 128 := by
  rw [UInt16.toNat_toUInt8, UInt16.toNat_and, show (0x7F : UInt16).toNat = 2 ^ 7 - 1 from rfl,
    Nat.and_two_pow_sub_one_eq_mod]
  omega

theorem toNat_and_0x7F (b : UInt8) : (b &&& 0x7F).toNat = b.toNat % 128 := by
  rw [UInt8.toNat_and, show (0x7F : UInt8).toNat = 2 ^ 7 - 1 from rfl,
    Nat.and_two_pow_sub_one_eq_mod]

/-- The mark of an id of two bytes. -/
theorem and_0x80_ne_zero_iff (b : UInt8) : b &&& 0x80 ≠ 0 ↔ 128 ≤ b.toNat := by
  have h : (b &&& 0x80).toNat = 128 * (b.toNat / 128) := by
    have hb := b.toNat_lt
    rw [UInt8.toNat_and, show (0x80 : UInt8).toNat = 2 ^ 7 from rfl, Nat.and_two_pow,
      Nat.toNat_testBit]
    omega
  rw [← UInt8.toNat_inj.ne, h, UInt8.toNat_zero]
  omega

/-- The id in the width it has in the packet. -/
def idModulus (data : List UInt8) : ℤ := if data.getD 2 0 &&& 0x80 ≠ 0 then 2 ^ 15 else 2 ^ 7

theorem ofInt_toNat_mod {m : ℕ} (hm : m ∣ 65536) (p : ℤ) :
    (((UInt16.ofInt p).toNat % m : ℕ) : ℤ) = p % m := by
  have h : ((UInt16.ofInt p).toNat : ℤ) = p % 65536 := by
    rw [UInt16.ofInt, UInt16.toNat_ofNat']
    omega
  rw [Int.natCast_mod, h, Int.emod_emod_of_dvd]
  exact_mod_cast hm

theorem toNat_0x80_or {b : UInt8} (h : b.toNat < 128) : ((0x80 : UInt8) ||| b).toNat = 128 + b.toNat := by
  rw [UInt8.toNat_or]
  exact (Nat.two_pow_add_eq_or_of_lt (i := 7) h 1).symm

/-- An id of two bytes. -/
theorem parseVP8PictureID_long {b : UInt8} (h : b &&& 0x80 ≠ 0) (vp8 : RTPPayloadVP8) (b' : UInt8)
    (rest : List UInt8) : parseVP8PictureID vp8 (b :: b' :: rest) =
      .ok (withPictureID ((b.toNat % 128 : ℕ) * 256 + b'.toNat) vp8, rest) := by
  rw [parseVP8PictureID, if_pos h]
  simp only [withPictureID, toNat_and_0x7F]

/-- An id of one byte. -/
theorem parseVP8PictureID_short {b : UInt8} (h : b &&& 0x80 = 0) (vp8 : RTPPayloadVP8)
    (rest : List UInt8) :
    parseVP8PictureID vp8 (b :: rest) = .ok (withPictureID (b.toNat % 128 : ℕ) vp8, rest) := by
  unfold parseVP8PictureID
  dsimp only
  rw [if_neg (not_not.mpr h)]
  simp only [withPictureID, toNat_and_0x7F]

/-- The bytes of a written id of two bytes. -/
theorem written_long (p : ℤ) :
    ((0x80 : UInt8) ||| ((UInt16.ofInt p >>> 8) &&& 0x7F).toUInt8) &&& 0x80 ≠ 0 ∧
      ((((0x80 : UInt8) ||| ((UInt16.ofInt p >>> 8) &&& 0x7F).toUInt8).toNat % 128 : ℕ) : ℤ) * 256 +
        ((UInt16.ofInt p &&& 0xFF).toUInt8.toNat : ℕ) = p % 2 ^ 15 := by
  have h7F := toNat_toUInt8_and_mask (UInt16.ofInt p >>> 8)
  have hFF : (UInt16.ofInt p &&& 0xFF).toUInt8.toNat = (UInt16.ofInt p).toNat % 256 := by
    rw [UInt16.toNat_toUInt8, UInt16.toNat_and, show (0xFF : UInt16).toNat = 2 ^ 8 - 1 from rfl,
      Nat.and_two_pow_sub_one_eq_mod]
    omega
  have hshift : (UInt16.ofInt p >>> 8).toNat = (UInt16.ofInt p).toNat / 256 := by
    rw [UInt16.toNat_shiftRight, Nat.shiftRight_eq_div_pow]
    rfl
  have hor := toNat_0x80_or (b := ((UInt16.ofInt p >>> 8) &&& 0x7F).toUInt8) (by omega)
  have hid := ofInt_toNat_mod (m := 2 ^ 15) (by decide) p
  refine ⟨(and_0x80_ne_zero_iff _).mpr (by omega), ?_⟩
  rw [hor, h7F, hFF, hshift]
  push_cast at hid ⊢
  omega

/-- The byte of a written id of one byte. -/
theorem written_short (p : ℤ) : (UInt16.ofInt p &&& 0x7F).toUInt8 &&& 0x80 = 0 ∧
    (((UInt16.ofInt p &&& 0x7F).toUInt8.toNat % 128 : ℕ) : ℤ) = p % 2 ^ 7 := by
  have h7F := toNat_toUInt8_and_mask (UInt16.ofInt p)
  have hid := ofInt_toNat_mod (m := 2 ^ 7) (by decide) p
  refine ⟨not_not.mp (mt (and_0x80_ne_zero_iff _).mp (by omega)), ?_⟩
  rw [h7F, Nat.mod_mod]
  exact hid

/-! ### What the parts keep -/

/-- The fields when a part ended. -/
def Parsed.fields : Parsed → RTPPayloadVP8
  | .error vp8 => vp8
  | .ok r => r.1

theorem optional_hasPictureID {bit : Bool} {part : RTPPayloadVP8 → List UInt8 → Parsed}
    (h : ∀ vp8 d, (part vp8 d).fields.hasPictureID = vp8.hasPictureID) :
    (optional bit part r).fields.hasPictureID = r.1.hasPictureID := by
  cases bit with
  | true => exact h r.1 r.2
  | false => rfl

theorem parseVP8TIDAndKeyIdx_hasPictureID (vp8 : RTPPayloadVP8) (d : List UInt8) :
    (parseVP8TIDAndKeyIdx vp8 d).fields.hasPictureID = vp8.hasPictureID := by
  cases d with
  | nil => rfl
  | cons b rest =>
    cases ht : vp8.hasTID <;> cases hk : vp8.hasKeyIdx <;>
      simp [parseVP8TIDAndKeyIdx, Parsed.fields, ht, hk]

theorem parseLayers_hasPictureID (r : RTPPayloadVP8 × List UInt8) :
    (parseLayers r).fields.hasPictureID = r.1.hasPictureID := by
  have h1 : (optional r.1.hasTl0PicIdx parseVP8Tl0PicIdx r).fields.hasPictureID =
      r.1.hasPictureID := optional_hasPictureID fun vp8 d => by cases d <;> rfl
  unfold parseLayers
  cases hr : optional r.1.hasTl0PicIdx parseVP8Tl0PicIdx r with
  | error vp8 =>
    rw [hr] at h1
    exact h1
  | ok r' =>
    rw [hr] at h1
    exact (optional_hasPictureID parseVP8TIDAndKeyIdx_hasPictureID).trans h1

theorem parsePayload_hasPictureID (vp8 : RTPPayloadVP8) (d : List UInt8) :
    (parsePayload vp8 d).hasPictureID = vp8.hasPictureID := by
  cases d with
  | nil => rfl
  | cons b d =>
    unfold parsePayload parseVP8FrameSize
    dsimp only
    split_ifs <;> rfl

/-! ### The id written over -/

/-- What is found when the parts of the descriptor are read. -/
def finish : Parsed → RTPPayloadVP8
  | .error vp8 => vp8
  | .ok r => parsePayload r.1 r.2

theorem finish_withPictureID (x : ℤ) (p : Parsed) :
    finish (p.withPictureID x) = withPictureID x (finish p) := by
  cases p with
  | error vp8 => rfl
  | ok r => exact parsePayload_withPictureID x r.1 r.2

theorem finish_hasPictureID (p : Parsed) : (finish p).hasPictureID = p.fields.hasPictureID := by
  cases p with
  | error vp8 => rfl
  | ok r => exact parsePayload_hasPictureID r.1 r.2

/-- The fields of the first two bytes. -/
def extended (b0 b1 : UInt8) : RTPPayloadVP8 where
  nonReferenceFrame := b0 &&& 0x20 ≠ 0
  beginningOfPartition := b0 &&& 0x10 ≠ 0
  partitionID := (b0 &&& 0x0F).toNat
  hasPictureID := b1 &&& 0x80 ≠ 0
  hasTl0PicIdx := b1 &&& 0x40 ≠ 0
  hasTID := b1 &&& 0x20 ≠ 0
  hasKeyIdx := b1 &&& 0x10 ≠ 0

theorem parseVP8_extended {b0 : UInt8} (hx : b0 &&& 0x80 ≠ 0)
    (hp : ¬(((b0 &&& 0x0F).toNat : ℤ) > 8)) (b1 : UInt8) (d : List UInt8) :
    parseVP8 (b0 :: b1 :: d) = some (finish
      (optional (extended b0 b1).hasPictureID parseVP8PictureID (extended b0 b1, d) >>=
        parseLayers)) := by
  have hext : ∀ vp8 : RTPPayloadVP8, extended b0 b1 = { vp8 with
      hasPictureID := b1 &&& 0x80 ≠ 0
      hasTl0PicIdx := b1 &&& 0x40 ≠ 0
      hasTID := b1 &&& 0x20 ≠ 0
      hasKeyIdx := b1 &&& 0x10 ≠ 0 } → parseVP8Extension vp8 (b1 :: d) =
        (optional (extended b0 b1).hasPictureID parseVP8PictureID (extended b0 b1, d) >>=
          parseLayers) := by
    intro vp8 h
    rw [h]
    rfl
  unfold parseVP8
  dsimp only
  rw [if_neg hp, if_pos hx, hext _ rfl]
  cases optional (extended b0 b1).hasPictureID parseVP8PictureID (extended b0 b1, d) >>=
    parseLayers <;> rfl

/-- A packet in which an id and a payload are found has both marks. -/
theorem exists_extended {data : List UInt8} (h : parseVP8 data = some vp8)
    (hid : vp8.hasPictureID = true) (hd : vp8.data = some payload) :
    ∃ b0 b1 d, data = b0 :: b1 :: d ∧ b0 &&& 0x80 ≠ 0 ∧ b1 &&& 0x80 ≠ 0 ∧
      ∀ d', parseVP8 (b0 :: b1 :: d') =
        some (finish (parseVP8PictureID (extended b0 b1) d' >>= parseLayers)) := by
  cases data with
  | nil => cases h
  | cons b0 data =>
    by_cases hp : ((b0 &&& 0x0F).toNat : ℤ) > 8
    · unfold parseVP8 at h
      dsimp only at h
      rw [if_pos hp] at h
      cases Option.some.inj h
      cases hd
    by_cases hx : b0 &&& 0x80 ≠ 0
    · cases data with
      | nil =>
        unfold parseVP8 at h
        dsimp only at h
        rw [if_neg hp, if_pos hx] at h
        cases Option.some.inj h
        cases hd
      | cons b1 d =>
        have hext := parseVP8_extended hx hp b1
        by_cases hi : b1 &&& 0x80 ≠ 0
        · have hbit : (extended b0 b1).hasPictureID = true := decide_eq_true hi
          refine ⟨b0, b1, d, rfl, hx, hi, fun d' => ?_⟩
          rw [hext d', hbit]
          rfl
        · have hbit : (extended b0 b1).hasPictureID = false := decide_eq_false hi
          have hfound : vp8.hasPictureID = (extended b0 b1).hasPictureID := by
            rw [hext d, hbit] at h
            rw [← Option.some.inj h, finish_hasPictureID]
            exact parseLayers_hasPictureID (extended b0 b1, d)
          rw [hid, hbit] at hfound
          cases hfound
    · unfold parseVP8 at h
      dsimp only at h
      rw [if_neg hp, if_neg hx] at h
      rw [← Option.some.inj h, parsePayload_hasPictureID] at hid
      cases hid

/-- The parser finds the new id modulo the range of its width, and all else as before. -/
theorem parseVP8_setVP8PictureID {data : List UInt8} (h : parseVP8 data = some vp8)
    (hid : vp8.hasPictureID = true) (hd : vp8.data = some payload) (p : ℤ) :
    parseVP8 (Rtp.setVP8PictureID data p) = some (withPictureID (p % idModulus data) vp8) := by
  obtain ⟨b0, b1, d, rfl, hx, hi, hparse⟩ := exists_extended h hid hd
  rw [hparse] at h
  obtain rfl := Option.some.inj h
  have hlayers : ∀ (x y : ℤ) (rest : List UInt8),
      finish (parseLayers (withPictureID y (extended b0 b1), rest)) =
        withPictureID y (finish (parseLayers (withPictureID x (extended b0 b1), rest))) := by
    intro x y rest
    rw [parseLayers_withPictureID (extended b0 b1, rest),
      parseLayers_withPictureID (extended b0 b1, rest), finish_withPictureID, finish_withPictureID]
    rfl
  cases d with
  | nil => cases hd
  | cons b2 d =>
    by_cases hm : b2 &&& 0x80 ≠ 0
    · have hmod : idModulus (b0 :: b1 :: b2 :: d) = 2 ^ 15 := if_pos hm
      cases d with
      | nil =>
        unfold parseVP8PictureID at hd
        dsimp only at hd
        rw [if_pos hm] at hd
        cases hd
      | cons b3 rest =>
        obtain ⟨hmark, hvalue⟩ := written_long p
        have hset : Rtp.setVP8PictureID (b0 :: b1 :: b2 :: b3 :: rest) p =
            b0 :: b1 :: ((0x80 : UInt8) ||| ((UInt16.ofInt p >>> 8) &&& 0x7F).toUInt8) ::
              (UInt16.ofInt p &&& 0xFF).toUInt8 :: rest := by
          rw [Rtp.setVP8PictureID, if_pos ⟨hx, hi⟩, if_pos hm]
        rw [hset, hparse, hmod, parseVP8PictureID_long hmark, parseVP8PictureID_long hm, hvalue]
        exact congrArg some (hlayers _ _ rest)
    · have hmod : idModulus (b0 :: b1 :: b2 :: d) = 2 ^ 7 := if_neg hm
      obtain ⟨hmark, hvalue⟩ := written_short p
      have hset : Rtp.setVP8PictureID (b0 :: b1 :: b2 :: d) p =
          b0 :: b1 :: (UInt16.ofInt p &&& 0x7F).toUInt8 :: d := by
        unfold Rtp.setVP8PictureID
        dsimp only
        rw [if_pos ⟨hx, hi⟩, if_neg hm]
      rw [hset, hparse, hmod, parseVP8PictureID_short hmark, parseVP8PictureID_short (not_not.mp hm),
        hvalue]
      exact congrArg some (hlayers _ _ d)

theorem length_setVP8PictureID (data : List UInt8) (p : ℤ) :
    (Rtp.setVP8PictureID data p).length = data.length := by
  unfold Rtp.setVP8PictureID
  dsimp only
  split
  · split_ifs
    · split <;> rfl
    · rfl
    · rfl
  · rfl

end KkLicode.Media.RtpVP8Parser
