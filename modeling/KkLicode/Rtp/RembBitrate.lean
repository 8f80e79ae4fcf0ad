import Mathlib.Algebra.Group.Nat.Defs
import KkLicode.Rtp.RtcpBytes

/-! The bitrate in a REMB: six bits of an exponent and eighteen of a mantissa, in
the three bytes behind the number of sources. -/

namespace KkLicode.Rtp

open Base.Buffer

namespace RtcpHeader

/-- The loop of `setREMBBitRate`. It ends by its own test. -/
def brExpLoop (bitRate : UInt64) : ℕ → UInt64 → UInt16 → UInt16
  | 0, _, exp => exp
  | fuel + 1, max, exp =>
    if max ≤ bitRate ∧ exp < 64 then brExpLoop bitRate fuel (max <<< 1) (exp + 1) else exp

/-- The exponent that the loop finds, from eighteen bits. -/
def brExpOf (bitRate : UInt64) : UInt16 := brExpLoop bitRate 65 0x3FFFF 0

/-- What `setREMBBitRate` writes. -/
def brLine (bitRate : UInt64) : UInt32 :=
  let exp := brExpOf bitRate
  let mantissa := bitRate >>> exp.toUInt64
  let exp := exp &&& 0x3F
  let mantissa := mantissa &&& 0x3FFFF
  (mantissa + exp.toUInt64 <<< 18).toUInt32

variable (data : List UInt8) (chead : ℕ)

/-- The bytes of a bitfield of twenty-four bits. -/
def setBrLength (line : UInt32) : List UInt8 :=
  ((data.set (chead + 17) (line >>> 16).toUInt8).set (chead + 18) (line >>> 8).toUInt8).set
    (chead + 19) line.toUInt8

/-- It is not defined what a shift by all the bits of a number gives. -/
def setREMBBitRate (bitRate : UInt64) : Option (List UInt8) :=
  if brExpOf bitRate < 64 then some (setBrLength data chead (brLine bitRate)) else none

/-- The bitfield in the order of the host, with zeros behind it. -/
def brLength : UInt32 :=
  (data.getD (chead + 17) 0).toUInt32 <<< 24 + (data.getD (chead + 18) 0).toUInt32 <<< 16 +
    (data.getD (chead + 19) 0).toUInt32 <<< 8

def getBrExp : UInt32 := brLength data chead >>> 26

def getBrMantis : UInt32 := brLength data chead >>> 8 &&& 0x3ffff

/-- The mantissa has thirty-two bits when it is shifted. -/
def getREMBBitRate : Option UInt64 :=
  if getBrExp data chead < 32 then
    some (getBrMantis data chead <<< getBrExp data chead).toUInt64
  else none

/-- The bitrate that the three bytes stand for. -/
def rembBitrate : ℕ := (getBrMantis data chead).toNat * 2 ^ (getBrExp data chead).toNat

/-! ### What is written is read -/

variable {data chead}

theorem toNat_brLength :
    (brLength data chead).toNat = (data.getD (chead + 17) 0).toNat * 16777216 +
      (data.getD (chead + 18) 0).toNat * 65536 + (data.getD (chead + 19) 0).toNat * 256 := by
  have hx := (data.getD (chead + 17) 0).toNat_lt
  have hy := (data.getD (chead + 18) 0).toNat_lt
  have hz := (data.getD (chead + 19) 0).toNat_lt
  simp only [brLength, UInt32.toNat_add, UInt32.toNat_shiftLeft, UInt8.toNat_toUInt32,
    UInt32.reduceToNat, Nat.shiftLeft_eq, Nat.reduceMod, Nat.reducePow]
  omega

theorem toNat_getBrExp : (getBrExp data chead).toNat = (brLength data chead).toNat / 67108864 := by
  simp only [getBrExp, UInt32.toNat_shiftRight, UInt32.reduceToNat, Nat.reduceMod,
    Nat.shiftRight_eq_div_pow, Nat.reducePow]

theorem toNat_getBrMantis :
    (getBrMantis data chead).toNat = (brLength data chead).toNat / 256 % 262144 := by
  have hand := Nat.and_two_pow_sub_one_eq_mod ((brLength data chead).toNat / 256) 18
  simp only [getBrMantis, UInt32.toNat_and, UInt32.toNat_shiftRight, UInt32.reduceToNat,
    Nat.reduceMod, Nat.shiftRight_eq_div_pow, Nat.reducePow]
  exact hand

theorem brLength_congr_drop {data' : List UInt8} (h : data.drop chead = data'.drop chead) :
    brLength data chead = brLength data' chead := by
  rw [brLength, brLength, getD_congr_drop h (Nat.le_add_right chead 17),
    getD_congr_drop h (Nat.le_add_right chead 18), getD_congr_drop h (Nat.le_add_right chead 19)]

theorem brLength_congr_take {data' : List UInt8} {j : ℕ} (h : data.take j = data'.take j)
    (hj : chead + 20 ≤ j) : brLength data chead = brLength data' chead := by
  rw [brLength, brLength, getD_congr_take h (by omega), getD_congr_take h (by omega),
    getD_congr_take h (by omega)]

theorem rembBitrate_congr {data' : List UInt8} (h : brLength data chead = brLength data' chead) :
    rembBitrate data chead = rembBitrate data' chead := by
  rw [rembBitrate, rembBitrate, getBrMantis, getBrMantis, getBrExp, getBrExp, h]

/-- Only the three bytes change. -/
theorem take_setREMBBitRate {data' : List UInt8} {bitRate : UInt64} {j : ℕ} (hj : j ≤ chead + 17)
    (h : setREMBBitRate data chead bitRate = some data') : data'.take j = data.take j := by
  unfold setREMBBitRate at h
  split_ifs at h
  obtain rfl := Option.some.inj h
  unfold setBrLength
  rw [List.take_set_of_le, List.take_set_of_le, List.take_set_of_le] <;> omega

theorem drop_setREMBBitRate {data' : List UInt8} {bitRate : UInt64} {j : ℕ} (hj : chead + 20 ≤ j)
    (h : setREMBBitRate data chead bitRate = some data') : data'.drop j = data.drop j := by
  unfold setREMBBitRate at h
  split_ifs at h
  obtain rfl := Option.some.inj h
  unfold setBrLength
  rw [List.drop_set_of_lt (by omega), List.drop_set_of_lt (by omega), List.drop_set_of_lt (by omega)]

/-- The bitfield after it was written. -/
theorem toNat_brLength_setBrLength {line : UInt32} (hline : line.toNat < 16777216)
    (hlen : chead + 20 ≤ data.length) :
    (brLength (setBrLength data chead line) chead).toNat = line.toNat * 256 := by
  have hx : (setBrLength data chead line).getD (chead + 17) 0 = (line >>> 16).toUInt8 := by
    simp [setBrLength, List.getD_eq_getElem?_getD, show chead + 17 < data.length by omega]
  have hy : (setBrLength data chead line).getD (chead + 18) 0 = (line >>> 8).toUInt8 := by
    simp [setBrLength, List.getD_eq_getElem?_getD, show chead + 18 < data.length by omega]
  have hz : (setBrLength data chead line).getD (chead + 19) 0 = line.toUInt8 := by
    simp [setBrLength, List.getD_eq_getElem?_getD, show chead + 19 < data.length by omega]
  rw [toNat_brLength, hx, hy, hz]
  simp only [UInt32.toNat_toUInt8, UInt32.toNat_shiftRight, UInt32.reduceToNat, Nat.reduceMod,
    Nat.shiftRight_eq_div_pow, Nat.reducePow]
  omega

/-! ### The exponent -/

/-- The loop stops at the first exponent with which the number is below the bound. -/
theorem brExpLoop_spec {bitRate : UInt64} (hb : bitRate.toNat < 2 ^ 63) {fuel k : ℕ} {max : UInt64}
    {exp : UInt16} (hmax : max.toNat = 262143 * 2 ^ k) (hexp : exp.toNat = k) (hk : k ≤ 46)
    (hfuel : 46 < fuel + k) (hbefore : ∀ j < k, 262143 * 2 ^ j ≤ bitRate.toNat) :
    ∃ e ≤ 46, (brExpLoop bitRate fuel max exp).toNat = e ∧ bitRate.toNat < 262143 * 2 ^ e ∧
      ∀ j < e, 262143 * 2 ^ j ≤ bitRate.toNat := by
  induction fuel generalizing k max exp with
  | zero => omega
  | succ fuel ih =>
    rw [brExpLoop]
    split_ifs with hloop
    · have hle : 262143 * 2 ^ k ≤ bitRate.toNat := hmax ▸ UInt64.le_iff_toNat_le.mp hloop.1
      have hlt : k < 46 := by
        refine Nat.lt_of_le_of_ne hk fun heq => ?_
        subst heq
        omega
      have hpow : 2 ^ k ≤ 2 ^ 45 := Nat.pow_le_pow_right (by decide) (by omega)
      have hmax' : (max <<< 1).toNat = 262143 * 2 ^ (k + 1) := by
        rw [UInt64.toNat_shiftLeft, hmax, Nat.shiftLeft_eq, pow_succ]
        have hone : (1 : UInt64).toNat % 64 = 1 := rfl
        rw [hone]
        omega
      have hexp' : (exp + 1).toNat = k + 1 := by
        rw [UInt16.toNat_add, hexp]
        have hone : (1 : UInt16).toNat = 1 := rfl
        omega
      refine ih hmax' hexp' (by omega) (by omega) fun j hj => ?_
      rcases Nat.lt_succ_iff_lt_or_eq.mp hj with hj | rfl
      · exact hbefore j hj
      · exact hle
    · refine ⟨k, hk, hexp, ?_, hbefore⟩
      have hexp64 : exp < 64 := UInt16.lt_iff_toNat_lt.mpr (by rw [hexp]; exact Nat.lt_of_le_of_lt hk (by decide))
      rw [← hmax]
      exact Nat.lt_of_not_le fun hle => hloop ⟨UInt64.le_iff_toNat_le.mpr hle, hexp64⟩

/-- The exponent of a bitrate: the least one that leaves a mantissa below the bound. -/
structure ExpOf (b e : ℕ) : Prop where
  lt : b < 262143 * 2 ^ e
  le_of_lt : ∀ j < e, 262143 * 2 ^ j ≤ b

theorem brExpOf_spec {bitRate : UInt64} (hb : bitRate.toNat < 2 ^ 63) :
    (brExpOf bitRate).toNat ≤ 46 ∧ ExpOf bitRate.toNat (brExpOf bitRate).toNat := by
  obtain ⟨e, hle, he, hlt, hbefore⟩ := @brExpLoop_spec bitRate hb 65 0 0x3FFFF 0 rfl rfl (by decide)
    (by decide) fun j hj => absurd hj (Nat.not_lt_zero j)
  rw [brExpOf, he]
  exact ⟨hle, hlt, hbefore⟩

theorem toNat_brLine {bitRate : UInt64} (hb : bitRate.toNat < 2 ^ 63) :
    (brLine bitRate).toNat = bitRate.toNat / 2 ^ (brExpOf bitRate).toNat +
      (brExpOf bitRate).toNat * 262144 := by
  obtain ⟨hle, hlt, -⟩ := brExpOf_spec hb
  have hmantissa : bitRate.toNat / 2 ^ (brExpOf bitRate).toNat < 262143 :=
    Nat.div_lt_of_lt_mul (by rwa [Nat.mul_comm])
  have hand : ∀ n : ℕ, n &&& 262143 = n % 262144 := fun n => Nat.and_two_pow_sub_one_eq_mod n 18
  have hand' : ∀ n : ℕ, n &&& 63 = n % 64 := fun n => Nat.and_two_pow_sub_one_eq_mod n 6
  simp only [brLine, UInt64.toNat_toUInt32, UInt64.toNat_add, UInt64.toNat_and,
    UInt64.toNat_shiftRight, UInt64.toNat_shiftLeft, UInt16.toNat_toUInt64, UInt16.toNat_and,
    UInt64.reduceToNat, UInt16.reduceToNat, hand, hand', Nat.shiftRight_eq_div_pow, Nat.shiftLeft_eq,
    Nat.reduceMod, Nat.reducePow]
  generalize (brExpOf bitRate).toNat = e at *
  rw [Nat.mod_eq_of_lt (show e < 64 by omega)]
  generalize bitRate.toNat / 2 ^ e = m at *
  omega

/-! ### Rounding -/

/-- A number is not above another one, and not further below it than the relative error. -/
def Within (t d : ℕ) : Prop := d ≤ t ∧ 2 ^ 17 * (t - d) ≤ t

instance (t d : ℕ) : Decidable (Within t d) := inferInstanceAs (Decidable (_ ∧ _))

namespace ExpOf

variable {b e : ℕ}

/-- The mantissa has eighteen bits, or the number is written exactly. -/
theorem within (h : ExpOf b e) : Within b (b / 2 ^ e * 2 ^ e) := by
  have hrest : b / 2 ^ e * 2 ^ e + b % 2 ^ e = b := Nat.div_add_mod' b (2 ^ e)
  refine ⟨Nat.div_mul_le_self b (2 ^ e), ?_⟩
  cases e with
  | zero => simp
  | succ e =>
    have hlow := h.le_of_lt e (Nat.lt_succ_self e)
    have hmod := Nat.mod_lt b (Nat.two_pow_pos (e + 1))
    have hmantissa : 131071 ≤ b / 2 ^ (e + 1) := by
      refine (Nat.le_div_iff_mul_le (Nat.two_pow_pos (e + 1))).mpr ?_
      rw [pow_succ]
      omega
    have hscaled : 131071 * 2 ^ (e + 1) ≤ b / 2 ^ (e + 1) * 2 ^ (e + 1) :=
      Nat.mul_le_mul_right (2 ^ (e + 1)) hmantissa
    omega

/-- A number that the bits suffice for is not rounded. -/
theorem exact {m k : ℕ} (h : ExpOf (m * 2 ^ k) e) (hm : m < 262143) :
    m * 2 ^ k / 2 ^ e * 2 ^ e = m * 2 ^ k := by
  have hle : e ≤ k := by
    refine Nat.le_of_not_lt fun hlt => ?_
    have := Nat.le_of_mul_le_mul_right (h.le_of_lt k hlt) (Nat.two_pow_pos k)
    omega
  exact Nat.div_mul_cancel (Nat.dvd_mul_left_of_dvd (Nat.pow_dvd_pow 2 hle) m)

/-- With a short exponent the rounded number stays on its side of the word size. -/
theorem le_rounded (he : e ≤ 32) (hb : 2 ^ 32 ≤ b) : 2 ^ 32 ≤ b / 2 ^ e * 2 ^ e := by
  have hsplit : 2 ^ (32 - e) * 2 ^ e = 2 ^ 32 := by rw [← pow_add, Nat.sub_add_cancel he]
  have hdiv : 2 ^ (32 - e) ≤ b / 2 ^ e :=
    (Nat.le_div_iff_mul_le (Nat.two_pow_pos e)).mpr (hsplit.trans_le hb)
  exact hsplit.ge.trans (Nat.mul_le_mul_right (2 ^ e) hdiv)

theorem le_of_small (h : ExpOf b e) (hb : b < 2 ^ 32) : e ≤ 15 := by
  refine Nat.le_of_not_lt fun hlt => ?_
  have := h.le_of_lt 15 hlt
  omega

end ExpOf

/-! ### The round trip -/

/-- The two fields after a bitrate was written. -/
theorem fields_setREMBBitRate {bitRate : UInt64} (hb : bitRate.toNat < 2 ^ 63)
    (hlen : chead + 20 ≤ data.length) :
    ∃ data' e, setREMBBitRate data chead bitRate = some data' ∧ ExpOf bitRate.toNat e ∧ e ≤ 46 ∧
      (getBrExp data' chead).toNat = e ∧ (getBrMantis data' chead).toNat = bitRate.toNat / 2 ^ e := by
  obtain ⟨hle, hexp⟩ := brExpOf_spec hb
  have hdefined : brExpOf bitRate < 64 := UInt16.lt_iff_toNat_lt.mpr (Nat.lt_of_le_of_lt hle (by decide))
  have hmantissa : bitRate.toNat / 2 ^ (brExpOf bitRate).toNat < 262143 :=
    Nat.div_lt_of_lt_mul (by rw [Nat.mul_comm]; exact hexp.lt)
  have hline := toNat_brLine hb
  have hread := @toNat_brLength_setBrLength data chead (brLine bitRate) (by omega) hlen
  refine ⟨setBrLength data chead (brLine bitRate), (brExpOf bitRate).toNat, if_pos hdefined, hexp, hle,
    ?_, ?_⟩
  · rw [toNat_getBrExp, hread, hline]
    generalize bitRate.toNat / 2 ^ (brExpOf bitRate).toNat = m at hmantissa ⊢
    omega
  · rw [toNat_getBrMantis, hread, hline]
    generalize bitRate.toNat / 2 ^ (brExpOf bitRate).toNat = m at hmantissa ⊢
    omega

theorem getREMBBitRate_eq {e : ℕ} (he : (getBrExp data chead).toNat = e) :
    (32 ≤ e → getREMBBitRate data chead = none) ∧
      (e < 32 → ∃ bitRate, getREMBBitRate data chead = some bitRate ∧
        bitRate.toNat = rembBitrate data chead % 2 ^ 32) := by
  have hlt : getBrExp data chead < 32 ↔ e < 32 := UInt32.lt_iff_toNat_lt.trans (by rw [he]; rfl)
  refine ⟨fun h => if_neg (mt hlt.mp (Nat.not_lt.mpr h)), fun h => ⟨_, if_pos (hlt.mpr h), ?_⟩⟩
  rw [UInt32.toNat_toUInt64, UInt32.toNat_shiftLeft, he, Nat.mod_eq_of_lt h, Nat.shiftLeft_eq]
  exact congrArg (fun k => _ * 2 ^ k % 2 ^ 32) he.symm

/-- What `getREMBBitRate` gives after `setREMBBitRate` is within the error. -/
def Kept (bitRate : UInt64) (data : List UInt8) (chead : ℕ) : Prop :=
  ∃ data' bitRate', setREMBBitRate data chead bitRate = some data' ∧
    getREMBBitRate data' chead = some bitRate' ∧ Within bitRate.toNat bitRate'.toNat

/-- The mantissa is shifted out of its thirty-two bits if and only if the bitrate has more. -/
theorem kept_iff {bitRate : UInt64} (hb : bitRate.toNat < 2 ^ 63) (hlen : chead + 20 ≤ data.length) :
    Kept bitRate data chead ↔ bitRate.toNat < 2 ^ 32 := by
  obtain ⟨data', e, hset, hexp, hle, hexp', hmantis⟩ := fields_setREMBBitRate hb hlen
  have hdecoded : rembBitrate data' chead = bitRate.toNat / 2 ^ e * 2 ^ e := by
    rw [rembBitrate, hexp', hmantis]
  obtain ⟨hlong, hshort⟩ := getREMBBitRate_eq hexp'
  constructor
  · rintro ⟨data'', bitRate', hset', hget, hwithin⟩
    obtain rfl := Option.some.inj (hset.symm.trans hset')
    refine Nat.lt_of_not_le fun hbig => ?_
    by_cases he : e < 32
    · obtain ⟨bitRate'', hget', hvalue⟩ := hshort he
      obtain rfl := Option.some.inj (hget.symm.trans hget')
      have hbound : bitRate.toNat < 262143 * 2 ^ 31 :=
        hexp.lt.trans_le (Nat.mul_le_mul_left 262143 (Nat.pow_le_pow_right (by decide) (by omega)))
      have := ExpOf.le_rounded (show e ≤ 32 by omega) hbig
      have := Nat.div_mul_le_self bitRate.toNat (2 ^ e)
      rw [hdecoded] at hvalue
      unfold Within at hwithin
      omega
    · exact Option.some_ne_none _ (hget.symm.trans (hlong (Nat.not_lt.mp he)))
  · intro hsmall
    have he := hexp.le_of_small hsmall
    obtain ⟨bitRate', hget, hvalue⟩ := hshort (by omega)
    have hround := Nat.div_mul_le_self bitRate.toNat (2 ^ e)
    refine ⟨data', bitRate', hset, hget, ?_⟩
    rw [hvalue, hdecoded, Nat.mod_eq_of_lt (by omega)]
    exact hexp.within

end RtcpHeader

end KkLicode.Rtp
