import KkLicode.Base.StdMap
import KkLicode.Rtp.KeyframeRequests
import KkLicode.Rtp.RembBitrate

/-! `RtcpForwarder`, the feedback that goes to a publisher: reports are given the
sender's number, and a REMB is capped. -/

namespace KkLicode.Rtp

open Base Base.Buffer RtcpHeader

def RTCP_BYE : UInt8 := 203
def RTCP_AFB : UInt8 := 15

inductive MediaType where
  | video
  | audio
  | other
  deriving DecidableEq, Repr

namespace RtcpHeader

variable (data : List UInt8) (chead : ℕ)

def setSSRC (ssrc : UInt32) : List UInt8 := setLong data (chead + 4) ssrc

/-- The four bytes of the identifier are "REMB". -/
def hasRembId : Bool :=
  data.getD (chead + 12) 0 = 82 && data.getD (chead + 13) 0 = 69 && data.getD (chead + 14) 0 = 77 &&
    data.getD (chead + 15) 0 = 66

def isREMB : Bool :=
  getPacketType data chead = RTCP_PS_Feedback_PT && getBlockCount data chead = RTCP_AFB &&
    hasRembId data chead

end RtcpHeader

/-- `source` is the media source that the reports are about, and `sink` who is said to send them. -/
structure RtcpForwarder where
  rtcpData : StdMap UInt32 MediaType := .empty
  maxVideoBw : UInt32 := 300000
  sink : SinkSSRC
  audioSourceSsrc : UInt32 := 0
  videoSourceSsrcList : List UInt32 := [0]

namespace RtcpForwarder

def isVideoSourceSSRC (f : RtcpForwarder) (ssrc : UInt32) : Bool := f.videoSourceSsrcList.contains ssrc

/-- Insertion keeps a source that is there. -/
def addSourceSsrc (f : RtcpForwarder) (ssrc : UInt32) : RtcpForwarder :=
  let mediaType := if ssrc = f.audioSourceSsrc then .audio else .video
  { f with rtcpData := f.rtcpData.insert ssrc mediaType }

/-- The `switch` of `analyzeFeedback`, but for a BYE. -/
def analyzeBlock (f : RtcpForwarder) (data : List UInt8) (chead : ℕ) : Option (List UInt8) :=
  if getPacketType data chead = RTCP_Receiver_PT then
    some (setSSRC data chead
      (if f.isVideoSourceSSRC (getSourceSSRC data chead) then f.sink.video else f.sink.audio))
  else if isREMB data chead then do
    let bitrate ← getREMBBitRate data chead
    let cappedBitrate := if bitrate < f.maxVideoBw.toUInt64 then bitrate else f.maxVideoBw.toUInt64
    setREMBBitRate data chead cappedBitrate
  else some data

/-- The loop of `analyzeFeedback`, with what it returns and the bytes. It ends by its own test. -/
def analyzeBlocks (f : RtcpForwarder) (length : ℕ) :
    ℕ → List UInt8 → ℕ → Option (ℕ × List UInt8)
  | 0, data, _ => some (length, data)
  | fuel + 1, data, chead =>
    let next := chead + blockLength data chead
    if getPacketType data chead = RTCP_BYE then some (0, data)
    else do
      let data ← f.analyzeBlock data chead
      if next < length then analyzeBlocks f length fuel data next else some (length, data)

/-- What `analyzeFeedback` leaves. -/
structure Analysis where
  forwarder : RtcpForwarder
  result : ℕ
  data : List UInt8

/-- `analyzeFeedback`, if all that it computes is defined. -/
def analyzeFeedback (f : RtcpForwarder) (b : RtcpBuffer) : Option Analysis :=
  if b.IsFeedback then
    if getBlockCount b.data 0 = 0 ∧ blockLength b.data 0 = b.length then some ⟨f, 0, b.data⟩
    else (f.analyzeBlocks b.length (b.length + 1) b.data 0).map fun r =>
      ⟨f.addSourceSsrc (getSourceSSRC b.data 0), r.1, r.2⟩
  else some ⟨f, 0, b.data⟩

end RtcpForwarder

/-! ### The blocks of a packet -/

/-- Where the blocks start that are ahead of any BYE. -/
def headers (data : List UInt8) (length : ℕ) : ℕ → ℕ → List ℕ
  | 0, _ => []
  | fuel + 1, chead =>
    if getPacketType data chead = RTCP_BYE then []
    else chead ::
      if chead + blockLength data chead < length then
        headers data length fuel (chead + blockLength data chead)
      else []

namespace RtcpBuffer

def headers (b : RtcpBuffer) : List ℕ :=
  if b.IsFeedback then Rtp.headers b.data b.length (b.length + 1) 0 else []

/-- Where the REMBs of a packet start. -/
def rembs (b : RtcpBuffer) : List ℕ := b.headers.filter (isREMB b.data)

end RtcpBuffer

/-- The block is long enough for the fields of its kind. -/
structure Roomy (data : List UInt8) (length chead : ℕ) : Prop where
  inside : chead + blockLength data chead ≤ length
  report : getPacketType data chead = RTCP_Receiver_PT → 8 ≤ blockLength data chead
  remb : isREMB data chead = true → 20 ≤ blockLength data chead

instance (data : List UInt8) (length chead : ℕ) : Decidable (Roomy data length chead) :=
  decidable_of_iff (chead + blockLength data chead ≤ length ∧
      (getPacketType data chead = RTCP_Receiver_PT → 8 ≤ blockLength data chead) ∧
        (isREMB data chead = true → 20 ≤ blockLength data chead))
    ⟨fun h => ⟨h.1, h.2.1, h.2.2⟩, fun h => ⟨h.inside, h.report, h.remb⟩⟩

/-- All blocks are in the packet, with the fields of their kind. -/
structure RtcpBuffer.Whole (b : RtcpBuffer) : Prop where
  room : b.length ≤ b.data.length
  blocks : ∀ chead ∈ b.headers, Roomy b.data b.length chead

instance (b : RtcpBuffer) : Decidable b.Whole :=
  decidable_of_iff (b.length ≤ b.data.length ∧ ∀ chead ∈ b.headers, Roomy b.data b.length chead)
    ⟨fun h => ⟨h.1, h.2⟩, fun h => ⟨h.room, h.blocks⟩⟩

/-! ### What a block comes to -/

section Block

variable {data data' : List UInt8} {chead : ℕ}

theorem isREMB_congr_drop (h : data.drop chead = data'.drop chead) :
    isREMB data chead = isREMB data' chead := by
  have hid : hasRembId data chead = hasRembId data' chead := by
    rw [hasRembId, hasRembId, getD_congr_drop h (Nat.le_add_right chead 12),
      getD_congr_drop h (Nat.le_add_right chead 13), getD_congr_drop h (Nat.le_add_right chead 14),
      getD_congr_drop h (Nat.le_add_right chead 15)]
  rw [isREMB, isREMB, getPacketType_congr_drop h, getBlockCount, getBlockCount,
    getD_congr_drop h le_rfl, hid]

theorem packettype_of_isREMB (h : isREMB data chead = true) :
    getPacketType data chead = RTCP_PS_Feedback_PT := by
  simp only [isREMB, Bool.and_eq_true, decide_eq_true_eq] at h
  exact h.1.1

variable (f : RtcpForwarder)

/-- The number written into a REMB, before it is rounded. -/
def RtcpForwarder.cap (bitrate : ℕ) : ℕ := min (bitrate % 2 ^ 32) f.maxVideoBw.toNat

namespace RtcpForwarder

theorem cap_lt (bitrate : ℕ) : f.cap bitrate < 2 ^ 32 :=
  (Nat.min_le_right _ _).trans_lt f.maxVideoBw.toNat_lt

/-- Any other block is changed in its place at most. -/
theorem analyzeBlock_other (hremb : isREMB data chead = false)
    (hreport : getPacketType data chead = RTCP_Receiver_PT → 8 ≤ blockLength data chead) :
    ∃ data', f.analyzeBlock data chead = some data' ∧ data'.take chead = data.take chead ∧
      data'.drop (chead + blockLength data chead) = data.drop (chead + blockLength data chead) := by
  unfold analyzeBlock
  by_cases htype : getPacketType data chead = RTCP_Receiver_PT
  · rw [if_pos htype]
    have hlength := hreport htype
    exact ⟨_, rfl, take_setLong (by omega), drop_setLong (by omega)⟩
  · rw [if_neg htype, if_neg (by simp [hremb])]
    exact ⟨data, rfl, rfl, rfl⟩

/-- A REMB has its bitrate written anew, if the shift is defined. -/
theorem analyzeBlock_remb (hremb : isREMB data chead = true) (hlen : chead + 20 ≤ data.length) :
    (32 ≤ (getBrExp data chead).toNat → f.analyzeBlock data chead = none) ∧
      ((getBrExp data chead).toNat < 32 → ∃ data' e, f.analyzeBlock data chead = some data' ∧
        data'.take chead = data.take chead ∧ data'.drop (chead + 20) = data.drop (chead + 20) ∧
        ExpOf (f.cap (rembBitrate data chead)) e ∧
        rembBitrate data' chead = f.cap (rembBitrate data chead) / 2 ^ e * 2 ^ e) := by
  obtain ⟨hlong, hshort⟩ := @getREMBBitRate_eq data chead _ rfl
  have htype : getPacketType data chead ≠ RTCP_Receiver_PT := by
    rw [packettype_of_isREMB hremb]
    decide
  unfold analyzeBlock
  rw [if_neg htype, if_pos hremb]
  refine ⟨fun h => by rw [hlong h]; rfl, fun h => ?_⟩
  obtain ⟨bitrate, hget, hvalue⟩ := hshort h
  let cappedBitrate := if bitrate < f.maxVideoBw.toUInt64 then bitrate else f.maxVideoBw.toUInt64
  have hcapped : cappedBitrate.toNat = f.cap (rembBitrate data chead) := by
    rw [cap, ← hvalue]
    simp only [cappedBitrate, UInt64.lt_iff_toNat_lt, UInt32.toNat_toUInt64]
    split_ifs with hlt
    · exact (Nat.min_eq_left hlt.le).symm
    · exact (Nat.min_eq_right (Nat.not_lt.mp hlt)).symm
  have hlt := f.cap_lt (rembBitrate data chead)
  obtain ⟨data', e, hset, hexp, -, hexp', hmantis⟩ :=
    @fields_setREMBBitRate data chead cappedBitrate (by omega) hlen
  rw [hcapped] at hexp hmantis
  refine ⟨data', e, ?_, take_setREMBBitRate (by omega) hset, drop_setREMBBitRate le_rfl hset, hexp, ?_⟩
  · rw [hget]
    exact hset
  · rw [rembBitrate, hexp', hmantis]

/-- The bitrate at a REMB is the cap of what it was, as far as it can be written. -/
def Rewritten (data data' : List UInt8) (chead : ℕ) : Prop :=
  ∃ e, ExpOf (f.cap (rembBitrate data chead)) e ∧
    rembBitrate data' chead = f.cap (rembBitrate data chead) / 2 ^ e * 2 ^ e

end RtcpForwarder

end Block

/-! ### What the packet comes to -/

theorem headers_succ (data : List UInt8) (length fuel chead : ℕ) :
    headers data length (fuel + 1) chead =
      if getPacketType data chead = RTCP_BYE then []
      else chead ::
        if chead + blockLength data chead < length then
          headers data length fuel (chead + blockLength data chead)
        else [] := rfl

/-- The bytes of a REMB are there. -/
theorem Roomy.length_le {spec data : List UInt8} {length chead : ℕ}
    (hroomy : Roomy spec length chead) (hroom : length ≤ spec.length)
    (hdrop : data.drop chead = spec.drop chead) (hremb : isREMB spec chead = true) :
    chead + 20 ≤ data.length := by
  have hlong := hroomy.remb hremb
  have hinside := hroomy.inside
  have := congrArg List.length hdrop
  rw [List.length_drop, List.length_drop] at this
  omega

namespace RtcpForwarder

variable (f : RtcpForwarder) {spec data : List UInt8} {length chead : ℕ}

theorem analyzeBlocks_succ (length fuel : ℕ) (data : List UInt8) (chead : ℕ) :
    f.analyzeBlocks length (fuel + 1) data chead =
      if getPacketType data chead = RTCP_BYE then some (0, data)
      else (f.analyzeBlock data chead).bind fun data' =>
        if chead + blockLength data chead < length then
          f.analyzeBlocks length fuel data' (chead + blockLength data chead)
        else some (length, data') := rfl

theorem analyzeBlock_none (hdrop : data.drop chead = spec.drop chead) (hroom : length ≤ spec.length)
    (hroomy : Roomy spec length chead) (hremb : isREMB spec chead = true)
    (hexp : 32 ≤ (getBrExp spec chead).toNat) : f.analyzeBlock data chead = none := by
  have hlen := hroomy.length_le hroom hdrop hremb
  rw [getBrExp, ← brLength_congr_drop hdrop] at hexp
  rw [← isREMB_congr_drop hdrop] at hremb
  exact (f.analyzeBlock_remb hremb hlen).1 hexp

/-- A turn of the loop, seen from the bytes as they were. -/
theorem analyzeBlock_some (hdrop : data.drop chead = spec.drop chead) (hroom : length ≤ spec.length)
    (hroomy : Roomy spec length chead)
    (hexp : isREMB spec chead = true → (getBrExp spec chead).toNat < 32) :
    ∃ data', f.analyzeBlock data chead = some data' ∧ data'.take chead = data.take chead ∧
      data'.drop (chead + blockLength spec chead) = spec.drop (chead + blockLength spec chead) ∧
      (isREMB spec chead = true → f.Rewritten spec data' chead) := by
  have hlength := blockLength_congr_drop hdrop
  have hnext : data.drop (chead + blockLength spec chead) =
      spec.drop (chead + blockLength spec chead) := by
    rw [← List.drop_drop, hdrop, List.drop_drop]
  cases hremb : isREMB spec chead with
  | false =>
    rw [← isREMB_congr_drop hdrop] at hremb
    have hreport : getPacketType data chead = RTCP_Receiver_PT → 8 ≤ blockLength data chead := by
      rw [getPacketType_congr_drop hdrop, hlength]
      exact hroomy.report
    obtain ⟨data', hstep, htake, hbehind⟩ := f.analyzeBlock_other hremb hreport
    exact ⟨data', hstep, htake, by rw [← hlength, hbehind, hlength, hnext], fun h => nomatch h⟩
  | true =>
    have hbits := brLength_congr_drop hdrop
    have hlong := hroomy.remb hremb
    have hlen := hroomy.length_le hroom hdrop hremb
    have hdefined : (getBrExp data chead).toNat < 32 := by
      rw [getBrExp, hbits]
      exact hexp hremb
    rw [← isREMB_congr_drop hdrop] at hremb
    obtain ⟨data', e, hstep, htake, hbehind, he, hvalue⟩ :=
      (f.analyzeBlock_remb hremb hlen).2 hdefined
    rw [rembBitrate_congr hbits] at he hvalue
    refine ⟨data', hstep, htake, ?_, fun _ => ⟨e, he, hvalue⟩⟩
    have hsplit : chead + blockLength spec chead = chead + 20 + (blockLength spec chead - 20) := by
      omega
    rw [hsplit, ← List.drop_drop, hbehind, List.drop_drop, ← hsplit, hnext]

/-- The loop, if all shifts are defined: what is in front of the first block stays, and each REMB is
rewritten. -/
theorem analyzeBlocks_some (hroom : length ≤ spec.length) {fuel : ℕ}
    (hdrop : data.drop chead = spec.drop chead)
    (hroomy : ∀ c ∈ headers spec length fuel chead, Roomy spec length c)
    (hexp : ∀ c ∈ headers spec length fuel chead, isREMB spec c = true → (getBrExp spec c).toNat < 32) :
    ∃ r, f.analyzeBlocks length fuel data chead = some r ∧ r.2.take chead = data.take chead ∧
      ∀ c ∈ headers spec length fuel chead, isREMB spec c = true → f.Rewritten spec r.2 c := by
  induction fuel generalizing data chead with
  | zero => exact ⟨_, rfl, rfl, fun c hc => absurd hc List.not_mem_nil⟩
  | succ fuel ih =>
    rw [headers_succ] at hroomy hexp ⊢
    rw [analyzeBlocks_succ, getPacketType_congr_drop hdrop, blockLength_congr_drop hdrop]
    by_cases hbye : getPacketType spec chead = RTCP_BYE
    · rw [if_pos hbye, if_pos hbye]
      exact ⟨_, rfl, rfl, fun c hc => absurd hc List.not_mem_nil⟩
    · rw [if_neg hbye, List.forall_mem_cons] at hroomy hexp
      obtain ⟨data', hstep, htake, hbehind, hrewritten⟩ :=
        f.analyzeBlock_some hdrop hroom hroomy.1 hexp.1
      rw [if_neg hbye, if_neg hbye, hstep, Option.bind_some]
      simp only [List.forall_mem_cons]
      by_cases hnext : chead + blockLength spec chead < length
      · rw [if_pos hnext] at hroomy hexp ⊢
        obtain ⟨r, hrun, hfront, hall⟩ := ih hbehind hroomy.2 hexp.2
        have hfirst : r.2.take chead = data.take chead := by
          have := congrArg (List.take chead) hfront
          rwa [List.take_take, List.take_take, Nat.min_eq_left (Nat.le_add_right _ _), htake] at this
        refine ⟨r, hrun, hfirst, fun h => ?_, by rwa [if_pos hnext]⟩
        obtain ⟨e, he, hvalue⟩ := hrewritten h
        have hlong := hroomy.1.remb h
        have hbits := brLength_congr_take hfront (show chead + 20 ≤ chead + blockLength spec chead by omega)
        exact ⟨e, he, (rembBitrate_congr hbits).trans hvalue⟩
      · rw [if_neg hnext, if_neg hnext]
        exact ⟨_, rfl, htake, hrewritten, fun c hc => absurd hc List.not_mem_nil⟩

/-- If the loop comes to its end, all shifts were defined. -/
theorem exps_of_analyzeBlocks (hroom : length ≤ spec.length) {fuel : ℕ}
    (hdrop : data.drop chead = spec.drop chead)
    (hroomy : ∀ c ∈ headers spec length fuel chead, Roomy spec length c) {r : ℕ × List UInt8}
    (hrun : f.analyzeBlocks length fuel data chead = some r) :
    ∀ c ∈ headers spec length fuel chead, isREMB spec c = true → (getBrExp spec c).toNat < 32 := by
  induction fuel generalizing data chead with
  | zero => exact fun c hc => absurd hc List.not_mem_nil
  | succ fuel ih =>
    rw [headers_succ] at hroomy ⊢
    rw [analyzeBlocks_succ, getPacketType_congr_drop hdrop, blockLength_congr_drop hdrop] at hrun
    by_cases hbye : getPacketType spec chead = RTCP_BYE
    · rw [if_pos hbye]
      exact fun c hc => absurd hc List.not_mem_nil
    · rw [if_neg hbye] at hroomy hrun ⊢
      rw [List.forall_mem_cons] at hroomy ⊢
      have hexp : isREMB spec chead = true → (getBrExp spec chead).toNat < 32 := by
        refine fun h => Nat.lt_of_not_le fun hle => ?_
        rw [f.analyzeBlock_none hdrop hroom hroomy.1 h hle] at hrun
        simp at hrun
      refine ⟨hexp, ?_⟩
      obtain ⟨data', hstep, -, hbehind, -⟩ := f.analyzeBlock_some hdrop hroom hroomy.1 hexp
      rw [hstep, Option.bind_some] at hrun
      split_ifs at hrun hroomy ⊢ with hnext
      · exact ih hbehind hroomy.2 hrun
      · exact fun c hc => absurd hc List.not_mem_nil

end RtcpForwarder

/-! ### The cap -/

/-- The wrapped product is what the mantissa would give with fewer bits, so it is written exactly. -/
theorem within_cap_iff {m e max k : ℕ} (hm : m < 2 ^ 18) (he : e < 32) (hmax : max < 2 ^ 32)
    (hk : ExpOf (min (m * 2 ^ e % 2 ^ 32) max) k) :
    Within (min (m * 2 ^ e) max) (min (m * 2 ^ e % 2 ^ 32) max / 2 ^ k * 2 ^ k) ↔
      m * 2 ^ e < 2 ^ 32 ∨ 2 ^ 17 * (max - m * 2 ^ e % 2 ^ 32) ≤ max := by
  by_cases hsmall : m * 2 ^ e < 2 ^ 32
  · rw [Nat.mod_eq_of_lt hsmall] at hk ⊢
    exact iff_of_true hk.within (.inl hsmall)
  · rw [or_iff_right hsmall, Nat.min_eq_right (show max ≤ m * 2 ^ e by omega)]
    by_cases hle : max ≤ m * 2 ^ e % 2 ^ 32
    · rw [Nat.min_eq_right hle] at hk ⊢
      exact iff_of_true hk.within (by rw [Nat.sub_eq_zero_of_le hle]; exact Nat.zero_le max)
    · have hlt := (Nat.lt_of_not_le hle).le
      have hlow : 15 ≤ e := by
        refine Nat.le_of_not_lt fun hlt => ?_
        have hpow : 2 ^ e ≤ 2 ^ 14 := Nat.pow_le_pow_right (by decide) (Nat.lt_succ_iff.mp hlt)
        have := Nat.mul_le_mul (show m ≤ 2 ^ 18 - 1 by omega) hpow
        omega
      have hwrap : m * 2 ^ e % 2 ^ 32 = m % 2 ^ (32 - e) * 2 ^ e := by
        rw [← Nat.mul_mod_mul_right, ← pow_add, Nat.sub_add_cancel he.le]
      have hbits : m % 2 ^ (32 - e) < 262143 := by
        have hmod := Nat.mod_lt m (Nat.two_pow_pos (32 - e))
        have hpow : 2 ^ (32 - e) ≤ 2 ^ 17 := Nat.pow_le_pow_right (by decide) (by omega)
        omega
      rw [Nat.min_eq_left hlt] at hk ⊢
      rw [hwrap] at hk hlt ⊢
      rw [hk.exact hbits]
      exact and_iff_right hlt

namespace RtcpForwarder

variable (f : RtcpForwarder) (b : RtcpBuffer)

/-- In a packet that is taken for an empty report there is no REMB. -/
theorem rembs_of_empty (hcount : getBlockCount b.data 0 = 0)
    (hlength : blockLength b.data 0 = b.length) : b.rembs = [] := by
  have hremb : isREMB b.data 0 = false := by
    rw [isREMB, hcount]
    simp [RTCP_AFB]
  rw [RtcpBuffer.rembs, RtcpBuffer.headers, headers_succ, Nat.zero_add, hlength,
    if_neg (Nat.lt_irrefl b.length)]
  split_ifs
  · rfl
  · simp [hremb]
  · rfl

/-- The analysis is defined, and each REMB then has the bitrate it had, or the maximum if that is
less, within the error. -/
def Capped : Prop :=
  ∃ analysis, f.analyzeFeedback b = some analysis ∧ ∀ chead ∈ b.rembs,
    Within (min (rembBitrate b.data chead) f.maxVideoBw.toNat) (rembBitrate analysis.data chead)

/-- The shift is defined, and either it loses nothing or what is left of the bitrate is hardly less than
the maximum. -/
def Fits (chead : ℕ) : Prop :=
  (getBrExp b.data chead).toNat < 32 ∧ (rembBitrate b.data chead < 2 ^ 32 ∨
    2 ^ 17 * (f.maxVideoBw.toNat - rembBitrate b.data chead % 2 ^ 32) ≤ f.maxVideoBw.toNat)

variable {f b}

/-- A REMB that was rewritten. -/
theorem within_rewritten_iff {data' : List UInt8} {chead : ℕ} (h : f.Rewritten b.data data' chead)
    (hexp : (getBrExp b.data chead).toNat < 32) :
    Within (min (rembBitrate b.data chead) f.maxVideoBw.toNat) (rembBitrate data' chead) ↔
      f.Fits b chead := by
  obtain ⟨k, hk, hvalue⟩ := h
  have hm : (getBrMantis b.data chead).toNat < 2 ^ 18 := by
    rw [toNat_getBrMantis]
    exact Nat.mod_lt _ (by decide)
  rw [hvalue, Fits, and_iff_right hexp]
  exact within_cap_iff hm hexp f.maxVideoBw.toNat_lt hk

theorem capped_iff (hb : b.Whole) : f.Capped b ↔ ∀ chead ∈ b.rembs, f.Fits b chead := by
  unfold Capped analyzeFeedback
  by_cases hfeedback : b.IsFeedback
  · rw [if_pos hfeedback]
    by_cases hempty : getBlockCount b.data 0 = 0 ∧ blockLength b.data 0 = b.length
    · rw [if_pos hempty, rembs_of_empty b hempty.1 hempty.2]
      exact iff_of_true ⟨_, rfl, fun c hc => absurd hc List.not_mem_nil⟩
        fun c hc => absurd hc List.not_mem_nil
    · have hblocks := hb.blocks
      rw [RtcpBuffer.headers, if_pos hfeedback] at hblocks
      simp only [RtcpBuffer.rembs, RtcpBuffer.headers, if_pos hfeedback, List.mem_filter, and_imp]
      rw [if_neg hempty]
      constructor
      · rintro ⟨analysis, hrun, hwithin⟩ c hc hremb
        obtain ⟨r, hloop, rfl⟩ := Option.map_eq_some_iff.mp hrun
        have hexp := f.exps_of_analyzeBlocks hb.room rfl hblocks hloop
        obtain ⟨r', hloop', -, hrewritten⟩ := f.analyzeBlocks_some hb.room rfl hblocks hexp
        obtain rfl := Option.some.inj (hloop.symm.trans hloop')
        exact (within_rewritten_iff (hrewritten c hc hremb) (hexp c hc hremb)).mp (hwithin c hc hremb)
      · intro hfits
        obtain ⟨r, hloop, -, hrewritten⟩ :=
          f.analyzeBlocks_some hb.room rfl hblocks fun c hc hremb => (hfits c hc hremb).1
        exact ⟨_, Option.map_eq_some_iff.mpr ⟨r, hloop, rfl⟩, fun c hc hremb =>
          (within_rewritten_iff (hrewritten c hc hremb) (hfits c hc hremb).1).mpr (hfits c hc hremb)⟩
  · have hrembs : b.rembs = [] := by
      rw [RtcpBuffer.rembs, RtcpBuffer.headers, if_neg hfeedback]
      rfl
    rw [if_neg hfeedback, hrembs]
    exact iff_of_true ⟨_, rfl, fun c hc => absurd hc List.not_mem_nil⟩
      fun c hc => absurd hc List.not_mem_nil

/-- The capped bitrates are right if and only if those of the REMBs fit, and the round trip if and only
if the bitrate has thirty-two bits. -/
theorem remb_capped_iff (f : RtcpForwarder) (hb : b.Whole) {bitRate : UInt64}
    (hbitRate : bitRate.toNat < 2 ^ 63) {data : List UInt8} {chead : ℕ}
    (hlen : chead + 20 ≤ data.length) :
    (f.Capped b ↔ ∀ chead ∈ b.rembs, f.Fits b chead) ∧
      (Kept bitRate data chead ↔ bitRate.toNat < 2 ^ 32) :=
  ⟨capped_iff hb, kept_iff hbitRate hlen⟩

/-- A report, and a REMB with an exponent and a mantissa in these three bytes. -/
def received (line : List UInt8) : RtcpBuffer where
  data := [0x80, 201, 0, 1, 0, 0, 0, 7] ++
    ([0x8f, 206, 0, 5, 0, 0, 0, 7, 0, 0, 0, 8, 82, 69, 77, 66, 1] ++ line ++ [0, 0, 0, 8])
  length := 32

/-- A million is capped to the maximum of three hundred thousand. -/
theorem remb_capped_million :
    RtcpForwarder.Capped { sink := ⟨7, 8⟩ } (received [11, 208, 144]) ∧
      Kept 300000 (received [0, 0, 0]).data 8 := by
  have hwhole : (received [11, 208, 144]).Whole := by decide
  have h := remb_capped_iff { sink := ⟨7, 8⟩ } hwhole
    (show (300000 : UInt64).toNat < 2 ^ 63 by decide)
    (show 8 + 20 ≤ (received [0, 0, 0]).data.length by decide)
  refine ⟨h.1.mpr ?_, h.2.mpr (by decide)⟩
  have hrembs : (received [11, 208, 144]).rembs = [8] := by decide
  rw [hrembs]
  exact List.forall_mem_singleton.mpr ⟨by decide, .inl (by decide)⟩

/-- The mantissa 2 ^ 17 with the exponent 15: the shift leaves nothing, and the publisher is told to
send nothing. -/
theorem not_remb_capped :
    (¬∀ (f : RtcpForwarder) (b : RtcpBuffer), b.Whole → f.Capped b) ∧
      ¬∀ (bitRate : UInt64) (data : List UInt8) (chead : ℕ), bitRate.toNat < 2 ^ 63 →
        chead + 20 ≤ data.length → Kept bitRate data chead := by
  refine ⟨fun h => ?_, fun h => ?_⟩
  · have hwhole : (received [62, 0, 0]).Whole := by decide
    have hfits := (capped_iff hwhole).mp (h { sink := ⟨7, 8⟩ } _ hwhole) 8 (by decide)
    exact absurd hfits.2 (by decide)
  · have hkept := h 4294967296 (received [0, 0, 0]).data 8 (by decide) (by decide)
    exact absurd ((kept_iff (by decide) (by decide)).mp hkept) (by decide)

end RtcpForwarder

end KkLicode.Rtp
