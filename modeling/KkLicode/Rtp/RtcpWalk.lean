import KkLicode.Rtp.RtcpBytes

/-! How far `forEachRRBlock` and `forEachNack` go. Both trust the length field of
a block: the walk over the blocks stops when it has come to the end of the packet,
but the last block may go on behind it, and the walk over its entries goes to the
end of the block. -/

namespace KkLicode.Rtp

open Base.Buffer

namespace RtcpHeader

variable (data : List UInt8) (chead : ℕ)

def getNackBlp : UInt16 := getShort data (chead + 14)

def setNackBlp (blp : UInt16) : List UInt8 := setShort data (chead + 14) blp

/-- The length of the block, as the walks compute it. -/
def blockLength : ℕ := ((getLength data chead).toNat + 1) * 4

variable {data chead}

theorem getPacketType_congr_drop {data' : List UInt8} (h : data.drop chead = data'.drop chead) :
    getPacketType data chead = getPacketType data' chead :=
  getD_congr_drop h (Nat.le_succ chead)

theorem blockLength_congr_drop {data' : List UInt8} (h : data.drop chead = data'.drop chead) :
    blockLength data chead = blockLength data' chead := by
  rw [blockLength, blockLength, getLength, getLength, getShort_congr_drop h (Nat.le_add_right _ 2)]

end RtcpHeader

/-! ### The entries of a block -/

def kNackCommonHeaderLengthBytes : ℕ := 12

namespace RtpUtils

/-- The loop of `forEachNack`. -/
def nackLoop (f : List UInt8 → ℕ → List UInt8) (length : ℕ) : ℕ → List UInt8 → ℕ → ℕ → List UInt8
  | 0, data, _, _ => data
  | fuel + 1, data, currentPosition, auxPointer =>
    if currentPosition < length then
      nackLoop f length fuel (f data auxPointer) (currentPosition + 4) (auxPointer + 4)
    else data

/-- `forEachNack` on bytes. The entry of a call is twelve bytes behind its pointer, where that of a
header would be. -/
def forEachNackAt (f : List UInt8 → ℕ → List UInt8) (data : List UInt8) (chead : ℕ) : List UInt8 :=
  if RtcpHeader.getPacketType data chead = RTCP_RTP_Feedback_PT then
    let length := RtcpHeader.blockLength data chead
    nackLoop f length length data kNackCommonHeaderLengthBytes chead
  else data

/-- The pointers that the loop calls its function with. -/
def nackCalls (length : ℕ) : ℕ → ℕ → ℕ → List ℕ
  | 0, _, _ => []
  | fuel + 1, currentPosition, auxPointer =>
    if currentPosition < length then
      auxPointer :: nackCalls length fuel (currentPosition + 4) (auxPointer + 4)
    else []

theorem nackLoop_eq_foldl (f : List UInt8 → ℕ → List UInt8) (length fuel : ℕ) (data : List UInt8)
    (currentPosition auxPointer : ℕ) :
    nackLoop f length fuel data currentPosition auxPointer =
      (nackCalls length fuel currentPosition auxPointer).foldl f data := by
  induction fuel generalizing data currentPosition auxPointer with
  | zero => rfl
  | succ fuel ih =>
    unfold nackLoop nackCalls
    split_ifs with hlt
    · exact ih _ _ _
    · rfl

theorem mem_nackCalls {length fuel currentPosition auxPointer : ℕ}
    (hfuel : length ≤ currentPosition + 4 * fuel) {p : ℕ} :
    p ∈ nackCalls length fuel currentPosition auxPointer ↔
      ∃ k, p = auxPointer + 4 * k ∧ currentPosition + 4 * k < length := by
  induction fuel generalizing currentPosition auxPointer with
  | zero =>
    refine iff_of_false (List.not_mem_nil) ?_
    rintro ⟨k, -, hk⟩
    omega
  | succ fuel ih =>
    unfold nackCalls
    split_ifs with hlt
    · rw [List.mem_cons, ih (by omega)]
      constructor
      · rintro (rfl | ⟨k, rfl, hk⟩)
        · exact ⟨0, rfl, hlt⟩
        · exact ⟨k + 1, by omega, by omega⟩
      · rintro ⟨k, rfl, hk⟩
        cases k with
        | zero => exact .inl rfl
        | succ k => exact .inr ⟨k, by omega, by omega⟩
    · refine iff_of_false List.not_mem_nil ?_
      rintro ⟨k, -, hk⟩
      omega

/-- The pointers that `forEachNack` calls its function with. -/
def nacksPassed (data : List UInt8) (chead : ℕ) : List ℕ :=
  if RtcpHeader.getPacketType data chead = RTCP_RTP_Feedback_PT then
    let length := RtcpHeader.blockLength data chead
    nackCalls length length kNackCommonHeaderLengthBytes chead
  else []

theorem forEachNackAt_eq_foldl (f : List UInt8 → ℕ → List UInt8) (data : List UInt8) (chead : ℕ) :
    forEachNackAt f data chead = (nacksPassed data chead).foldl f data := by
  unfold forEachNackAt nacksPassed
  split_ifs with htype
  · exact nackLoop_eq_foldl f _ _ _ _ _
  · rfl

theorem mem_nacksPassed {data : List UInt8} {chead p : ℕ} :
    p ∈ nacksPassed data chead ↔
      RtcpHeader.getPacketType data chead = RTCP_RTP_Feedback_PT ∧
        ∃ k, p = chead + 4 * k ∧ 12 + 4 * k < RtcpHeader.blockLength data chead := by
  unfold nacksPassed
  split_ifs with htype
  · rw [mem_nackCalls (by omega), and_iff_right htype]
    rfl
  · simp [htype]

/-- An entry does not go over the end of its block. -/
theorem end_le_of_mem {data : List UInt8} {chead p : ℕ} (hp : p ∈ nacksPassed data chead) :
    p + 16 ≤ chead + RtcpHeader.blockLength data chead := by
  obtain ⟨-, k, rfl, hk⟩ := mem_nacksPassed.mp hp
  unfold RtcpHeader.blockLength at *
  omega

/-- A handler's function on an entry: it reads the two numbers, and may write others in their
place. -/
def rewriteNack (g : ℕ → NackBlock → Option NackBlock) (data : List UInt8) (aux : ℕ) : List UInt8 :=
  match g aux ⟨RtcpHeader.getNackPid data aux, RtcpHeader.getNackBlp data aux⟩ with
  | some nack => RtcpHeader.setNackBlp (RtcpHeader.setNackPid data aux nack.pid) aux nack.blp
  | none => data

variable (g : ℕ → NackBlock → Option NackBlock)

theorem drop_rewriteNack (data : List UInt8) {aux j : ℕ} (hj : aux + 16 ≤ j) :
    (rewriteNack g data aux).drop j = data.drop j := by
  unfold rewriteNack
  cases g aux _ with
  | none => rfl
  | some nack =>
    simp only [RtcpHeader.setNackBlp, RtcpHeader.setNackPid]
    rw [drop_setShort (by omega), drop_setShort (by omega)]

theorem drop_foldl_rewriteNack {ps : List ℕ} {j : ℕ} (hps : ∀ p ∈ ps, p + 16 ≤ j)
    (data : List UInt8) : (ps.foldl (rewriteNack g) data).drop j = data.drop j := by
  induction ps generalizing data with
  | nil => rfl
  | cons p ps ih =>
    rw [List.foldl_cons, ih fun q hq => hps q (List.mem_cons_of_mem p hq),
      drop_rewriteNack g data (hps p List.mem_cons_self)]

/-- The bytes behind the entries stay. -/
theorem drop_forEachNackAt {data : List UInt8} {chead j : ℕ}
    (hj : ∀ p ∈ nacksPassed data chead, p + 16 ≤ j) :
    (forEachNackAt (rewriteNack g) data chead).drop j = data.drop j := by
  rw [forEachNackAt_eq_foldl, drop_foldl_rewriteNack g hj]

end RtpUtils

/-! ### The blocks of a packet -/

/-- The calls that the walk over the blocks makes: the bytes at that time, and where the header
is. -/
def blockCalls (f : List UInt8 → ℕ → List UInt8) (length : ℕ) :
    ℕ → List UInt8 → ℕ → List (List UInt8 × ℕ)
  | 0, _, _ => []
  | fuel + 1, data, chead =>
    let next := chead + RtcpHeader.blockLength data chead
    (data, chead) :: if next < length then blockCalls f length fuel (f data chead) next else []

theorem forEachBlock_succ (f : List UInt8 → ℕ → List UInt8) (length fuel : ℕ) (data : List UInt8)
    (chead : ℕ) :
    forEachBlock f length (fuel + 1) data chead =
      if chead + RtcpHeader.blockLength data chead < length then
        forEachBlock f length fuel (f data chead) (chead + RtcpHeader.blockLength data chead)
      else f data chead := rfl

theorem forEachBlock_eq_foldl (f : List UInt8 → ℕ → List UInt8) (length fuel : ℕ)
    (data : List UInt8) (chead : ℕ) :
    forEachBlock f length fuel data chead =
      ((blockCalls f length fuel data chead).map Prod.snd).foldl f data := by
  induction fuel generalizing data chead with
  | zero => rfl
  | succ fuel ih =>
    rw [forEachBlock_succ, blockCalls, List.map_cons, List.foldl_cons]
    split_ifs with hnext
    · exact ih _ _
    · rfl

namespace RtcpBuffer

/-- The headers that `forEachRRBlock` calls its function with. -/
def headersPassed (b : RtcpBuffer) (f : List UInt8 → ℕ → List UInt8) : List (List UInt8 × ℕ) :=
  if b.IsFeedback then blockCalls f b.length (b.length + 1) b.data 0 else []

theorem forEachRRBlock_eq_foldl (b : RtcpBuffer) (f : List UInt8 → ℕ → List UInt8) :
    (b.forEachRRBlock f).data = ((b.headersPassed f).map Prod.snd).foldl f b.data := by
  unfold forEachRRBlock headersPassed
  split_ifs with hfb
  · exact forEachBlock_eq_foldl f _ _ _ _
  · rfl

end RtcpBuffer

/-- A header and all entries of its block are in the packet. -/
def CallInside (length : ℕ) (call : List UInt8 × ℕ) : Prop :=
  call.2 + 4 ≤ length ∧ ∀ p ∈ RtpUtils.nacksPassed call.1 call.2, p + 16 ≤ length

/-- What a handler that goes over the entries of a packet and may rewrite them reads and writes is
in the packet. -/
structure RtcpBuffer.WalksInside (b : RtcpBuffer) (g : ℕ → NackBlock → Option NackBlock) : Prop where
  calls : ∀ call ∈ b.headersPassed (RtpUtils.forEachNackAt (RtpUtils.rewriteNack g)),
    CallInside b.length call
  behind : (b.forEachRRBlock (RtpUtils.forEachNackAt (RtpUtils.rewriteNack g))).data.drop b.length =
    b.data.drop b.length

/-! ### The last block -/

/-- The length fields lead from here to a block that is the last one of the packet. The header of
that one is in the packet, and if it is a feedback block with entries, so is the rest of it. -/
inductive Framed (data : List UInt8) (length : ℕ) : ℕ → Prop
  | last {chead : ℕ} (header : chead + 4 ≤ length)
      (last : length ≤ chead + RtcpHeader.blockLength data chead)
      (nacks : RtcpHeader.getPacketType data chead = RTCP_RTP_Feedback_PT →
        3 ≤ (RtcpHeader.getLength data chead).toNat →
        chead + RtcpHeader.blockLength data chead ≤ length) : Framed data length chead
  | block {chead : ℕ} (inside : chead + RtcpHeader.blockLength data chead < length)
      (rest : Framed data length (chead + RtcpHeader.blockLength data chead)) :
      Framed data length chead

theorem framed_iff_of_lt {data : List UInt8} {length chead : ℕ}
    (hlt : chead + RtcpHeader.blockLength data chead < length) :
    Framed data length chead ↔ Framed data length (chead + RtcpHeader.blockLength data chead) := by
  refine ⟨fun h => ?_, .block hlt⟩
  cases h with
  | last _ hlast _ => omega
  | block _ hrest => exact hrest

/-- In the last block the entries are in the packet if the block is. -/
theorem callInside_iff_of_le {data : List UInt8} {length chead : ℕ}
    (hle : length ≤ chead + RtcpHeader.blockLength data chead) :
    CallInside length (data, chead) ↔ Framed data length chead := by
  constructor
  · rintro ⟨hheader, hnacks⟩
    refine .last hheader hle fun htype hlength => ?_
    have hmem : chead + RtcpHeader.blockLength data chead - 16 ∈
        RtpUtils.nacksPassed data chead := by
      refine RtpUtils.mem_nacksPassed.mpr
        ⟨htype, (RtcpHeader.getLength data chead).toNat - 3, ?_, ?_⟩
      all_goals
        unfold RtcpHeader.blockLength
        omega
    have := hnacks _ hmem
    unfold RtcpHeader.blockLength at *
    omega
  · intro h
    cases h with
    | block hlt _ => omega
    | last hheader _ hnacks =>
      refine ⟨hheader, fun p hp => ?_⟩
      have hend := RtpUtils.end_le_of_mem hp
      obtain ⟨htype, k, -, hk⟩ := RtpUtils.mem_nacksPassed.mp hp
      have hlength : 3 ≤ (RtcpHeader.getLength data chead).toNat := by
        unfold RtcpHeader.blockLength at hk
        dsimp only at hk
        omega
      exact hend.trans (hnacks htype hlength)

/-- A block that ends before the packet does is all in it. -/
theorem callInside_of_lt {data : List UInt8} {length chead : ℕ}
    (hlt : chead + RtcpHeader.blockLength data chead < length) : CallInside length (data, chead) := by
  refine ⟨?_, fun p hp => (RtpUtils.end_le_of_mem hp).trans hlt.le⟩
  unfold RtcpHeader.blockLength at hlt
  dsimp only
  omega

theorem CallInside.congr_drop {data data' : List UInt8} {length chead : ℕ}
    (h : data.drop chead = data'.drop chead) :
    CallInside length (data, chead) ↔ CallInside length (data', chead) := by
  unfold CallInside RtpUtils.nacksPassed
  simp only [RtcpHeader.getPacketType_congr_drop h, RtcpHeader.blockLength_congr_drop h]

section Walk

variable (g : ℕ → NackBlock → Option NackBlock) {length : ℕ}

/-- What is rewritten in a block changes nothing of the blocks behind it, so the walk can be seen
from the bytes as they were. -/
theorem callsInside_iff {fuel chead : ℕ} (hfuel : length ≤ chead + 4 * fuel) (hpos : 0 < fuel)
    {data spec : List UInt8} (hdrop : data.drop chead = spec.drop chead) :
    (∀ call ∈ blockCalls (RtpUtils.forEachNackAt (RtpUtils.rewriteNack g)) length fuel data chead,
      CallInside length call) ↔ Framed spec length chead := by
  induction fuel generalizing data chead with
  | zero => omega
  | succ fuel ih =>
    have hlength := RtcpHeader.blockLength_congr_drop hdrop
    have hfour : 4 ≤ RtcpHeader.blockLength spec chead := by
      unfold RtcpHeader.blockLength
      omega
    simp only [blockCalls, List.forall_mem_cons, hlength]
    rw [CallInside.congr_drop hdrop]
    split_ifs with hlt
    · have hbehind : (RtpUtils.forEachNackAt (RtpUtils.rewriteNack g) data chead).drop
          (chead + RtcpHeader.blockLength spec chead) =
            spec.drop (chead + RtcpHeader.blockLength spec chead) := by
        rw [RtpUtils.drop_forEachNackAt g fun p hp => (RtpUtils.end_le_of_mem hp).trans
          (by rw [hlength]), ← List.drop_drop, hdrop, List.drop_drop]
      rw [and_iff_right (callInside_of_lt hlt), ih (by omega) (by omega) hbehind,
        framed_iff_of_lt hlt]
    · rw [callInside_iff_of_le (by omega)]
      exact and_iff_left fun _ h => absurd h List.not_mem_nil

/-- As long as all entries are in the packet nothing behind it is written. -/
theorem drop_forEachBlock_of_inside {fuel chead : ℕ} {data : List UInt8}
    (h : ∀ call ∈ blockCalls (RtpUtils.forEachNackAt (RtpUtils.rewriteNack g)) length fuel data chead,
      CallInside length call) :
    (forEachBlock (RtpUtils.forEachNackAt (RtpUtils.rewriteNack g)) length fuel data chead).drop
      length = data.drop length := by
  induction fuel generalizing data chead with
  | zero => rfl
  | succ fuel ih =>
    simp only [blockCalls, List.forall_mem_cons] at h
    have hblock := RtpUtils.drop_forEachNackAt g h.1.2
    rw [forEachBlock_succ]
    split_ifs with hnext
    · rw [if_pos hnext] at h
      exact (ih h.2).trans hblock
    · exact hblock

end Walk

namespace RtcpBuffer

/-- The walks stay in the packet if and only if the last block does. -/
theorem walksInside_iff (b : RtcpBuffer) (g : ℕ → NackBlock → Option NackBlock) :
    b.WalksInside g ↔ (b.IsFeedback → Framed b.data b.length 0) := by
  by_cases hfb : b.IsFeedback
  · have hcalls : (∀ call ∈ b.headersPassed (RtpUtils.forEachNackAt (RtpUtils.rewriteNack g)),
        CallInside b.length call) ↔ Framed b.data b.length 0 := by
      rw [headersPassed, if_pos hfb]
      exact callsInside_iff g (by omega) (by omega) rfl
    rw [imp_iff_right hfb, ← hcalls]
    refine ⟨WalksInside.calls, fun h => ⟨h, ?_⟩⟩
    rw [headersPassed, if_pos hfb] at h
    rw [forEachRRBlock, if_pos hfb]
    exact drop_forEachBlock_of_inside g h
  · refine iff_of_true ⟨?_, ?_⟩ fun h => absurd h hfb
    · rw [headersPassed, if_neg hfb]
      exact fun _ h => absurd h List.not_mem_nil
    · rw [forEachRRBlock, if_neg hfb]

/-- A packet of sixteen bytes whose only block says that it has two entries. -/
def cutOff : RtcpBuffer :=
  ⟨[0x81, 205, 0, 4, 0, 0, 0, 1, 0, 0, 0, 2, 0, 7, 0, 0, 0, 9, 0, 0], 16⟩

/-- The second entry of the packet is behind its end. -/
theorem not_walksInside : ¬∀ (b : RtcpBuffer) (g : ℕ → NackBlock → Option NackBlock),
    b.WalksInside g := by
  intro h
  have hmem : (cutOff.data, 0) ∈ cutOff.headersPassed
      (RtpUtils.forEachNackAt (RtpUtils.rewriteNack fun _ _ => none)) := by decide
  have hin := ((h cutOff fun _ _ => none).calls _ hmem).2 4 (by decide)
  exact absurd hin (by decide)

end RtcpBuffer

end KkLicode.Rtp
