import Mathlib.Data.List.Basic
import Mathlib.Data.Nat.Bitwise
import KkLicode.Base.Serial
import KkLicode.Rtp.DataPacket

/-! RTCP feedback. A compound packet is a list of blocks; a transport feedback
block holds entries that ask for lost packets, each a packet id with a mask of
the sixteen numbers behind it. -/

namespace KkLicode.Rtp

open Base.Serial

def RTCP_Receiver_PT : UInt8 := 201
def RTCP_RTP_Feedback_PT : UInt8 := 205
def RTCP_PS_Feedback_PT : UInt8 := 206

structure NackBlock where
  pid : UInt16
  blp : UInt16
  deriving DecidableEq, Repr

/-- The numbers the entry asks for. -/
def NackBlock.numbers (nack : NackBlock) : List UInt16 :=
  nack.pid :: ((List.range 16).filter nack.blp.toNat.testBit).map
    fun k => nack.pid + 1 + UInt16.ofNat k

theorem NackBlock.mem_numbers {nack : NackBlock} {n : UInt16} :
    n ∈ nack.numbers ↔ n = nack.pid ∨
      (ahead nack.pid n ≤ 16 ∧ ∃ k, ahead nack.pid n = k + 1 ∧ nack.blp.toNat.testBit k = true) := by
  have hk : ∀ k < 16, ahead nack.pid (nack.pid + 1 + UInt16.ofNat k) = k + 1 := by
    intro k hk
    rw [UInt16.add_assoc, UInt16.add_comm 1, ← ofNat_add_one, ahead_add_ofNat]
    omega
  simp only [numbers, List.mem_cons, List.mem_map, List.mem_filter, List.mem_range]
  refine or_congr_right ⟨?_, ?_⟩
  · rintro ⟨k, ⟨hlt, hb⟩, rfl⟩
    rw [hk k hlt]
    exact ⟨by omega, k, rfl, hb⟩
  · rintro ⟨hle, k, ha, hb⟩
    exact ⟨k, ⟨by omega, hb⟩, eq_of_ahead_eq (by rw [hk k (by omega), ha])⟩

/-- The numbers asked for are among the seventeen that start with the packet id. -/
theorem NackBlock.ahead_of_mem {nack : NackBlock} {n : UInt16} (hn : n ∈ nack.numbers) :
    ahead nack.pid n ≤ 16 := by
  rcases mem_numbers.mp hn with rfl | ⟨h, -⟩
  · simp
  · exact h

/-- An entry that is moved asks for moved numbers. -/
theorem NackBlock.mem_numbers_add {nack : NackBlock} {d n : UInt16} :
    n ∈ ({ nack with pid := nack.pid + d } : NackBlock).numbers ↔ n - d ∈ nack.numbers := by
  have hahead : ahead (nack.pid + d) n = ahead nack.pid (n - d) := by
    have hn := n.toNat_lt
    have hp := nack.pid.toNat_lt
    have hd := d.toNat_lt
    simp only [ahead, UInt16.toNat_sub, UInt16.toNat_add]
    omega
  rw [mem_numbers, mem_numbers, hahead, UInt16.sub_eq_iff_eq_add]

/-- A block of a compound packet. `nacks` are the four-byte words behind the common header of a
feedback block, read as entries. -/
structure RtcpHeader where
  packettype : UInt8 := RTCP_RTP_Feedback_PT
  ssrc : UInt32 := 0
  sourceSSRC : UInt32 := 0
  nacks : List NackBlock := []
  deriving DecidableEq, Repr

def RtcpHeader.isFeedback (chead : RtcpHeader) : Bool :=
  chead.packettype = RTCP_Receiver_PT || chead.packettype = RTCP_PS_Feedback_PT ||
    chead.packettype = RTCP_RTP_Feedback_PT

structure RtcpPacket where
  type : PacketType := .video
  first : RtcpHeader
  rest : List RtcpHeader := []
  deriving DecidableEq, Repr

namespace RtcpPacket

def blocks (packet : RtcpPacket) : List RtcpHeader := packet.first :: packet.rest

end RtcpPacket

namespace RtpUtils

/-- `forEachNack`, for a function that rewrites the entries and may fail. -/
def forEachNack (chead : RtcpHeader) (f : NackBlock → Option NackBlock) : Option RtcpHeader :=
  if chead.packettype = RTCP_RTP_Feedback_PT then
    (chead.nacks.mapM f).map fun nacks => { chead with nacks := nacks }
  else some chead

/-- `forEachRRBlock`, for a function that rewrites the blocks and may fail. -/
def forEachRRBlock (packet : RtcpPacket) (f : RtcpHeader → Option RtcpHeader) : Option RtcpPacket :=
  if packet.first.isFeedback then do
    let first ← f packet.first
    let rest ← packet.rest.mapM f
    return { packet with first := first, rest := rest }
  else some packet

end RtpUtils

/-- The entries of the feedback blocks. -/
def nacksOf (blocks : List RtcpHeader) : List NackBlock :=
  blocks.flatMap fun chead => if chead.packettype = RTCP_RTP_Feedback_PT then chead.nacks else []

def RtcpPacket.nacks (packet : RtcpPacket) : List NackBlock := nacksOf packet.blocks

/-- The numbers a packet asks for. -/
def RtcpPacket.requested (packet : RtcpPacket) : List UInt16 := packet.nacks.flatMap (·.numbers)

theorem nacksOf_cons (chead : RtcpHeader) (blocks : List RtcpHeader) :
    nacksOf (chead :: blocks) =
      (if chead.packettype = RTCP_RTP_Feedback_PT then chead.nacks else []) ++ nacksOf blocks :=
  List.flatMap_cons

/-- Rewriting the entries block by block rewrites the entries of the packet. -/
theorem mapM_forEachNack (f : NackBlock → Option NackBlock) (blocks : List RtcpHeader) :
    (blocks.mapM (RtpUtils.forEachNack · f)).map nacksOf = (nacksOf blocks).mapM f := by
  induction blocks with
  | nil => rfl
  | cons chead blocks ih =>
    rw [nacksOf_cons, List.mapM_append, ← ih, List.mapM_cons]
    generalize blocks.mapM (RtpUtils.forEachNack · f) = rest
    unfold RtpUtils.forEachNack
    split_ifs with hp
    · cases chead.nacks.mapM f with
      | none => rfl
      | some nacks => cases rest <;> simp [nacksOf_cons, hp]
    · cases rest <;> simp [nacksOf_cons, hp]

theorem forEachRRBlock_nacks {packet : RtcpPacket} (hf : packet.first.isFeedback = true)
    (f : NackBlock → Option NackBlock) :
    (RtpUtils.forEachRRBlock packet (RtpUtils.forEachNack · f)).map RtcpPacket.nacks =
      packet.nacks.mapM f := by
  rw [RtcpPacket.nacks, RtcpPacket.blocks, ← mapM_forEachNack, List.mapM_cons,
    RtpUtils.forEachRRBlock, if_pos hf]
  cases RtpUtils.forEachNack packet.first f with
  | none => rfl
  | some first =>
    cases packet.rest.mapM (RtpUtils.forEachNack · f) with
    | none => rfl
    | some rest => rfl

end KkLicode.Rtp
