import KkLicode.Rtp.RtcpWalk
import KkLicode.Rtp.Stage

/-! Requests for keyframes: how a packet is seen to be one, and the packets that the
server makes itself. -/

namespace KkLicode.Rtp

open Base.Buffer

def RTCP_PLI_FMT : UInt8 := 1
def RTCP_FIR_FMT : UInt8 := 4

/-- A data packet with its bytes, and what the layer detector found out about it. -/
structure MediaPacket extends RtcpBuffer where
  type : PacketType := .video
  isKeyframe : Bool := false
  deriving DecidableEq, Repr

/-- What a handler hands to its neighbours. -/
inductive Fired (P : Type) where
  | read (packet : P)
  | write (origin : Origin) (packet : P)
  deriving DecidableEq, Repr

/-- The lower five bits of the first byte. -/
def RtcpHeader.getBlockCount (data : List UInt8) (chead : ℕ) : UInt8 := data.getD chead 0 &&& 31

namespace RtpUtils

/-- The loops of `isPLI` and `isFIR`, which only look at the blocks. -/
def hasPSFeedback (fmt : UInt8) (b : RtcpBuffer) : Bool :=
  (b.headersPassed fun data _ => data).any fun call =>
    RtcpHeader.getPacketType call.1 call.2 = RTCP_PS_Feedback_PT &&
      RtcpHeader.getBlockCount call.1 call.2 = fmt

def isPLI (b : RtcpBuffer) : Bool := hasPSFeedback RTCP_PLI_FMT b

def isFIR (b : RtcpBuffer) : Bool := hasPSFeedback RTCP_FIR_FMT b

/-- A block with payload specific feedback: version 2, and `words` words behind the header. -/
def psFeedback (fmt : UInt8) (words : UInt16) (sourceSsrc sinkSsrc : UInt32) : List UInt8 :=
  (0x80 ||| fmt) :: RTCP_PS_Feedback_PT :: (short words ++ (long sinkSsrc ++ long sourceSsrc))

def createPLI (sourceSsrc sinkSsrc : UInt32) : MediaPacket where
  data := psFeedback RTCP_PLI_FMT 2 sourceSsrc sinkSsrc
  length := 12

/-- `reserved` are the bytes behind the sequence number, which are not set. -/
def createFIR (sourceSsrc sinkSsrc : UInt32) (seqNumber : UInt8)
    (reserved : UInt8 × UInt8 × UInt8) : MediaPacket where
  data := psFeedback RTCP_FIR_FMT 4 sourceSsrc sinkSsrc ++
    (long sourceSsrc ++ [seqNumber, reserved.1, reserved.2.1, reserved.2.2])
  length := 20

/-- A packet of one block is what its first bytes say. -/
theorem hasPSFeedback_psFeedback {fmt fmt' : UInt8} (hfmt : (0x80 ||| fmt') &&& 31 = fmt') (words : UInt16)
    (sourceSsrc sinkSsrc : UInt32) (behind : List UInt8) :
    hasPSFeedback fmt ⟨psFeedback fmt' words sourceSsrc sinkSsrc ++ behind,
      (words.toNat + 1) * 4⟩ = decide (fmt' = fmt) := by
  have hlength : RtcpHeader.blockLength (psFeedback fmt' words sourceSsrc sinkSsrc ++ behind) 0 =
      (words.toNat + 1) * 4 := by
    rw [RtcpHeader.blockLength, RtcpHeader.getLength]
    exact congrArg (fun n => (UInt16.toNat n + 1) * 4)
      (getShort_short words (long sinkSsrc ++ long sourceSsrc ++ behind))
  have hcount : RtcpHeader.getBlockCount (psFeedback fmt' words sourceSsrc sinkSsrc ++ behind) 0 =
      fmt' := hfmt
  have hfb : RtcpBuffer.IsFeedback ⟨psFeedback fmt' words sourceSsrc sinkSsrc ++ behind,
      (words.toNat + 1) * 4⟩ := .inr (.inl rfl)
  rw [hasPSFeedback, RtcpBuffer.headersPassed, if_pos hfb]
  simp only [blockCalls, hlength, Nat.zero_add, Nat.lt_irrefl, if_false, List.any_cons,
    List.any_nil, Bool.or_false, hcount]
  rfl

variable (sourceSsrc sinkSsrc : UInt32) (seqNumber : UInt8) (reserved : UInt8 × UInt8 × UInt8)

@[simp] theorem isPLI_createPLI : isPLI (createPLI sourceSsrc sinkSsrc).toRtcpBuffer = true := by
  have h := @hasPSFeedback_psFeedback RTCP_PLI_FMT RTCP_PLI_FMT rfl 2 sourceSsrc sinkSsrc []
  rwa [List.append_nil] at h

@[simp] theorem isPLI_createFIR :
    isPLI (createFIR sourceSsrc sinkSsrc seqNumber reserved).toRtcpBuffer = false :=
  @hasPSFeedback_psFeedback RTCP_PLI_FMT RTCP_FIR_FMT rfl 4 sourceSsrc sinkSsrc _

@[simp] theorem isFIR_createPLI : isFIR (createPLI sourceSsrc sinkSsrc).toRtcpBuffer = false := by
  have h := @hasPSFeedback_psFeedback RTCP_FIR_FMT RTCP_PLI_FMT rfl 2 sourceSsrc sinkSsrc []
  rwa [List.append_nil] at h

@[simp] theorem isFIR_createFIR :
    isFIR (createFIR sourceSsrc sinkSsrc seqNumber reserved).toRtcpBuffer = true :=
  @hasPSFeedback_psFeedback RTCP_FIR_FMT RTCP_FIR_FMT rfl 4 sourceSsrc sinkSsrc _

end RtpUtils

end KkLicode.Rtp
