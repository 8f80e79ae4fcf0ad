import Mathlib.Data.Nat.Notation
import Mathlib.Data.Int.Notation

/-! The packets that go through the handlers: the fields of the RTP header that
the handlers read or write, the payload, and what the layer detector found out
about the packet. -/

namespace KkLicode.Rtp

/-- `packetType`. -/
inductive PacketType where
  | video | audio | other
  deriving DecidableEq, Repr

structure RtpHeader where
  padding : Bool := false
  marker : Bool := false
  payloadType : UInt8 := 0
  seqNumber : UInt16 := 0
  timestamp : UInt32 := 0
  ssrc : UInt32 := 0
  /-- The contributing sources and the extension. -/
  tail : List UInt8 := []
  deriving DecidableEq, Repr

def RtpHeader.headerLength (h : RtpHeader) : ℕ := 12 + h.tail.length

/-- `dataPacket`. `rtcp` says whether the bytes are those of an RTCP packet, which has no
RTP header. -/
structure DataPacket where
  type : PacketType := .video
  rtcp : Bool := false
  header : RtpHeader := {}
  payload : List UInt8 := []
  compatibleSpatialLayers : List ℤ := []
  compatibleTemporalLayers : List ℤ := []
  isKeyframe : Bool := false
  endingOfLayerFrame : Bool := false
  pictureId : ℤ := -1
  codec : String := ""
  deriving DecidableEq, Repr

namespace DataPacket

def belongsToSpatialLayer (p : DataPacket) (spatialLayer : ℤ) : Bool :=
  p.compatibleSpatialLayers.contains spatialLayer

def belongsToTemporalLayer (p : DataPacket) (temporalLayer : ℤ) : Bool :=
  p.compatibleTemporalLayers.contains temporalLayer

/-- A video packet with an RTP header. -/
def isVideo (p : DataPacket) : Bool := p.type = .video && !p.rtcp

def length (p : DataPacket) : ℕ := p.header.headerLength + p.payload.length

/-- The last byte of the packet; without a tail the header ends with the source. -/
def lastByte (p : DataPacket) : UInt8 := (p.header.tail ++ p.payload).getLastD p.header.ssrc.toUInt8

def setSeqNumber (p : DataPacket) (n : UInt16) : DataPacket :=
  { p with header := { p.header with seqNumber := n } }

def setTimestamp (p : DataPacket) (n : UInt32) : DataPacket :=
  { p with header := { p.header with timestamp := n } }

def setSSRC (p : DataPacket) (n : UInt32) : DataPacket :=
  { p with header := { p.header with ssrc := n } }

def setMarker (p : DataPacket) (b : Bool) : DataPacket :=
  { p with header := { p.header with marker := b } }

@[simp] theorem setSeqNumber_seqNumber (p : DataPacket) (n : UInt16) :
    (p.setSeqNumber n).header.seqNumber = n := rfl

@[simp] theorem setSeqNumber_ssrc (p : DataPacket) (n : UInt16) :
    (p.setSeqNumber n).header.ssrc = p.header.ssrc := rfl

@[simp] theorem setSeqNumber_isVideo (p : DataPacket) (n : UInt16) :
    (p.setSeqNumber n).isVideo = p.isVideo := rfl

@[simp] theorem setTimestamp_seqNumber (p : DataPacket) (n : UInt32) :
    (p.setTimestamp n).header.seqNumber = p.header.seqNumber := rfl

@[simp] theorem setTimestamp_ssrc (p : DataPacket) (n : UInt32) :
    (p.setTimestamp n).header.ssrc = p.header.ssrc := rfl

@[simp] theorem setTimestamp_isVideo (p : DataPacket) (n : UInt32) :
    (p.setTimestamp n).isVideo = p.isVideo := rfl

@[simp] theorem setSSRC_ssrc (p : DataPacket) (n : UInt32) : (p.setSSRC n).header.ssrc = n := rfl

@[simp] theorem setSSRC_isVideo (p : DataPacket) (n : UInt32) : (p.setSSRC n).isVideo = p.isVideo :=
  rfl

@[simp] theorem setMarker_isVideo (p : DataPacket) (b : Bool) : (p.setMarker b).isVideo = p.isVideo :=
  rfl

end DataPacket

/-- `RtpVP8Parser::setVP8PictureID`: the id is written where the descriptor has one, in the width
it has there. -/
def setVP8PictureID (data : List UInt8) (pictureId : ℤ) : List UInt8 :=
  let picId : UInt16 := .ofInt pictureId
  match data with
  | b0 :: b1 :: b2 :: rest =>
    if b0 &&& 0x80 ≠ 0 ∧ b1 &&& 0x80 ≠ 0 then
      if b2 &&& 0x80 ≠ 0 then
        match rest with
        | _ :: rest => b0 :: b1 :: ((0x80 : UInt8) ||| ((picId >>> 8) &&& 0x7F).toUInt8) ::
            (picId &&& 0xFF).toUInt8 :: rest
        | [] => data
      else b0 :: b1 :: (picId &&& 0x7F).toUInt8 :: rest
    else data
  | _ => data

/-- The packets and requests a handler hands to its neighbours. -/
inductive Action where
  /-- `fireRead` of a picture loss indication for this sink and source. -/
  | readPLI (sinkSSRC sourceSSRC : UInt32)
  | read (packet : DataPacket)
  | write (packet : DataPacket)
  deriving DecidableEq, Repr

/-- The packets that are written. -/
def written (actions : List Action) : List DataPacket :=
  actions.filterMap fun
    | .write packet => some packet
    | _ => none

@[simp] theorem written_nil : written [] = [] := rfl

theorem written_append (l m : List Action) : written (l ++ m) = written l ++ written m := by
  rw [written, written, written, List.filterMap_append]

end KkLicode.Rtp
