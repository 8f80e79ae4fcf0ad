import KkLicode.Lib.TokenBucket
import KkLicode.Rtp.RtcpBytes
import KkLicode.Rtp.Stage

/-! `RtpRetransmissionHandler` with the `PacketBufferService`. The last packets that
were written are kept, each in the slot of its number, and those that a receiver
asks for are written again at a limited rate. -/

namespace KkLicode.Rtp

def kServicePacketBufferSize : UInt16 := 256

/-- The slots hold pointers to the packets. -/
structure PacketBufferService where
  audio : UInt16 → Option ℕ := fun _ => none
  video : UInt16 → Option ℕ := fun _ => none

namespace PacketBufferService

def getIndexInBuffer (seqNum : UInt16) : UInt16 := seqNum % kServicePacketBufferSize

def insertPacket (b : PacketBufferService) (packet : DataPacket) (ref : ℕ) : PacketBufferService :=
  let index := getIndexInBuffer packet.header.seqNumber
  match packet.type with
  | .video => { b with video := Function.update b.video index (some ref) }
  | .audio => { b with audio := Function.update b.audio index (some ref) }
  | .other => b

def getVideoPacket (b : PacketBufferService) (seqNum : UInt16) : Option ℕ :=
  b.video (getIndexInBuffer seqNum)

def getAudioPacket (b : PacketBufferService) (seqNum : UInt16) : Option ℕ :=
  b.audio (getIndexInBuffer seqNum)

end PacketBufferService

def kNackBlpSize : ℕ := 16

/-- Nanoseconds. -/
def kTimeToUpdateBitrate : ℤ := 500000000

/-- Twenty packets of almost the largest size. -/
def kBurstSize : UInt64 := 1300 * 20

structure RtpRetransmissionHandler where
  initialized : Bool := false
  enabled : Bool := true
  packetBuffer : PacketBufferService := {}
  /-- A tenth of the default bitrate. -/
  bucket : Lib.TokenBucket := .withRate 30000 kBurstSize
  lastBitrateTime : ℤ := 0

/-- What `read` reads: the clock at the start, a tenth of the bitrate that was calculated, and the
clock of the bucket each time it is asked. -/
structure RetransmissionReading where
  now : ℤ := 0
  rtxBitrate : UInt64 := 0
  bucketTime : ℕ → UInt64 := fun _ => 0

namespace RtpRetransmissionHandler

def calculateRtxBitrate (h : RtpRetransmissionHandler) (r : RetransmissionReading) :
    RtpRetransmissionHandler :=
  if r.now - h.lastBitrateTime > kTimeToUpdateBitrate then
    { h with lastBitrateTime := r.now, bucket := .withRate r.rtxBitrate kBurstSize }
  else h

/-- The ways an attempt to send a packet again ends. -/
inductive Outcome where
  /-- There is no packet in the slot, or the source is unknown. -/
  | missed
  | refused
  /-- The packet in the slot has another number. -/
  | other
  | sent (ref : ℕ)
  deriving DecidableEq, Repr

/-- The flag stays true when the bucket refuses. -/
def Outcome.recovered : Outcome → Bool
  | missed | other => false
  | refused | sent _ => true

variable {D : Type} (ctx : Context D)

/-- The handler while it goes through a packet, with the number of times the bucket was asked. -/
structure Recovery (D : Type) where
  stage : Stage RtpRetransmissionHandler D
  asked : ℕ := 0

/-- One number asked for, with the source it is asked of. -/
abbrev Request := UInt32 × UInt16

/-- Where the packet is looked for. -/
def lookup (b : PacketBufferService) (ssrc : SinkSSRC) (request : Request) : Option ℕ :=
  if ssrc.video = request.1 then b.getVideoPacket request.2
  else if ssrc.audio = request.1 then b.getAudioPacket request.2
  else none

/-- What `read` does for a number that is asked for. -/
def recover (ssrc : SinkSSRC) (r : RetransmissionReading) (s : Recovery D) (request : Request) :
    Recovery D × Outcome :=
  match lookup s.stage.handler.packetBuffer ssrc request with
  | none => (s, .missed)
  | some ref =>
    let recovered := s.stage.packets.packet ref
    let (bucket, admitted) :=
      s.stage.handler.bucket.consume (r.bucketTime s.asked) (.ofNat recovered.length)
    let s : Recovery D :=
      { stage := s.stage.setHandler { s.stage.handler with bucket := bucket }
        asked := s.asked + 1 }
    if !admitted then (s, .refused)
    else if recovered.header.seqNumber = request.2 then
      ({ s with stage := s.stage.fireWrite ctx .own ref }, .sent ref)
    else (s, .other)

/-- The loops of `read`, with their flags. -/
structure Walk (D : Type) where
  recovery : Recovery D
  containsNack : Bool := false
  isFullyRecovered : Bool := true

def readNumber (ssrc : SinkSSRC) (r : RetransmissionReading) (w : Walk D) (request : Request) :
    Walk D :=
  let (recovery, outcome) := recover ctx ssrc r w.recovery request
  { w with recovery := recovery, isFullyRecovered := w.isFullyRecovered && outcome.recovered }

/-- The loop over the mask, from −1, for the packet id itself, to `kNackBlpSize`. -/
def readNack (ssrc : SinkSSRC) (r : RetransmissionReading) (source : UInt32) (w : Walk D)
    (nack : NackBlock) : Walk D :=
  (List.range (kNackBlpSize + 2)).foldl
    (fun w i =>
      if i = 0 || nack.blp.toNat.testBit (i - 1) then
        readNumber ctx ssrc r w (source, nack.pid + .ofNat i)
      else w) w

def readBlock (ssrc : SinkSSRC) (r : RetransmissionReading) (w : Walk D) (chead : RtcpHeader) :
    Walk D :=
  if chead.packettype = RTCP_RTP_Feedback_PT then
    chead.nacks.foldl (readNack ctx ssrc r chead.sourceSSRC) { w with containsNack := true }
  else w

/-- `read`, and whether the packet is passed on. -/
def read (ssrc : SinkSSRC) (s : Stage RtpRetransmissionHandler D) (r : RetransmissionReading)
    (packet : RtcpPacket) : Stage RtpRetransmissionHandler D × Bool :=
  if !s.handler.enabled || !s.handler.initialized then (s, false)
  else
    let w : Walk D := { recovery := { stage := s.setHandler (s.handler.calculateRtxBitrate r) } }
    let w := if packet.first.isFeedback then packet.blocks.foldl (readBlock ctx ssrc r) w else w
    (w.recovery.stage, !w.containsNack || !w.isFullyRecovered)

/-- `write`. -/
def write (s : Stage RtpRetransmissionHandler D) (ref : ℕ) : Stage RtpRetransmissionHandler D :=
  let packet := s.packets.packet ref
  if !s.handler.initialized then s
  else
    let s := if packet.rtcp then s else
      s.setHandler { s.handler with packetBuffer := s.handler.packetBuffer.insertPacket packet ref }
    s.fireWrite ctx .source ref

end RtpRetransmissionHandler

end KkLicode.Rtp
