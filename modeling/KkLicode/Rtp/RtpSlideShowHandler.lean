import KkLicode.Rtp.SequenceNumberTranslator
import KkLicode.Rtp.Stage

/-! `RtpSlideShowHandler`, write side. In slideshow mode only keyframes are
forwarded; the last complete keyframe is kept and sent again when no packet was
sent for a while. -/

namespace KkLicode.Rtp

def kMaxKeyframeSize : ℕ := 20

/-- Nanoseconds. -/
def kFallbackKeyframeTimeout : ℤ := 5000000000

structure RtpSlideShowHandler where
  translator : SequenceNumberTranslator := {}
  highestSeqNumInitialized : Bool := false
  isBuildingKeyframe : Bool := false
  highestSeqNum : UInt16 := 0
  packetsReceivedWhileBuilding : UInt16 := 0
  firstKeyframeSeqNum : UInt16 := 0
  slideshowIsActive : Bool := false
  currentKeyframeTimestamp : UInt32 := 0
  lastTimestampReceived : UInt32 := 0
  keyframeBuffer : List (Option ℕ) := List.replicate kMaxKeyframeSize none
  storedKeyframe : List ℕ := []
  lastKeyframeSentTime : ℤ := 0

/-- What `write` reads: the codec the remote description has for the payload type, and the clock in
`maybeSendStoredKeyframe` and when a packet is forwarded. -/
structure SlideShowReading where
  codec : Option String := none
  resendTime : ℤ := 0
  now : ℤ := 0
  deriving DecidableEq, Repr

namespace RtpSlideShowHandler

def resetKeyframeBuilding (h : RtpSlideShowHandler) : RtpSlideShowHandler :=
  { h with
    packetsReceivedWhileBuilding := 0
    firstKeyframeSeqNum := 0
    isBuildingKeyframe := false
    keyframeBuffer := List.replicate kMaxKeyframeSize none }

def isVP8Keyframe (h : RtpSlideShowHandler) (packet : DataPacket) : RtpSlideShowHandler × Bool :=
  let seqNum := packet.header.seqNumber
  let timestamp := packet.header.timestamp
  if packet.isKeyframe &&
      (sequenceNumberLessThan h.highestSeqNum seqNum || !h.highestSeqNumInitialized) then
    ({ ({ h with currentKeyframeTimestamp := timestamp } : RtpSlideShowHandler).resetKeyframeBuilding with
        isBuildingKeyframe := true, firstKeyframeSeqNum := seqNum }, true)
  else (h, timestamp = h.currentKeyframeTimestamp)

/-- `isVP9Keyframe`. The loop that would make room in front of the buffer has no turns, its bound
having just been lowered to where it starts. -/
def isVP9Keyframe (h : RtpSlideShowHandler) (packet : DataPacket) : RtpSlideShowHandler × Bool :=
  let seqNum := packet.header.seqNumber
  let timestamp := packet.header.timestamp
  if packet.isKeyframe then
    let h := if sequenceNumberLessThan seqNum h.firstKeyframeSeqNum then
        { h with firstKeyframeSeqNum := seqNum } else h
    let h := if timestamp ≠ h.currentKeyframeTimestamp then
        { h.resetKeyframeBuilding with
          firstKeyframeSeqNum := seqNum, currentKeyframeTimestamp := timestamp
          isBuildingKeyframe := true }
      else h
    (h, true)
  else (h, false)

/-- Whether the packet belongs to a keyframe, by the codec of its payload type. -/
def checkKeyframe (h : RtpSlideShowHandler) (codec : Option String) (packet : DataPacket) :
    RtpSlideShowHandler × Bool :=
  if codec = some "VP8" then h.isVP8Keyframe packet
  else if codec = some "VP9" then h.isVP9Keyframe packet
  else (h, false)

def storeKeyframePacket (h : RtpSlideShowHandler) (seqNum : UInt16) (ref : ℕ) : RtpSlideShowHandler :=
  { h with keyframeBuffer := h.keyframeBuffer.set (seqNum - h.firstKeyframeSeqNum).toNat (some ref) }

/-- The packets of one timestamp up to the one with the marker, and whether that was found. -/
def collectKeyframe (packets : Packets) (timestamp : UInt32) : List (Option ℕ) → List ℕ × Bool
  | [] => ([], false)
  | none :: _ => ([], false)
  | some ref :: buffer =>
    if (packets.packet ref).header.timestamp ≠ timestamp then ([], false)
    else if (packets.packet ref).header.marker then ([ref], true)
    else
      let (refs, complete) := collectKeyframe packets timestamp buffer
      (ref :: refs, complete)

def consolidateKeyframe (h : RtpSlideShowHandler) (packets : Packets) : RtpSlideShowHandler :=
  let received := h.packetsReceivedWhileBuilding
  let h := { h with packetsReceivedWhileBuilding := received + 1 }
  if received.toNat > kMaxKeyframeSize then h.resetKeyframeBuilding
  else
    let (keyframe, complete) := collectKeyframe packets h.currentKeyframeTimestamp
      (h.keyframeBuffer.take kMaxKeyframeSize)
    if complete then ({ h with storedKeyframe := keyframe } : RtpSlideShowHandler).resetKeyframeBuilding
    else h

def maybeUpdateHighestSeqNum (h : RtpSlideShowHandler) (seqNum : UInt16) : RtpSlideShowHandler :=
  if sequenceNumberLessThan h.highestSeqNum seqNum || !h.highestSeqNumInitialized then
    { h with highestSeqNum := seqNum, highestSeqNumInitialized := true }
  else h

/-- `setSlideShowMode`. A PLI is sent upstream when the mode changes. -/
def setSlideShowMode (h : RtpSlideShowHandler) (active : Bool) (now : ℤ) : RtpSlideShowHandler :=
  if h.slideshowIsActive = active then h
  else { ({ h with lastKeyframeSentTime := now } : RtpSlideShowHandler).resetKeyframeBuilding with
    slideshowIsActive := active }

variable {D : Type} (ctx : Context D)

/-- One turn of the loop in `maybeSendStoredKeyframe`. -/
def resend (s : Stage RtpSlideShowHandler D) (ref : ℕ) : Stage RtpSlideShowHandler D :=
  let s := s.modify ref (·.setTimestamp s.handler.lastTimestampReceived)
  let (translator, info) := s.handler.translator.generate
  let s := (s.setHandler { s.handler with translator := translator }).modify ref
    (·.setSeqNumber info.output)
  s.fireWrite ctx .own ref

def maybeSendStoredKeyframe (s : Stage RtpSlideShowHandler D) (now : ℤ) :
    Stage RtpSlideShowHandler D :=
  if now - s.handler.lastKeyframeSentTime > kFallbackKeyframeTimeout then
    let s := s.handler.storedKeyframe.foldl (resend ctx) s
    s.setHandler { s.handler with lastKeyframeSentTime := now }
  else s

/-- What `write` does with the packet in slideshow mode before it is numbered. -/
def showSlide (s : Stage RtpSlideShowHandler D) (r : SlideShowReading) (ref : ℕ) (isKeyframe : Bool) :
    Stage RtpSlideShowHandler D :=
  let h := s.handler
  let h := if isKeyframe then
      h.storeKeyframePacket (s.packets.packet ref).header.seqNumber ref else h
  let h := if h.isBuildingKeyframe then h.consolidateKeyframe s.packets else h
  maybeSendStoredKeyframe ctx (s.setHandler h) r.resendTime

/-- The end of `write`: number the packet and forward it, if it is not skipped. -/
def number (s : Stage RtpSlideShowHandler D) (r : SlideShowReading) (ref : ℕ) (seqNum : UInt16)
    (skip : Bool) : Stage RtpSlideShowHandler D :=
  let (translator, info) := s.handler.translator.get seqNum skip
  let s := s.setHandler { s.handler with translator := translator }
  if !skip && info.type = .valid then
    let s := s.modify ref (·.setSeqNumber info.output)
    (s.setHandler { s.handler with lastKeyframeSentTime := r.now }).fireWrite ctx .source ref
  else s

/-- `write`. The number of the packet is read at the start; the highest number is taken from the
header as it is after the stored keyframe was sent, which can be this very packet. -/
def write (s : Stage RtpSlideShowHandler D) (r : SlideShowReading) (ref : ℕ) :
    Stage RtpSlideShowHandler D :=
  let packet := s.packets.packet ref
  if !packet.isVideo then s.fireWrite ctx .other ref
  else
    let (h, isKeyframe) :=
      ({ s.handler with lastTimestampReceived := packet.header.timestamp } :
        RtpSlideShowHandler).checkKeyframe r.codec packet
    let s := s.setHandler h
    let active := s.handler.slideshowIsActive
    let s := if active then showSlide ctx s r ref isKeyframe else s
    let s := s.setHandler
      (s.handler.maybeUpdateHighestSeqNum (s.packets.packet ref).header.seqNumber)
    number ctx s r ref packet.header.seqNumber (active && !isKeyframe)

end RtpSlideShowHandler

end KkLicode.Rtp
