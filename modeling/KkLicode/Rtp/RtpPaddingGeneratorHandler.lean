import KkLicode.Lib.TokenBucket
import KkLicode.Rtp.SequenceNumberTranslator
import KkLicode.Rtp.Stage

/-! `RtpPaddingGeneratorHandler`. Every video packet is renumbered; after a packet
with the marker, and later on a timer, padding packets fill the bitrate up to a
target. -/

namespace KkLicode.Rtp

open Lib

/-- Nanoseconds. -/
def kStatsPeriod : ℤ := 100000000
def kMaxPaddingSize : UInt8 := 255
def kMinMarkerRate : ℕ := 3
def kInitialBitrate : ℕ := 300000
def kPaddingBurstSize : ℕ := 255 * 10

structure RtpPaddingGeneratorHandler where
  translator : SequenceNumberTranslator := {}
  maxVideoBw : ℕ := 0
  higherSequenceNumber : UInt16 := 0
  numberOfFullPaddingPackets : ℕ := 0
  lastPaddingPacketSize : UInt8 := 0
  lastRateCalculationTime : ℤ := 0
  enabled : Bool := false
  firstPacketReceived : Bool := false
  rtpHeaderLength : ℕ := 12
  bucket : TokenBucket := .withRate (.ofNat kInitialBitrate) (.ofNat kPaddingBurstSize)
  scheduledTask : Option ℕ := none

/-- What a call reads from the clock and the statistics. -/
structure PaddingReading where
  /-- The clock in `isTimeToCalculateBitrate` and behind it. -/
  checkTime : ℤ := 0
  calculationTime : ℤ := 0
  totalBitrate : ℕ := 0
  paddingBitrate : ℕ := 0
  senderBitrateEstimation : Option ℕ := none
  markerRate : ℕ := 0
  /-- The clock, in microseconds, when the bucket is asked for the `i`th time. -/
  bucketTime : ℕ → UInt64 := fun _ => 0

/-- `RtpUtils::makePaddingPacket`. -/
def makePaddingPacket (packet : DataPacket) (paddingSize : UInt8) : DataPacket where
  type := packet.type
  rtcp := packet.rtcp
  header := { packet.header with padding := true }
  payload := List.replicate (paddingSize.toNat - 1) 0 ++ [paddingSize]

namespace RtpPaddingGeneratorHandler

def enablePadding (h : RtpPaddingGeneratorHandler) (now : ℤ) : RtpPaddingGeneratorHandler :=
  { h with
    enabled := true
    numberOfFullPaddingPackets := 0
    lastPaddingPacketSize := 0
    lastRateCalculationTime := now }

def disablePadding (h : RtpPaddingGeneratorHandler) : RtpPaddingGeneratorHandler :=
  { h with enabled := false }

/-- `notifyUpdate`: what the quality manager and the RTCP processor say. -/
def notifyUpdate (h : RtpPaddingGeneratorHandler) (paddingEnabled : Bool) (maxVideoBw : ℕ) (now : ℤ) :
    RtpPaddingGeneratorHandler :=
  let h := if paddingEnabled && !h.enabled then h.enablePadding now
    else if !paddingEnabled && h.enabled then h.disablePadding else h
  { h with maxVideoBw := maxVideoBw }

def getTargetBitrate (h : RtpPaddingGeneratorHandler) (r : PaddingReading) : ℕ :=
  let targetBitrate := r.senderBitrateEstimation.getD kInitialBitrate
  if h.maxVideoBw > 0 then min targetBitrate h.maxVideoBw else targetBitrate

def recalculatePaddingRate (h : RtpPaddingGeneratorHandler) (r : PaddingReading) :
    RtpPaddingGeneratorHandler :=
  if r.checkTime - h.lastRateCalculationTime < kStatsPeriod then h
  else
    let mediaBitrate : ℤ := max ((r.totalBitrate : ℤ) - r.paddingBitrate) 0
    let targetPaddingBitrate : ℤ := h.getTargetBitrate r - mediaBitrate
    let h := { h with
      lastRateCalculationTime := r.calculationTime
      bucket := .withRate (.ofInt (max targetPaddingBitrate 0)) (.ofNat kPaddingBurstSize) }
    if targetPaddingBitrate ≤ 0 then
      { h with numberOfFullPaddingPackets := 0, lastPaddingPacketSize := 0 }
    else
      let bytesPerMarker := targetPaddingBitrate.toNat / (max r.markerRate kMinMarkerRate * 8)
      let full := kMaxPaddingSize.toNat + h.rtpHeaderLength
      { h with
        numberOfFullPaddingPackets := bytesPerMarker / full
        lastPaddingPacketSize := .ofInt ((bytesPerMarker % full : ℕ) - h.rtpHeaderLength) }

variable {D : Type} (ctx : Context D)

/-- `sendPaddingPacket`, with the clock for the bucket. -/
def sendPaddingPacket (s : Stage RtpPaddingGeneratorHandler D) (ref : ℕ) (paddingSize : UInt8)
    (now : UInt64) : Stage RtpPaddingGeneratorHandler D :=
  if paddingSize = 0 then s
  else
    let (bucket, admitted) := s.handler.bucket.consume now paddingSize.toUInt64
    if !admitted then s
    else
      let (translator, info) := s.handler.translator.generate
      let padding := (makePaddingPacket (s.packets.packet ref) paddingSize).setSeqNumber info.output
      let (packets, paddingRef) := s.packets.alloc padding
      { handler := { s.handler with bucket := bucket, translator := translator }
        next := s.next, packets := packets : Stage _ D }.fireWrite ctx .own paddingRef

/-- `onPacketWithMarkerSet`: the full padding packets, the last one, and the timer for more. -/
def onPacketWithMarkerSet (s : Stage RtpPaddingGeneratorHandler D) (r : PaddingReading) (ref : ℕ) :
    Stage RtpPaddingGeneratorHandler D :=
  let n := s.handler.numberOfFullPaddingPackets
  let s := (List.range n).foldl
    (fun s i => sendPaddingPacket ctx s ref kMaxPaddingSize (r.bucketTime i)) s
  let s := sendPaddingPacket ctx s ref s.handler.lastPaddingPacketSize (r.bucketTime n)
  s.setHandler { s.handler with scheduledTask := some ref }

/-- `isHigherSequenceNumber`: renumber the packet, and tell whether it is the newest. -/
def isHigherSequenceNumber (s : Stage RtpPaddingGeneratorHandler D) (ref : ℕ) :
    Stage RtpPaddingGeneratorHandler D × Bool :=
  let packet := s.packets.packet ref
  let new := packet.header.seqNumber
  let (translator, info) := s.handler.translator.get new false
  let h := { s.handler with
    rtpHeaderLength := packet.header.headerLength, translator := translator }
  let s := (s.setHandler h).modify ref (·.setSeqNumber info.output)
  if h.firstPacketReceived && sequenceNumberLessThan new h.higherSequenceNumber then (s, false)
  else (s.setHandler { h with higherSequenceNumber := new }, true)

def onVideoPacket (s : Stage RtpPaddingGeneratorHandler D) (r : PaddingReading) (ref : ℕ) :
    Stage RtpPaddingGeneratorHandler D :=
  if !s.handler.enabled then s
  else
    let s := s.setHandler (s.handler.recalculatePaddingRate r)
    if (s.packets.packet ref).header.marker then onPacketWithMarkerSet ctx s r ref else s

/-- `write`. The pending timer is cancelled by a video packet. -/
def write (s : Stage RtpPaddingGeneratorHandler D) (r : PaddingReading) (ref : ℕ) :
    Stage RtpPaddingGeneratorHandler D :=
  if !(s.packets.packet ref).isVideo then s.fireWrite ctx .other ref
  else
    let (s, higher) := isHigherSequenceNumber (s.setHandler { s.handler with scheduledTask := none }) ref
    let s := (s.setHandler { s.handler with firstPacketReceived := true }).fireWrite ctx .source ref
    if higher then onVideoPacket ctx s r ref else s

/-- The pending timer fires. -/
def onTimer (s : Stage RtpPaddingGeneratorHandler D) (r : PaddingReading) :
    Stage RtpPaddingGeneratorHandler D :=
  match s.handler.scheduledTask with
  | none => s
  | some ref => onPacketWithMarkerSet ctx s r ref

end RtpPaddingGeneratorHandler

end KkLicode.Rtp
