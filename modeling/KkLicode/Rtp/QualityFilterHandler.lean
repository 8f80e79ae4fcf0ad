import KkLicode.Rtp.DataPacket
import KkLicode.Rtp.KeyframeRequests
import KkLicode.Rtp.SequenceNumberTranslator

/-! `QualityFilterHandler`: of a scalable video it forwards the packets of one
spatial and one temporal layer, which the quality manager selects, as one stream.
A switch of the spatial layer waits for a keyframe of the new layer or for a
timeout. -/

namespace KkLicode.Rtp

/-- Nanoseconds. -/
def kSwitchTimeout : ℤ := 3000000000

def RTCP_SLI_FMT : UInt8 := 2

structure QualityFilterHandler where
  enabled : Bool := true
  initialized : Bool := false
  receivingMultipleSSRC : Bool := false
  changingSpatialLayer : Bool := false
  isScalable : Bool := false
  targetSpatialLayer : ℤ := 0
  futureSpatialLayer : ℤ := -1
  targetTemporalLayer : ℤ := 0
  videoSinkSSRC : UInt32 := 0
  videoSourceSSRC : UInt32 := 0
  lastSSRCReceived : UInt32 := 0
  lastTimestampSent : UInt32 := 0
  timestampOffset : UInt32 := 0
  timeChangeStarted : ℤ := 0
  pictureIdOffset : ℤ := 0
  lastPictureIdSent : ℤ := 0
  qualityManagerEnabled : Bool := false
  translator : SequenceNumberTranslator := {}

/-- What `write` reads from the quality manager and the clock. -/
structure Reading where
  spatialLayer : ℤ := 0
  temporalLayer : ℤ := 0
  /-- The clock in `checkLayers` and in `changeSpatialLayerOnKeyframeReceived`. -/
  changeTime : ℤ := 0
  now : ℤ := 0
  deriving DecidableEq, Repr

namespace QualityFilterHandler

def enable (h : QualityFilterHandler) : QualityFilterHandler := { h with enabled := true }

def disable (h : QualityFilterHandler) : QualityFilterHandler := { h with enabled := false }

/-- `notifyUpdate` with the SSRCs of the connection. -/
def notifyUpdate (h : QualityFilterHandler) (videoSinkSSRC videoSourceSSRC : UInt32) :
    QualityFilterHandler :=
  if h.initialized then h
  else { h with
    videoSinkSSRC := videoSinkSSRC, videoSourceSSRC := videoSourceSSRC, initialized := true }

def sendPLI (h : QualityFilterHandler) : List Action := [.readPLI h.videoSinkSSRC h.videoSourceSSRC]

def checkLayers (h : QualityFilterHandler) (r : Reading) : QualityFilterHandler × List Action :=
  let (h, actions) :=
    if r.spatialLayer ≠ h.targetSpatialLayer then
      ({ h with
        futureSpatialLayer := r.spatialLayer
        changingSpatialLayer := true
        timeChangeStarted := r.changeTime }, h.sendPLI)
    else (h, [])
  ({ h with targetTemporalLayer := r.temporalLayer }, actions)

def checkSSRCChange (h : QualityFilterHandler) (ssrc : UInt32) : QualityFilterHandler × Bool :=
  ({ h with lastSSRCReceived := ssrc }, h.lastSSRCReceived ≠ ssrc)

def changeSpatialLayerOnKeyframeReceived (h : QualityFilterHandler) (r : Reading)
    (packet : DataPacket) : QualityFilterHandler × List Action :=
  if h.futureSpatialLayer = -1 then (h, [])
  else if packet.belongsToSpatialLayer h.futureSpatialLayer &&
      packet.belongsToTemporalLayer h.targetTemporalLayer && packet.isKeyframe then
    ({ h with targetSpatialLayer := h.futureSpatialLayer, futureSpatialLayer := -1 }, [])
  else if r.now - h.timeChangeStarted > kSwitchTimeout then
    ({ h with targetSpatialLayer := h.futureSpatialLayer, futureSpatialLayer := -1 }, h.sendPLI)
  else (h, [])

def detectVideoScalability (h : QualityFilterHandler) (packet : DataPacket) : QualityFilterHandler :=
  if h.isScalable || packet.type ≠ .video then h
  else if packet.belongsToTemporalLayer 1 || packet.belongsToSpatialLayer 1 then
    { h with isScalable := true, qualityManagerEnabled := true }
  else h

def updatePictureID (h : QualityFilterHandler) (packet : DataPacket) : DataPacket :=
  if packet.codec = "VP8" then
    { packet with payload := setVP8PictureID packet.payload h.lastPictureIdSent }
  else packet

/-- Another SSRC than the one let through last is seen. -/
def noteSSRC (h : QualityFilterHandler) (ssrc : UInt32) : QualityFilterHandler :=
  if h.lastSSRCReceived ≠ 0 && ssrc ≠ h.lastSSRCReceived then { h with receivingMultipleSSRC := true }
  else h

/-- The part of `write` before the spatial filter. -/
def selectLayers (h : QualityFilterHandler) (r : Reading) (packet : DataPacket) :
    QualityFilterHandler × List Action :=
  let (h, pli) := h.checkLayers r
  let (h, pli') := (h.noteSSRC packet.header.ssrc).changeSpatialLayerOnKeyframeReceived r packet
  (h, pli ++ pli')

/-- A packet outside the target layer is dropped, and counted only while one SSRC is received. -/
def dropSpatial (h : QualityFilterHandler) (packet : DataPacket) : QualityFilterHandler :=
  if h.receivingMultipleSSRC then h
  else { h with translator := (h.translator.get packet.header.seqNumber true).1 }

/-- The numbering starts again with another SSRC. -/
def followSSRC (h : QualityFilterHandler) (packet : DataPacket) : QualityFilterHandler :=
  let (h, changed) := h.checkSSRCChange packet.header.ssrc
  if changed then
    { h with
      translator := h.translator.reset
      timestampOffset := if h.lastTimestampSent > 0 then
          h.lastTimestampSent - packet.header.timestamp + 1 else h.timestampOffset
      pictureIdOffset := if h.lastPictureIdSent > 0 then
          h.lastPictureIdSent - packet.pictureId + 1 else h.pictureIdOffset }
  else h

/-- The packet as it leaves the handler with the number `output`. -/
def rewrite (h : QualityFilterHandler) (packet : DataPacket) (output : UInt16) :
    QualityFilterHandler × DataPacket :=
  let marked := if packet.compatibleSpatialLayers.getLast? = some h.targetSpatialLayer &&
      packet.endingOfLayerFrame then packet.setMarker true else packet
  let h := { h with
    lastTimestampSent := packet.header.timestamp + h.timestampOffset
    lastPictureIdSent := packet.pictureId + h.pictureIdOffset }
  (h, h.updatePictureID (((marked.setSSRC h.videoSinkSSRC).setSeqNumber output).setTimestamp
    h.lastTimestampSent))

/-- The part of `write` behind the spatial filter. -/
def writeTemporal (h : QualityFilterHandler) (packet : DataPacket) :
    QualityFilterHandler × List Action :=
  if !packet.belongsToTemporalLayer h.targetTemporalLayer then
    ({ h with translator := (h.translator.get packet.header.seqNumber true).1 }, [])
  else
    let (translator, info) := h.translator.get packet.header.seqNumber false
    let h := { h with translator := translator }
    if info.type ≠ .valid then (h, [])
    else
      let (h, packet) := h.rewrite packet info.output
      (h, [.write packet])

def write (h : QualityFilterHandler) (r : Reading) (packet : DataPacket) :
    QualityFilterHandler × List Action :=
  let h := h.detectVideoScalability packet
  if h.isScalable && !packet.rtcp && h.enabled && packet.type = .video then
    let (h, pli) := h.selectLayers r packet
    if !packet.belongsToSpatialLayer h.targetSpatialLayer then (h.dropSpatial packet, pli)
    else
      let (h, out) := (h.followSSRC packet).writeTemporal packet
      (h, pli ++ out)
  else (h, [.write packet])

/-- A PLI goes out for each request; the format of a PLI is tested twice, and that of a FIR is not. -/
def handleFeedbackPackets (h : QualityFilterHandler) (packet : MediaPacket) :
    List (Fired MediaPacket) :=
  (packet.headersPassed fun data _ => data).flatMap fun (data, chead) =>
    let count := RtcpHeader.getBlockCount data chead
    if RtcpHeader.getPacketType data chead = RTCP_PS_Feedback_PT ∧
        (count = RTCP_PLI_FMT ∨ count = RTCP_SLI_FMT ∨ count = RTCP_PLI_FMT) then
      [.read (RtpUtils.createPLI h.videoSinkSSRC h.videoSourceSSRC)]
    else []

def read (h : QualityFilterHandler) (packet : MediaPacket) : List (Fired MediaPacket) :=
  if packet.IsFeedback ∧ h.enabled = true ∧ h.isScalable = true then h.handleFeedbackPackets packet
  else [.read packet]

end QualityFilterHandler

end KkLicode.Rtp
