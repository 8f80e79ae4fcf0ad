import KkLicode.Rtp.RtcpForwarder
import KkLicode.Rtp.RtcpRrGenerator

/-! `RtcpAggregator`, which collects what subscribers report on a source and sends one
report on it to the publisher. What the code leaves to the platform is a reading:
the clock, a random interval, a local variable that was not set, and what a shift
by too many bits gives. -/

namespace KkLicode.Rtp

open Base Base.Buffer RtcpHeader

def MAP_NACK_SIZE : ℕ := 50
def REMB_TIMEOUT : UInt32 := 1000

namespace RtcpHeader

variable (data : List UInt8) (chead : ℕ)

def getSSRC : UInt32 := getLong data (chead + 4)

def getFractionLost : UInt8 := data.getD (chead + 12) 0

def getLostPackets : UInt32 := getLong data (chead + 12) &&& 0xFFFFFF

def getJitter : UInt32 := getLong data (chead + 20)

def getLastSr : UInt32 := getLong data (chead + 24)

def getDelaySinceLastSr : UInt32 := getLong data (chead + 28)

def getNtpTimestamp : UInt64 :=
  (getLong data (chead + 8)).toUInt64 <<< 32 + (getLong data (chead + 12)).toUInt64

end RtcpHeader

structure SrDelayData where
  srNtp : UInt32
  srSendTime : UInt64
  deriving DecidableEq, Repr

/-- What is known of a source. `last_sr_updated` is set with the first report, and is not read
before. -/
structure RtcpData where
  totalPacketsLost : UInt32 := 0
  prevTotalPacketsLost : UInt32 := 0
  ratioLost : UInt8 := 0
  highestSeqNumReceived : UInt16 := 0
  seqNumCycles : UInt16 := 0
  extendedSeqNo : UInt32 := 0
  prevExtendedSeqNo : UInt32 := 0
  lastSr : UInt32 := 0
  reportedBandwidth : UInt64 := 0
  delaySinceLastSr : UInt32 := 0
  nextPacketInMs : UInt32 := 0
  lastDelay : UInt32 := 0
  jitter : UInt32 := 0
  nackSeqnum : UInt16 := 0
  nackBlp : UInt16 := 0
  lastSrUpdated : UInt64 := 0
  lastRembSent : UInt64 := 0
  lastRrWasScheduled : UInt64 := 0
  lastRrSent : UInt64 := 0
  shouldSendPli : Bool := false
  shouldSendREMB : Bool := false
  shouldSendNACK : Bool := false
  requestRr : Bool := false
  shouldReset : Bool := false
  mediaType : MediaType
  senderReports : List SrDelayData := []
  nackedPackets : StdMap UInt32 Unit := .empty

structure RtcpAggregator where
  rtcpData : StdMap UInt32 RtcpData := .empty
  defaultVideoBw : UInt32
  sink : SinkSSRC
  audioSourceSsrc : UInt32
  videoSourceSsrcList : List UInt32

/-- What `analyzeFeedback` reads beside the packet. `delay` is what the local variable has in it
before it is set, and `shifted` what a shift of the mantissa at a header gives, if that is not
defined. -/
structure FeedbackReading where
  nowms : UInt64
  delay : UInt32 := 0
  shifted : ℕ → UInt32 := fun _ => 0

/-- What `checkRtcpFb` reads at a source. The interval is that of the media type by a random
factor. -/
structure CheckReading where
  now : UInt64
  nextPacketInMs : UInt32

namespace RtcpData

/-! ### Feedback -/

variable (d : RtcpData) (data : List UInt8) (chead : ℕ)

/-- The last sender report that the block is an answer to counts. -/
def delayOf (nowms : UInt64) (delay : UInt32) : UInt32 :=
  let calculatedlsr := getDelaySinceLastSr data chead * 1000 / 65536
  d.senderReports.foldl (fun delay sr =>
    if sr.srNtp = getLastSr data chead then
      (nowms - sr.srSendTime - calculatedlsr.toUInt64).toUInt32
    else delay) delay

/-- The counters after a receiver report. -/
def analyzeCounters : RtcpData :=
  let extendedSeqNo := (getSeqnumCycles data chead).toUInt32 <<< 16 +
    (getHighestSeqnum data chead).toUInt32
  let d := { d with
    ratioLost := max d.ratioLost (getFractionLost data chead)
    totalPacketsLost := max d.totalPacketsLost (getLostPackets data chead)
    jitter := max d.jitter (getJitter data chead) }
  if extendedSeqNo > d.extendedSeqNo then
    { d with
      extendedSeqNo := extendedSeqNo
      highestSeqNumReceived := getHighestSeqnum data chead
      seqNumCycles := getSeqnumCycles data chead }
  else d

/-- The branch of a receiver report, with what the local variable `delay` has in it then. -/
def analyzeReport (nowms : UInt64) (delay : UInt32) : RtcpData × UInt32 :=
  let delay := d.delayOf data chead nowms delay
  let d := d.analyzeCounters data chead
  if d.lastSr = 0 ∨ d.lastDelay < delay then
    ({ d with
      lastSr := getLastSr data chead
      delaySinceLastSr := getDelaySinceLastSr data chead
      lastSrUpdated := nowms
      lastDelay := delay }, delay)
  else (d, delay)

/-- Insert a number into the set, and note it if it is new. -/
def insertNacked (n : UInt32) : RtcpData :=
  { d with
    nackedPackets := d.nackedPackets.insert n ()
    shouldSendNACK := d.shouldSendNACK || (d.nackedPackets.find n).isNone }

/-- The loop that erases the least numbers. -/
def trimNacked : RtcpData :=
  let dropped := d.nackedPackets.pairs.length + 1 - MAP_NACK_SIZE
  { d with nackedPackets := ⟨d.nackedPackets.pairs.drop dropped, d.nackedPackets.sorted.drop⟩ }

/-- The first number of a NACK. -/
def analyzePid (pid : UInt32) : RtcpData :=
  if (d.nackedPackets.find pid).isNone then d.insertNacked pid else d.trimNacked

/-- The branch of a NACK. The numbers behind the first one are not reduced to sixteen bits. -/
def analyzeNack : RtcpData :=
  let pid := (getNackPid data chead).toUInt32
  let blp := getNackBlp data chead
  let d := { d with shouldSendNACK := false }.analyzePid pid
  let lost := (List.range 16).filter fun i => blp.toNat.testBit i
  let d := lost.foldl (fun d i => d.insertNacked (pid + 1 + UInt32.ofNat i)) d
  if d.shouldSendNACK then
    { d with nackSeqnum := getNackPid data chead, nackBlp := blp, requestRr := true }
  else d

/-- The branch of a REMB. -/
def analyzeRemb (defaultVideoBw : UInt32) (bitrate : UInt64) : RtcpData :=
  if bitrate < defaultVideoBw.toUInt64 then
    { d with reportedBandwidth := bitrate, shouldSendREMB := true }
  else { d with reportedBandwidth := defaultVideoBw.toUInt64 }

/-- The `switch` of `analyzeFeedback`, with the local variable `delay`. -/
def analyzeBlock (defaultVideoBw : UInt32) (r : FeedbackReading) (delay : UInt32) :
    RtcpData × UInt32 :=
  if getPacketType data chead = RTCP_Receiver_PT then d.analyzeReport data chead r.nowms delay
  else if getPacketType data chead = RTCP_RTP_Feedback_PT then (d.analyzeNack data chead, delay)
  else if getPacketType data chead = RTCP_PS_Feedback_PT then
    if getBlockCount data chead = RTCP_PLI_FMT then ({ d with shouldSendPli := true }, delay)
    else if isREMB data chead then
      (d.analyzeRemb defaultVideoBw
        ((getREMBBitRate data chead).getD (r.shifted chead).toUInt64), delay)
    else (d, delay)
  else (d, delay)

/-- The loop of `analyzeFeedback`. It ends by its own test. -/
def analyzeBlocks (defaultVideoBw : UInt32) (data : List UInt8) (length : ℕ) (r : FeedbackReading) :
    ℕ → RtcpData → ℕ → UInt32 → RtcpData
  | 0, d, _, _ => d
  | fuel + 1, d, chead, delay =>
    let next := chead + blockLength data chead
    let (d, delay) := d.analyzeBlock data chead defaultVideoBw r delay
    if next < length then analyzeBlocks defaultVideoBw data length r fuel d next delay else d

/-! ### Reports -/

def packetsReceivedinInterval : UInt32 := d.extendedSeqNo - d.prevExtendedSeqNo

def packetsLostInInterval : UInt32 := d.totalPacketsLost - d.prevTotalPacketsLost

/-- The number given to `setFractionLost`. A division by zero is not defined, nor is what a number
that is too large becomes as a byte. -/
def fractionLost : Option UInt8 :=
  if d.packetsReceivedinInterval = 0 then none
  else
    let ratio := (d.packetsLostInInterval / d.packetsReceivedinInterval).toNat * 256
    if ratio < 256 then some ratio.toUInt8 else none

def isDue (r : CheckReading) : Bool :=
  let dt := (r.now - d.lastRrSent).toUInt32
  (d.requestRr || dt ≥ d.nextPacketInMs || d.shouldSendREMB) && d.lastSr > 0

def resetData (bandwidth : UInt32) : RtcpData :=
  { d with
    ratioLost := 0
    requestRr := false
    shouldReset := false
    jitter := 0
    reportedBandwidth :=
      if d.reportedBandwidth > bandwidth.toUInt64 then bandwidth.toUInt64 else d.reportedBandwidth
    lastDelay := (d.lastDelay.toUInt64 * 3 / 5).toUInt32 }

end RtcpData

/-- A packet that goes to the publisher, with what was added behind the report. -/
structure AggregatedReport where
  receiverReport : ReceiverReport
  nack : Option Block
  remb : Option Block
  type : PacketType
  deriving DecidableEq, Repr

/-- What `checkRtcpFb` comes to at a source. -/
structure SourceCheck where
  data : RtcpData
  report : Option AggregatedReport := none
  sendsPli : Bool := false

namespace RtcpAggregator

def new (maxVideoBw : UInt32) (sink : SinkSSRC) (audioSourceSsrc : UInt32)
    (videoSourceSsrcList : List UInt32) : RtcpAggregator where
  defaultVideoBw := maxVideoBw / 2
  sink := sink
  audioSourceSsrc := audioSourceSsrc
  videoSourceSsrcList := videoSourceSsrcList

variable (a : RtcpAggregator)

def videoSourceSsrc : UInt32 := a.videoSourceSsrcList.headD 0

/-- Insertion keeps a source that is there. -/
def addSourceSsrc (ssrc : UInt32) : RtcpAggregator :=
  let mediaType := if ssrc = a.audioSourceSsrc then .audio else .video
  { a with rtcpData := a.rtcpData.insert ssrc { mediaType := mediaType } }

/-- Replace what is known of a source. -/
def update (ssrc : UInt32) (f : RtcpData → RtcpData) : RtcpAggregator :=
  match a.rtcpData.find ssrc with
  | none => a
  | some d => { a with rtcpData := a.rtcpData.assign ssrc (f d) }

/-- Twenty sender reports are kept. -/
def analyzeSr (data : List UInt8) (chead : ℕ) (now : UInt64) : RtcpAggregator :=
  let recvSSRC := getSSRC data chead
  let ntp := ((getNtpTimestamp data chead &&& 0xFFFFFFFF0000) >>> 16).toUInt32
  (a.addSourceSsrc recvSSRC).update recvSSRC fun d =>
    let senderReports := d.senderReports ++ [⟨ntp, now⟩]
    { d with senderReports :=
        if senderReports.length > 20 then senderReports.tail else senderReports }

def analyzeFeedback (b : RtcpBuffer) (r : FeedbackReading) : RtcpAggregator :=
  if b.IsFeedback then
    if getBlockCount b.data 0 = 0 ∧ blockLength b.data 0 = b.length then a
    else
      let sourceSsrc := getSourceSSRC b.data 0
      (a.addSourceSsrc sourceSsrc).update sourceSsrc fun d =>
        d.analyzeBlocks a.defaultVideoBw b.data b.length r (b.length + 1) 0 r.delay
  else a

/-! ### The check -/

def addNACK (seqNum blp : UInt16) (sourceSsrc sinkSsrc : UInt32) : Block :=
  .nack 0x81 sinkSsrc sourceSsrc [⟨seqNum, blp⟩] []

def addREMB (bitrate : UInt32) : Block :=
  .other (0x80 ||| RTCP_AFB) RTCP_PS_Feedback_PT
    [a.sink.video, a.videoSourceSsrc, 0x52454D42, 0x1000000 + brLine bitrate.toUInt64,
      a.videoSourceSsrc]

/-- The receiver report on a source, but for the fraction. -/
def receiverReport (sourceSsrc : UInt32) (d : RtcpData) (now : UInt64) (fractionLost : UInt8) :
    ReceiverReport :=
  let isAudio := sourceSsrc = a.audioSourceSsrc
  let edlsr := (now - d.lastSrUpdated).toUInt32
  { ssrc := if isAudio then a.sink.audio else a.sink.video
    sourceSSRC := if isAudio then a.audioSourceSsrc else a.videoSourceSsrc
    highestSeqnum := d.highestSeqNumReceived
    seqnumCycles := d.seqNumCycles
    lostPackets := .ofNat 24 d.totalPacketsLost.toNat
    fractionLost := fractionLost
    jitter := d.jitter
    delaySinceLastSr := d.delaySinceLastSr + edlsr * 65536 / 1000
    lastSr := d.lastSr }

/-- A REMB goes along with the report on a video source, at the latest after a second. -/
def sendsREMB (d : RtcpData) (now : UInt64) : Bool :=
  d.mediaType = .video && (d.shouldSendREMB || (now - d.lastRembSent).toUInt32 > REMB_TIMEOUT)

/-- What is known of a source after a report was sent on it. -/
def sent (d : RtcpData) (r : CheckReading) : RtcpData :=
  let sendsREMB := sendsREMB d r.now
  let dtScheduled := (r.now - d.lastRrWasScheduled).toUInt32
  { d with
    requestRr := false
    prevTotalPacketsLost := d.totalPacketsLost
    prevExtendedSeqNo := d.extendedSeqNo
    nackSeqnum := if d.shouldSendNACK then 0 else d.nackSeqnum
    nackBlp := if d.shouldSendNACK then 0 else d.nackBlp
    shouldSendNACK := false
    shouldSendREMB := d.shouldSendREMB && !sendsREMB
    lastRembSent := if sendsREMB then r.now else d.lastRembSent
    lastRrSent := r.now
    shouldReset := d.shouldReset || dtScheduled > d.nextPacketInMs
    lastRrWasScheduled := r.now
    nextPacketInMs := r.nextPacketInMs }

def afterReport (d : RtcpData) (r : CheckReading) : RtcpData :=
  if (sent d r).shouldReset then (sent d r).resetData a.defaultVideoBw else sent d r

/-- The packet for the publisher. -/
def report (sourceSsrc : UInt32) (d : RtcpData) (now : UInt64) (fractionLost : UInt8) :
    AggregatedReport where
  receiverReport := a.receiverReport sourceSsrc d now fractionLost
  nack :=
    if d.shouldSendNACK then
      some (addNACK d.nackSeqnum d.nackBlp sourceSsrc
        (if sourceSsrc = a.audioSourceSsrc then a.sink.audio else a.sink.video))
    else none
  remb := if sendsREMB d now then some (a.addREMB d.reportedBandwidth.toUInt32) else none
  type := if a.videoSourceSsrcList.contains sourceSsrc then .video else .audio

/-- A turn of the loop over the sources, if all that it computes is defined. -/
def checkSource (sourceSsrc : UInt32) (d : RtcpData) (r : CheckReading) : Option SourceCheck :=
  if d.isDue r then
    d.fractionLost.map fun fractionLost =>
      { data := { a.afterReport d r with shouldSendPli := false }
        report := some (a.report sourceSsrc d r.now fractionLost)
        sendsPli := d.shouldSendPli }
  else some { data := { d with shouldSendPli := false }, sendsPli := d.shouldSendPli }

/-- The loop over the sources. -/
def checkSources (r : UInt32 → CheckReading) :
    List (UInt32 × RtcpData) → Option (List (UInt32 × SourceCheck))
  | [] => some []
  | p :: ps =>
    (a.checkSource p.1 p.2 (r p.1)).bind fun c =>
      (checkSources r ps).map fun cs => (p.1, c) :: cs

/-- The aggregator after the loop. -/
def afterChecks (cs : List (UInt32 × SourceCheck)) : RtcpAggregator :=
  { a with rtcpData := cs.foldl (fun m c => m.assign c.1 c.2.data) a.rtcpData }

def checkRtcpFb (r : UInt32 → CheckReading) : Option (RtcpAggregator × List (UInt32 × SourceCheck)) :=
  (a.checkSources r a.rtcpData.pairs).map fun cs => (a.afterChecks cs, cs)

end RtcpAggregator

end KkLicode.Rtp
