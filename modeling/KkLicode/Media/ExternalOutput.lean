import KkLicode.Media.RtpHeader
import KkLicode.Media.RtpVP8Parser

/-! `ExternalOutput`: the recorder, which puts VP8 frames together from RTP packets
and hands them to the muxer of libav. The queues before the writer, the feedback and
the end of the file are left out. -/

namespace KkLicode.Media

def UNPACKAGE_BUFFER_SIZE : ℕ := 200000

def PCMU_8000_PT : BitVec 7 := 0

def OPUS_48000_PT : BitVec 7 := 111

inductive AVCodecID where
  | AV_CODEC_ID_NONE | AV_CODEC_ID_VP8 | AV_CODEC_ID_PCM_MULAW | AV_CODEC_ID_OPUS
  deriving DecidableEq, Repr

structure AVStream where
  sampleRate : ℤ := 0
  timeBaseDen : ℤ
  deriving DecidableEq, Repr

structure AVPacket where
  data : List UInt8
  pts : ℤ
  streamIndex : ℕ
  deriving DecidableEq, Repr

/-- What libav answers: which encoders it has, whether the file opens, and the time bases
of the two streams once the header is written, if it can be. -/
structure LibAv where
  findEncoder : AVCodecID → Bool
  avioOpen : Bool
  writeHeader : Option (ℤ × ℤ)

inductive VP8SearchState where
  | lookingForStart | lookingForEnd
  deriving DecidableEq, Repr

structure ExternalOutput where
  videoCodec : AVCodecID := .AV_CODEC_ID_VP8
  audioCodec : AVCodecID := .AV_CODEC_ID_NONE
  videoStream : Option AVStream := none
  audioStream : Option AVStream := none
  firstVideoTimestamp : ℤ := -1
  firstAudioTimestamp : ℤ := -1
  firstDataReceived : Option ℤ := none
  videoOffsetMs : ℤ := -1
  audioOffsetMs : ℤ := -1
  /-- Without a value until the first packet. -/
  lastVideoSequenceNumber : UInt16
  vp8SearchState : VP8SearchState := .lookingForStart
  /-- The bytes up to `unpackagedBufferpart_`, of which there are `unpackagedSize_`. -/
  unpackagedBuffer : List UInt8 := []
  deriving DecidableEq, Repr

namespace ExternalOutput

open AVCodecID VP8SearchState

variable (e : ExternalOutput)

/-- Opens both streams when the codecs are known. -/
def initContext (lib : LibAv) : ExternalOutput × Bool :=
  if e.videoCodec ≠ AV_CODEC_ID_NONE ∧ e.audioCodec ≠ AV_CODEC_ID_NONE ∧
      e.videoStream = none ∧ e.audioStream = none then
    if !lib.findEncoder e.videoCodec then (e, false)
    else
      let e := { e with videoStream := some { timeBaseDen := 30 } }
      if !lib.findEncoder e.audioCodec then (e, false)
      else
        let sampleRate := if e.audioCodec = AV_CODEC_ID_PCM_MULAW then 8000 else 48000
        let e := { e with
          audioStream := some { sampleRate := sampleRate, timeBaseDen := sampleRate } }
        if !lib.avioOpen then (e, false)
        else
          match lib.writeHeader with
          | none => (e, false)
          | some (videoDen, audioDen) =>
            ({ e with
              videoStream := some { timeBaseDen := videoDen }
              audioStream := some { sampleRate := sampleRate, timeBaseDen := audioDen } }, true)
  else (e, true)

/-- The part of `queueData` that sets what the writer reads. -/
def queueData (nowMs : ℤ) (audioSinkSSRC : UInt32) (video : Bool) : ExternalOutput :=
  let e := match e.firstDataReceived with
    | some _ => e
    | none => { e with
      firstDataReceived := some nowMs
      audioCodec := if audioSinkSSRC = 0 then AV_CODEC_ID_PCM_MULAW else e.audioCodec }
  let elapsedMs := nowMs - e.firstDataReceived.getD nowMs
  if video then
    if e.videoOffsetMs = -1 then { e with videoOffsetMs := elapsedMs } else e
  else if e.audioOffsetMs = -1 then { e with audioOffsetMs := elapsedMs } else e

/-- The time since the first packet, which wraps once at most. -/
def sinceFirst (first : ℤ) (timestamp : UInt32) : ℤ :=
  let currentTimestamp : ℤ := timestamp.toNat
  let currentTimestamp :=
    if currentTimestamp - first < 0 then currentTimestamp + 0xFFFFFFFF else currentTimestamp
  currentTimestamp - first

/-- A time base finer than that of the codec or than a millisecond, by which the source
divides by zero, is not told apart. -/
def timestampToWrite (first offsetMs : ℤ) (timestamp : UInt32) (rate den : ℤ) : ℤ :=
  (sinceFirst first timestamp).tdiv (rate.tdiv den) + offsetMs.tdiv ((1000 : ℤ).tdiv den)

/-- The choice of the audio codec in `writeAudioData`. -/
def findAudioCodec (payloadtype : BitVec 7) : ExternalOutput :=
  if e.audioCodec = AV_CODEC_ID_NONE then
    if payloadtype = PCMU_8000_PT then { e with audioCodec := AV_CODEC_ID_PCM_MULAW }
    else if payloadtype = OPUS_48000_PT then { e with audioCodec := AV_CODEC_ID_OPUS }
    else e
  else e

def writeAudioData (lib : LibAv) (buf : List UInt8) : ExternalOutput × List AVPacket :=
  let head := RtpHeader.ofBuffer buf
  let e := if e.firstAudioTimestamp = -1 then
      { e with firstAudioTimestamp := head.timestamp.toNat }
    else e
  let e := ((e.findAudioCodec head.payloadtype).initContext lib).1
  match e.audioStream with
  | none => (e, [])
  | some stream =>
    (e, [{ data := buf.drop head.getHeaderLength
           pts := timestampToWrite e.firstAudioTimestamp e.audioOffsetMs head.timestamp
             stream.sampleRate stream.timeBaseDen
           streamIndex := 1 }])

def resetBuffer : ExternalOutput := { e with unpackagedBuffer := [] }

def bufferCheck (dataLength : ℕ) : ExternalOutput × Bool :=
  if dataLength + e.unpackagedBuffer.length ≥ UNPACKAGE_BUFFER_SIZE then
    ({ e.resetBuffer with vp8SearchState := lookingForStart }, false)
  else (e, true)

/-- The payload goes into the buffer if there is room for it. There is no result for a
payload that was not found. -/
def copyPayload (payload : RTPPayloadVP8) : Option (ExternalOutput × Bool) :=
  payload.data.map fun data =>
    if (e.bufferCheck data.length).2 then
      ({ e with unpackagedBuffer := e.unpackagedBuffer ++ data }, true)
    else e.bufferCheck data.length

/-- The search for the start and the end of a frame; the flag is `deliver`. -/
def searchFrame (payload : RTPPayloadVP8) (endOfFrame : Bool) : Option (ExternalOutput × Bool) :=
  match e.vp8SearchState, payload.beginningOfPartition, endOfFrame with
  | lookingForStart, true, true => e.resetBuffer.copyPayload payload
  | lookingForStart, false, false => some (e.resetBuffer, false)
  | lookingForStart, true, false =>
    (e.copyPayload payload).map fun (e, copied) =>
      (if copied then { e with vp8SearchState := lookingForEnd } else e, false)
  | lookingForStart, false, true => some (e.resetBuffer, false)
  | lookingForEnd, true, true =>
    { e.resetBuffer with vp8SearchState := lookingForStart }.copyPayload payload
  | lookingForEnd, false, false => (e.copyPayload payload).map fun (e, _) => (e, false)
  | lookingForEnd, true, false =>
    (e.resetBuffer.copyPayload payload).map fun (e, _) => (e, false)
  | lookingForEnd, false, true => { e with vp8SearchState := lookingForStart }.copyPayload payload

/-- The start of `writeVideoData`. The sum with one is not narrowed to sixteen bits. -/
def checkSeqNumber (head : RtpHeader) : ExternalOutput :=
  let e := if head.seqnum.toNat ≠ e.lastVideoSequenceNumber.toNat + 1 then
      { e.resetBuffer with vp8SearchState := lookingForStart }
    else e
  let e := { e with lastVideoSequenceNumber := head.seqnum }
  if e.firstVideoTimestamp = -1 then { e with firstVideoTimestamp := head.timestamp.toNat } else e

/-- The end of `writeVideoData`: without a stream the buffer keeps what it has. -/
def deliverFrame (lib : LibAv) (head : RtpHeader) (deliver : Bool) :
    ExternalOutput × List AVPacket :=
  let e := (e.initContext lib).1
  match e.videoStream with
  | none => (e, [])
  | some stream =>
    if deliver then
      (e.resetBuffer,
        [{ data := e.unpackagedBuffer
           pts := timestampToWrite e.firstVideoTimestamp e.videoOffsetMs head.timestamp 90000
             stream.timeBaseDen
           streamIndex := 0 }])
    else (e, [])

/-- The frames handed to the muxer. There is no result where the packet is read past its
end, or where a payload that was not found is copied. -/
def writeVideoData (lib : LibAv) (buf : List UInt8) : Option (ExternalOutput × List AVPacket) := do
  let head := RtpHeader.ofBuffer buf
  let payload ← RtpVP8Parser.parseVP8 (buf.drop head.getHeaderLength)
  let (e, deliver) ← (e.checkSeqNumber head).searchFrame payload head.marker
  return e.deliverFrame lib head deliver

end ExternalOutput

end KkLicode.Media
