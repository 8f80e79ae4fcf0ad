import KkLicode.Sdp.SdpLines
import Mathlib.Data.List.Monad

/-! The text of a description, and how a local description comes about: as an offer or
in answer to one, with its credentials. `getSdp` has no result where it prints a member
that was never written, or where a loop with a byte as index does not end. -/

namespace KkLicode.Sdp

open Base

def SDP_IDENTIFIER : Text := "LicodeMCU".toList

/-- An `unsigned int` as it is printed. -/
def showUnsigned (n : UInt32) : Text := Nat.toDigits 10 n.toNat

/-- An `int` as it is printed. -/
def showInt (n : ℤ) : Text :=
  if n < 0 then '-' :: Nat.toDigits 10 n.natAbs else Nat.toDigits 10 n.natAbs

def HostType.toText : HostType → Text
  | .host => "host".toList
  | .srflx => "srflx".toList
  | .prflx => "prflx".toList
  | .relay => "relay".toList

/-- The related address, printed for a reflexive or a relayed candidate. -/
def stringifyRelated (candidate : CandidateInfo) : Option Text :=
  if candidate.hostType = .srflx ∨ candidate.hostType = .relay then do
    return " raddr ".toList ++ candidate.rAddress ++ " rport ".toList ++
      showInt (← candidate.rPort)
  else some []

def stringifyCandidate (candidate : CandidateInfo) : Option Text := do
  let related ← stringifyRelated candidate
  return Marker.cand ++ candidate.foundation ++ ' ' :: showUnsigned candidate.componentId ++
    ' ' :: candidate.netProtocol ++ ' ' :: showUnsigned candidate.priority ++
    ' ' :: candidate.hostAddress ++ ' ' :: showInt candidate.hostPort ++ " typ ".toList ++
    candidate.hostType.toText ++ related ++ " generation 0".toList

def alphanum : Text :=
  "0123456789ABCDEFGHIJKLMNOPQRSTUVWXYZabcdefghijklmnopqrstuvwxyz".toList

/-- A random text from the numbers that `rand` returns. -/
def genRandom (rands : List ℕ) : Text := rands.map fun rand =>
  alphanum.get ⟨rand % alphanum.length, Nat.mod_lt _ (by decide)⟩

/-- The elements that a loop with a byte as index visits. -/
def byteLoop {α : Type*} (l : List α) : Option (List α) := if l.length < 256 then some l else none

namespace SdpInfo

variable (info : SdpInfo)

def updateSupportedExtensionMap (extMap : List ExtMap) : SdpInfo :=
  { info with supportedExtMap := extMap }

def isValidExtension (uri : Text) : Bool := info.supportedExtMap.any (·.uri = uri)

def setCredentials (username password : Text) : MediaType → SdpInfo
  | .video => { info with iceVideoUsername := username, iceVideoPassword := password }
  | .audio => { info with iceAudioUsername := username, iceAudioPassword := password }
  | .other => { info with
      iceVideoUsername := username
      iceVideoPassword := password
      iceAudioUsername := username
      iceAudioPassword := password }

def createOfferSdp (videoEnabled audioEnabled bundle : Bool) : SdpInfo :=
  { info with
    payloadVector := info.internalPayloadVector
    isBundle := bundle
    profile := .savpf
    isRtcpMux := true
    videoSdpMLine := if videoEnabled then 0 else info.videoSdpMLine
    audioSdpMLine := if audioEnabled then 0 else info.audioSdpMLine
    videoCodecs :=
      info.videoCodecs + info.internalPayloadVector.countP (·.mediaType = some .video)
    audioCodecs :=
      info.audioCodecs + info.internalPayloadVector.countP (·.mediaType = some .audio)
    hasVideo := videoEnabled
    hasAudio := audioEnabled
    videoDirection := some .sendrecv
    audioDirection := some .sendrecv }

/-- The direction in answer to one. An unwritten one is taken for the default. -/
def answerDirection : Option StreamDirection → StreamDirection
  | some .sendonly => .recvonly
  | some .recvonly => .sendonly
  | some .sendrecv => .sendrecv
  | none => .sendrecv

def setOfferSdp (offerSdp : SdpInfo) : SdpInfo :=
  { info with
    toNegotiated := offerSdp.toNegotiated
    isBundle := offerSdp.isBundle
    profile := offerSdp.profile
    isRtcpMux := offerSdp.isRtcpMux
    videoSdpMLine := offerSdp.videoSdpMLine
    audioSdpMLine := offerSdp.audioSdpMLine
    hasVideo := offerSdp.hasVideo
    hasAudio := offerSdp.hasAudio
    bundleTags := offerSdp.bundleTags
    extMapVector := offerSdp.extMapVector
    videoDirection := some (answerDirection offerSdp.videoDirection)
    audioDirection := some (answerDirection offerSdp.audioDirection) }

/-- The codecs of a section. -/
def sectionCodecs (mtype : MediaType) : Option (List RtpMap) :=
  if ∀ codec ∈ info.payloadVector, codec.mediaType.isSome then
    some (info.payloadVector.filter (·.mediaType = some mtype))
  else none

/-- The payload types of a section, with a blank behind all but the last of `count`. -/
def showPayloadTypes (codecs : List RtpMap) (count : ℕ) : Text :=
  (codecs.zipIdx 1).flatMap fun (codec, codecCounter) =>
    showUnsigned codec.payloadType ++ if codecCounter < count then [' '] else []

def bundleLines (msidtemp : Text) : Option (List Text) :=
  if info.isBundle then do
    return ["a=group:BUNDLE".toList ++ (← byteLoop info.bundleTags).flatMap (' ' :: ·.id),
      "a=msid-semantic: WMS ".toList ++ msidtemp]
  else some []

def sessionLines (msidtemp : Text) : Option (List Text) := do
  let bundle ← info.bundleLines msidtemp
  return ["v=0".toList, "o=- 0 0 IN IP4 127.0.0.1".toList, "s=".toList ++ SDP_IDENTIFIER,
    "t=0 0".toList] ++ bundle

/-- The line that opens a section, and the lines behind it. -/
def mediaLines (marker : Text) (codecs : List RtpMap) (count : ℕ) : List Text :=
  let protocol := match info.profile with
    | .savpf => " UDP/TLS/RTP/SAVPF "
    | .avpf => " RTP/AVPF "
  [marker ++ " 1".toList ++ protocol.toList ++ showPayloadTypes codecs count,
    "c=IN IP4 0.0.0.0".toList] ++
    if info.isRtcpMux then ["a=rtcp:1 IN IP4 0.0.0.0".toList] else []

def credentialLines (username password : Text) : List Text :=
  [Marker.iceUser ++ ':' :: username, Marker.icePass ++ ':' :: password]

def fingerprintLines : List Text :=
  if info.isFingerprint then [Marker.fp ++ ":sha-256 ".toList ++ info.fingerprint] else []

def setupLine : DtlsRole → Text
  | .actpass => Marker.setup ++ "actpass".toList
  | .passive => Marker.setup ++ "passive".toList
  | .active => Marker.setup ++ "active".toList

def directionLine : StreamDirection → Text
  | .sendonly => Marker.sendonly
  | .sendrecv => Marker.sendrecv
  | .recvonly => Marker.recvonly

def extmapLine (extension : ExtMap) : Text :=
  Marker.extmap ++ showUnsigned extension.value ++ ' ' :: extension.uri

/-- The extensions that a section prints. -/
def sectionExtensions (mtype : MediaType) : List ExtMap :=
  info.extMapVector.filter fun extension =>
    extension.mediaType = mtype ∧ info.isValidExtension extension.uri

def extmapLines (mtype : MediaType) : Option (List Text) := do
  let _ ← byteLoop info.extMapVector
  return (info.sectionExtensions mtype).map extmapLine

def midLine (id : Text) : Text := Marker.mid ++ ':' :: id

def midLines (mtype : MediaType) : Option (List Text) := do
  return ((← byteLoop info.bundleTags).filter (·.mediaType = mtype)).map (midLine ·.id)

def muxLines : List Text := if info.isRtcpMux then [Marker.rtcpmux] else []

def cryptoLines (mtype : MediaType) : List Text :=
  (info.cryptoVector.filter (·.mediaType = mtype)).map fun crypInfo =>
    Marker.crypto ++ showInt crypInfo.tag ++ ' ' :: crypInfo.cipherSuite ++
      " inline:".toList ++ crypInfo.keyParams

/-- The payload type is printed as an `int`. -/
def rtpmapLine (codec : RtpMap) (clock : UInt32) (channels : Text) : Text :=
  Marker.rtpmap ++ showInt (toInt codec.payloadType) ++ ' ' :: codec.encodingName ++
    '/' :: showUnsigned clock ++ channels

def feedbackLine (pt : UInt32) (type : Text) : Text :=
  Marker.rtcpfb ++ showInt (toInt pt) ++ ' ' :: type

/-- The option `none` stands for a value without an option. -/
def parameterLine (pt : UInt32) (parameter : Text × Text) : Text :=
  Marker.fmtp ++ showInt (toInt pt) ++ ' ' ::
    if parameter.1 = "none".toList then parameter.2 else parameter.1 ++ '=' :: parameter.2

def attributeLines (codec : RtpMap) : List Text :=
  codec.feedbackTypes.map (feedbackLine codec.payloadType) ++
    codec.formatParameters.pairs.map (parameterLine codec.payloadType)

/-- Audio codecs are printed with their channels if there is more than one. -/
def showChannels (codec : RtpMap) : Option Text := do
  let channels ← codec.channels
  return if 1 < channels then '/' :: showUnsigned channels else []

def audioCodecLines (codec : RtpMap) : Option (List Text) := do
  return rtpmapLine codec (← codec.clockRate) (← showChannels codec) :: attributeLines codec

def videoCodecLines (codec : RtpMap) : Option (List Text) := do
  return rtpmapLine codec (← codec.clockRate) [] :: attributeLines codec

def ssrcLines (msidtemp label : Text) (ssrc : UInt32) : List Text :=
  [" cname:o/i14u9pJrxRKAsu".toList, " msid:".toList ++ msidtemp ++ ' ' :: label,
    " mslabel:".toList ++ msidtemp, " label:".toList ++ msidtemp ++ label].map fun value =>
      Marker.ssrctag ++ showUnsigned ssrc ++ value

/-- The streams with their defaults, which printing a section writes. -/
def printedAudioSsrc : UInt32 := if info.audioSsrc = 0 then 44444 else info.audioSsrc

def printedVideoSsrcs : List UInt32 :=
  if info.videoSsrcList = [] then [55543] else info.videoSsrcList

/-- Without a username audio prints the credentials of video. -/
def printedAudioCredentials : Text × Text :=
  if info.iceAudioUsername = [] then (info.iceVideoUsername, info.iceVideoPassword)
  else (info.iceAudioUsername, info.iceAudioPassword)

def audioLines (msidtemp : Text) : Option (List Text) := do
  let codecs ← info.sectionCodecs .audio
  let candidates ← (info.candidateVector.filter
    (·.mediaType = .audio ∨ info.isBundle)).mapM stringifyCandidate
  let direction ← info.audioDirection
  let extmaps ← info.extmapLines .audio
  let mids ← info.midLines .audio
  let codecLines ← codecs.mapM audioCodecLines
  return info.mediaLines Marker.audio codecs info.audioCodecs ++ candidates ++
    credentialLines info.printedAudioCredentials.1 info.printedAudioCredentials.2 ++
    info.fingerprintLines ++ [setupLine info.dtlsRole, directionLine direction] ++ extmaps ++
    mids ++ info.muxLines ++ info.cryptoLines .audio ++ codecLines.flatten ++
    if direction = .recvonly then []
    else ssrcLines msidtemp "a0".toList info.printedAudioSsrc

def videoLines (msidtemp : Text) : Option (List Text) := do
  let codecs ← info.sectionCodecs .video
  let candidates ← (info.candidateVector.filter (·.mediaType = .video)).mapM stringifyCandidate
  let extmaps ← info.extmapLines .video
  let direction ← info.videoDirection
  let mids ← info.midLines .video
  let codecLines ← codecs.mapM videoCodecLines
  return info.mediaLines Marker.video codecs info.videoCodecs ++ candidates ++
    credentialLines info.iceVideoUsername info.iceVideoPassword ++ extmaps ++
    info.fingerprintLines ++ [setupLine info.dtlsRole, directionLine direction] ++
    mids ++ info.muxLines ++ info.cryptoLines .video ++ codecLines.flatten ++
    if direction = .recvonly then []
    else info.printedVideoSsrcs.flatMap (ssrcLines msidtemp "v0".toList)

/-- All lines. -/
def sdpLines (msidtemp : Text) : Option (List Text) := do
  let session ← info.sessionLines msidtemp
  let audio ← if info.hasAudio then info.audioLines msidtemp else some []
  let video ← if info.hasVideo then info.videoLines msidtemp else some []
  return session ++ audio ++ video

/-- The text of some lines. -/
def printLines (lines : List Text) : Text := lines.flatMap (· ++ ['\n'])

/-- The stream label is a parameter: the code takes ten characters of `genRandom`. -/
def getSdp (msidtemp : Text) : Option (SdpInfo × Text) := do
  let lines ← info.sdpLines msidtemp
  return ({ info with
    audioSsrc := if info.hasAudio then info.printedAudioSsrc else info.audioSsrc
    videoSsrcList := if info.hasVideo then info.printedVideoSsrcs else info.videoSsrcList },
    printLines lines)

end SdpInfo

/-- The call that makes a local description. -/
inductive Origin
  | createOfferSdp (videoEnabled audioEnabled bundle : Bool)
  | setOfferSdp (offerSdp : SdpInfo)

/-- The calls for a local description: the one that makes it, and the ones for its
credentials. -/
structure LocalSdp where
  internalPayloadVector : List RtpMap
  origin : Origin
  extMap : List ExtMap
  credentials : List (Text × Text × MediaType)

/-- The description that the calls leave. -/
def LocalSdp.info (l : LocalSdp) : SdpInfo :=
  let made := match l.origin with
    | .createOfferSdp videoEnabled audioEnabled bundle =>
      (SdpInfo.new l.internalPayloadVector).createOfferSdp videoEnabled audioEnabled bundle
    | .setOfferSdp offerSdp => (SdpInfo.new l.internalPayloadVector).setOfferSdp offerSdp
  l.credentials.foldl (fun info (username, password, media) =>
    info.setCredentials username password media) (made.updateSupportedExtensionMap l.extMap)

end KkLicode.Sdp
