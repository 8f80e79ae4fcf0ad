import KkLicode.Sdp.SdpInfo

/-! The lines of a session description. A line is searched for all markers; a marker
counts wherever it stands in the line. The handlers come in the order of the code,
each on the members it writes; `none` is a line on which the code has no behaviour: a
piece that is not there, the last character of an empty text, a loop that never ends. -/

namespace KkLicode.Sdp

open Base

namespace Marker

def cand : Text := "a=candidate:".toList
def crypto : Text := "a=crypto:".toList
def group : Text := "a=group:".toList
def video : Text := "m=video".toList
def audio : Text := "m=audio".toList
def mid : Text := "a=mid".toList
def sendrecv : Text := "a=sendrecv".toList
def recvonly : Text := "a=recvonly".toList
def sendonly : Text := "a=sendonly".toList
def iceUser : Text := "a=ice-ufrag".toList
def icePass : Text := "a=ice-pwd".toList
def ssrctag : Text := "a=ssrc:".toList
def ssrcgrouptag : Text := "a=ssrc-group".toList
def savpf : Text := "SAVPF".toList
def rtpmap : Text := "a=rtpmap:".toList
def rtcpmux : Text := "a=rtcp-mux".toList
def fp : Text := "a=fingerprint".toList
def setup : Text := "a=setup:".toList
def extmap : Text := "a=extmap:".toList
def rtcpfb : Text := "a=rtcp-fb:".toList
def fmtp : Text := "a=fmtp:".toList
def bas : Text := "b=AS:".toList

end Marker

def kAssociatedPt : Text := "apt".toList
def kSimulcastGroup : Text := "SIM".toList
def kFidGroup : Text := "FID".toList

/-- The directions of video and audio. Only an audio section sets the one of audio. -/
def setDirection (line : Text) (mtype : MediaType)
    (directions : Option StreamDirection × Option StreamDirection) :
    Option StreamDirection × Option StreamDirection :=
  let set (direction : StreamDirection) :=
    if mtype = .audio then (directions.1, some direction) else (some direction, directions.2)
  if line.Has Marker.recvonly then set .recvonly
  else if line.Has Marker.sendonly then set .sendonly
  else if line.Has Marker.sendrecv then set .sendrecv
  else directions

def parseFingerprint (line : Text) : Option Text := do
  let parts := splitOneOf line ":".toList 1
  (splitOneOf (← parts[1]?) " ".toList 0)[1]?

def parseSetup (line : Text) : Option DtlsRole := do
  let role ← (splitOneOf line ":".toList 1)[1]?
  return if role.Has "passive".toList then .passive
    else if role.Has "active".toList then .active
    else .actpass

/-- The tags that a line adds. -/
def groupTags (line : Text) : List BundleTag :=
  if line.Has Marker.group then
    ((splitOneOf line ":  \r\n".toList 10).drop 2).map fun part => ⟨part, .other⟩
  else []

def parseGroup (line : Text) (isBundle : Bool) : Option Bool := do
  let kind ← (splitOneOf line ":  \r\n".toList 10)[1]?
  return isBundle || kind = "BUNDLE".toList

/-- The type of a candidate, `host` for an unknown name. -/
def hostTypeOf (name : Text) : HostType :=
  if name = "srflx".toList then .srflx
  else if name = "prflx".toList then .prflx
  else if name = "relay".toList then .relay
  else .host

/-- The value of an `unsigned int` as an `int`. -/
def toInt (n : UInt32) : ℤ := n.toBitVec.toInt

/-- The related address and its port, read for a reflexive or a relayed candidate. -/
def relatedAddress (pieces : List Text) (hostType : HostType) : Option (Text × Option ℤ) :=
  if hostType = .srflx ∨ hostType = .relay then do
    return (← pieces[10]?, some (toInt (strtoul (← pieces[12]?)).toUInt32))
  else some ([], none)

/-- The candidate to push, if the line is not ignored. -/
def processCandidate (pieces : List Text) (mediaType : MediaType) (line : Text) :
    Option (Option CandidateInfo) := do
  let foundation ← pieces[1]?
  let componentId ← pieces[2]?
  let netProtocol ← pieces[3]?
  if netProtocol ≠ "UDP".toList ∧ netProtocol ≠ "udp".toList then return none else
  let priority ← pieces[4]?
  let hostAddress ← pieces[5]?
  let hostPort ← pieces[6]?
  if (← pieces[7]?) ≠ "typ".toList then return none else
  let hostType := hostTypeOf (← pieces[8]?)
  let (rAddress, rPort) ← relatedAddress pieces hostType
  return some {
    priority := (strtoul priority).toUInt32
    componentId := (strtoul componentId).toUInt32
    foundation, hostAddress, rAddress, netProtocol, hostType, mediaType, rPort
    hostPort := toInt (strtoul hostPort).toUInt32
    sdp := line }

def pushCandidate (line : Text) (mtype : MediaType) (candidates : List CandidateInfo) :
    Option (List CandidateInfo) := do
  return candidates ++ (← processCandidate (splitOneOf line " :".toList 0) mtype line).toList

def pushCrypto (line : Text) (mediaType : MediaType) (cryptos : List CryptoInfo) :
    Option (List CryptoInfo) := do
  let pieces := splitOneOf line " :".toList 0
  return cryptos ++ [{ cipherSuite := ← pieces[2]?, keyParams := ← pieces[4]?, mediaType }]

/-- The text behind the first colon, up to a carriage return. -/
def parseCredential (line : Text) : Option Text := do
  let value ← (splitOneOf line ":".toList 1)[1]?
  (splitOneOf value "\r".toList 1)[0]?

/-- Credentials before the first section are taken for the ones of video. -/
def setVideoCredential (line : Text) (mtype : MediaType) (credential : Text) : Option Text :=
  if mtype = .audio then some credential else parseCredential line

def setAudioCredential (line : Text) (mtype : MediaType) (credential : Text) : Option Text :=
  if mtype = .audio then parseCredential line else some credential

/-- The tags with the name of an `a=mid` line get the media type of the section. The
index of the loop is a byte, so that it does not end with more than 255 tags. -/
def setMid (line : Text) (mtype : MediaType) (isBundle : Bool) (tags : List BundleTag) :
    Option (List BundleTag) :=
  match (splitOneOf line ": \r\n".toList 4)[1]?, isBundle with
  | some thisId, true =>
    if tags.length < 256 then
      some (tags.map fun tag => if tag.id = thisId then { tag with mediaType := mtype } else tag)
    else none
  | _, _ => some tags

/-- A new stream is added unless it is a stream of retransmissions. -/
def maybeAddSsrcToList (rtx : StdMap UInt32 UInt32) (list : List UInt32) (ssrc : UInt32) :
    List UInt32 :=
  if (rtx.find ssrc).isSome ∨ list.contains ssrc then list else list ++ [ssrc]

def parseSsrc (line : Text) : Option UInt32 := do
  return (strtoul (← (splitOneOf line " :".toList 2)[1]?)).toUInt32

def addSsrc (line : Text) (mtype : MediaType) (rtx : StdMap UInt32 UInt32) (list : List UInt32) :
    Option (List UInt32) :=
  if mtype = .video then do return maybeAddSsrcToList rtx list (← parseSsrc line) else some list

/-- The first stream of audio stays. -/
def setAudioSsrc (line : Text) (mtype : MediaType) (ssrc : UInt32) : Option UInt32 :=
  if mtype = .audio ∧ ssrc = 0 then parseSsrc line else some ssrc

/-- The pieces of an `a=ssrc-group` line. -/
def groupParts (line : Text) : List Text := splitOneOf line " :".toList 10

/-- The handler of `a=ssrc-group` leaves the line with `continue`. -/
def GroupSkips (line : Text) (mtype : MediaType) : Prop :=
  line.Has Marker.ssrcgrouptag ∧ (mtype ≠ .video ∨ (groupParts line).length < 4 ∨
    (groupParts line)[1]? = some kFidGroup ∧ (groupParts line).length ≠ 4)

instance (line : Text) (mtype : MediaType) : Decidable (GroupSkips line mtype) :=
  inferInstanceAs (Decidable (_ ∧ _))

/-- The line has a group of the given name to handle. -/
def HasGroup (line name : Text) (mtype : MediaType) : Prop :=
  line.Has Marker.ssrcgrouptag ∧ ¬ GroupSkips line mtype ∧ (groupParts line)[1]? = some name

instance (line name : Text) (mtype : MediaType) : Decidable (HasGroup line name mtype) :=
  inferInstanceAs (Decidable (_ ∧ _))

/-- The streams of a group line. -/
def groupSsrcs (line : Text) : List UInt32 :=
  ((groupParts line).drop 2).map fun part => (strtoul part).toUInt32

/-- The streams that a simulcast group names. -/
def simulcastSsrcs (line : Text) (mtype : MediaType) : List UInt32 :=
  if HasGroup line kSimulcastGroup mtype then groupSsrcs line else []

/-- A retransmission group maps the second stream to the first one. -/
def addFidGroup (line : Text) (mtype : MediaType) (rtx : StdMap UInt32 UInt32) :
    StdMap UInt32 UInt32 :=
  if HasGroup line kFidGroup mtype then
    match groupSsrcs line with
    | [original, retransmitted] => rtx.assign retransmitted original
    | _ => rtx
  else rtx

/-- The codec of a payload type, a new one without name or clock rate if there is none. -/
def codecOf (parsed : StdMap UInt32 RtpMap) (pt : UInt32) : RtpMap :=
  (parsed.find pt).getD { payloadType := pt }

def parseRtpmap (line : Text) : Option (UInt32 × Text × UInt32) := do
  let parts := splitOneOf line " :/\n".toList 4
  return ((strtoul (← parts[1]?)).toUInt32, ← parts[2]?, (strtoul (← parts[3]?)).toUInt32)

def processRtpmap (line : Text) (mtype : MediaType) (parsed : StdMap UInt32 RtpMap) :
    Option (StdMap UInt32 RtpMap) := do
  let (pt, codecname, parsedClock) ← parseRtpmap line
  return parsed.assign pt { codecOf parsed pt with
    payloadType := pt
    encodingName := codecname
    clockRate := some parsedClock
    mediaType := some mtype }

/-- An extension is pushed without the last character of the line. -/
def pushExtmap (line : Text) (mtype : MediaType) (extensions : List ExtMap) :
    Option (List ExtMap) :=
  let parts := splitOneOf line " :=".toList 3
  if parts.length < 3 then some extensions else do
    return extensions ++ [⟨(strtoul (← parts[2]?)).toUInt32, (← parts[3]?).dropLast, mtype⟩]

def parseFeedback (line : Text) : Option (UInt32 × Text) := do
  let parts := splitOneOf line " :".toList 2
  return ((strtoul (← parts[1]?)).toUInt32, ← (← parts[2]?).popBack)

def processFeedback (line : Text) (parsed : StdMap UInt32 RtpMap) :
    Option (StdMap UInt32 RtpMap) := do
  let (pt, feedback) ← parseFeedback line
  let codec := codecOf parsed pt
  return parsed.assign pt { codec with feedbackTypes := codec.feedbackTypes ++ [feedback] }

/-- The pieces of an `a=fmtp` line. -/
def fmtpParts (line : Text) : List Text := splitOneOf line " :=".toList 4

/-- The handler of `a=fmtp` leaves the line with `continue`. -/
def FmtpSkips (line : Text) : Prop := line.Has Marker.fmtp ∧ (fmtpParts line).length < 4

instance (line : Text) : Decidable (FmtpSkips line) := inferInstanceAs (Decidable (_ ∧ _))

/-- Payload type, option and value; a value without an option has the option `none`. -/
def parseFmtp (line : Text) : Option (UInt32 × Text × Text) := do
  let parts := fmtpParts line
  let pt := (strtoul (← parts[2]?)).toUInt32
  let part ← parts[3]?
  match parts[4]? with
  | none => return (pt, "none".toList, ← part.cStr.popBack)
  | some value => return (pt, part.cStr, ← value.cStr.popBack)

def processFmtp (line : Text) (parsed : StdMap UInt32 RtpMap) : Option (StdMap UInt32 RtpMap) :=
  if FmtpSkips line then some parsed else do
    let (pt, option, value) ← parseFmtp line
    let codec := codecOf parsed pt
    return parsed.assign pt { codec with
      formatParameters := codec.formatParameters.assign option value }

def parseBandwidth (line : Text) (videoBandwidth : UInt32) : UInt32 :=
  match (splitOneOf line ":".toList 2)[1]? with
  | none => videoBandwidth
  | some bandwidth => (strtoul bandwidth).toUInt32

/-- The handler of a marker changes its members only on a line with the marker. -/
def Text.on {α : Type*} (line marker : Text) (handler : α → Option α) (member : α) : Option α :=
  if line.Has marker then handler member else some member

/-- What the loop over the lines keeps beside the description. -/
structure Loop where
  info : SdpInfo
  mlineNum : ℤ := -1
  mtype : MediaType

/-- The section of a line; the line may open it itself. -/
def lineMedia (mtype : MediaType) (line : Text) : MediaType :=
  if line.Has Marker.audio then .audio
  else if line.Has Marker.video then .video
  else mtype

/-- The handlers up to the ones of the codecs. -/
def sessionLine (loop : Loop) (line : Text) : Option Loop := do
  let info := loop.info
  let directions := setDirection line loop.mtype (info.videoDirection, info.audioDirection)
  let fingerprint ← line.on Marker.fp (fun _ => parseFingerprint line) info.fingerprint
  let dtlsRole ← line.on Marker.setup (fun _ => parseSetup line) info.dtlsRole
  let isBundle ← line.on Marker.group (parseGroup line) info.isBundle
  let videoMLine := if line.Has Marker.video then loop.mlineNum + 1 else loop.mlineNum
  let mlineNum := if line.Has Marker.audio then videoMLine + 1 else videoMLine
  let mtype := lineMedia loop.mtype line
  let candidateVector ← line.on Marker.cand (pushCandidate line mtype) info.candidateVector
  let cryptoVector ← line.on Marker.crypto (pushCrypto line mtype) info.cryptoVector
  let videoUsername ← line.on Marker.iceUser (setVideoCredential line mtype) info.iceVideoUsername
  let audioUsername ← line.on Marker.iceUser (setAudioCredential line mtype) info.iceAudioUsername
  let videoPassword ← line.on Marker.icePass (setVideoCredential line mtype) info.iceVideoPassword
  let audioPassword ← line.on Marker.icePass (setAudioCredential line mtype) info.iceAudioPassword
  let bundleTags ← line.on Marker.mid (setMid line mtype isBundle) (info.bundleTags ++ groupTags line)
  let videoSsrcList ← line.on Marker.ssrctag (addSsrc line mtype info.videoRtxSsrcMap) info.videoSsrcList
  let audioSsrc ← line.on Marker.ssrctag (setAudioSsrc line mtype) info.audioSsrc
  return {
    mlineNum, mtype
    info := { info with
      isRtcpMux := info.isRtcpMux || line.Has Marker.rtcpmux
      videoDirection := directions.1
      audioDirection := directions.2
      profile := if line.Has Marker.savpf then .savpf else info.profile
      fingerprint
      isFingerprint := info.isFingerprint || line.Has Marker.fp
      dtlsRole, isBundle, bundleTags, candidateVector, cryptoVector
      videoSdpMLine := if line.Has Marker.video then videoMLine else info.videoSdpMLine
      audioSdpMLine := if line.Has Marker.audio then mlineNum else info.audioSdpMLine
      hasVideo := info.hasVideo || line.Has Marker.video
      hasAudio := info.hasAudio || line.Has Marker.audio
      iceVideoUsername := videoUsername
      iceAudioUsername := audioUsername
      iceVideoPassword := videoPassword
      iceAudioPassword := audioPassword
      audioSsrc
      videoSsrcList :=
        (simulcastSsrcs line mtype).foldl (maybeAddSsrcToList info.videoRtxSsrcMap) videoSsrcList
      videoRtxSsrcMap := addFidGroup line mtype info.videoRtxSsrcMap } }

/-- The handlers of the codecs and of the bandwidth. -/
def codecLine (loop : Loop) (line : Text) : Option Loop := do
  let info := loop.info
  let parsed ← line.on Marker.rtpmap (processRtpmap line loop.mtype) info.payloadParsedMap
  let extMapVector ← line.on Marker.extmap (pushExtmap line loop.mtype) info.extMapVector
  let parsed ← line.on Marker.rtcpfb (processFeedback line) parsed
  let payloadParsedMap ← line.on Marker.fmtp (processFmtp line) parsed
  return { loop with
    info := { info with
      payloadParsedMap, extMapVector
      videoBandwidth :=
        if line.Has Marker.bas ∧ loop.mtype = .video ∧ ¬ FmtpSkips line then
          parseBandwidth line info.videoBandwidth
        else info.videoBandwidth } }

/-- One round of the loop over the lines. -/
def processLine (loop : Loop) (line : Text) : Option Loop := do
  let loop ← sessionLine loop line
  if GroupSkips line loop.mtype then return loop else codecLine loop line

/-- The section before the first `m=` line. -/
def mediaOf (media : Text) : MediaType :=
  if media = "audio".toList then .audio
  else if media = "video".toList then .video
  else .other

/-- The loop over the lines of a description. -/
def readLines (info : SdpInfo) (sdp media : Text) : Option Loop :=
  (getlines sdp).foldlM processLine { info, mtype := mediaOf media }

end KkLicode.Sdp
