import KkLicode.Sdp.SdpLines

/-! The negotiation behind the lines. The codecs of the configuration and the ones of
the description are compared pair by pair; a pair with equal name and clock rate is
agreed on, but retransmission codecs wait for a second pass that looks up what their
associated payload type was agreed as. -/

namespace KkLicode.Sdp

open Base

/-- The name of the retransmission codecs. -/
def rtx : Text := "rtx".toList

/-- The feedback types of both sides. -/
def commonFeedback (internal parsed : List Text) : List Text :=
  internal.flatMap fun feedback => parsed.filter (feedback = ·)

/-- The parameters with the same value on both sides. -/
def commonParameters (internal parsed : StdMap Text Text) : StdMap Text Text :=
  internal.pairs.foldl (fun negotiated parameter =>
    if parsed.find parameter.1 = some parameter.2 then
      negotiated.assign parameter.1 parameter.2
    else negotiated) .empty

/-- What is negotiated for a codec of both sides. -/
def negotiateMap (internal parsed : RtpMap) : RtpMap :=
  { parsed with
    channels := internal.channels
    feedbackTypes := commonFeedback internal.feedbackTypes parsed.feedbackTypes
    formatParameters := commonParameters internal.formatParameters parsed.formatParameters }

/-- A codec is agreed on under an internal payload type. -/
def Negotiated.push (n : Negotiated) (internalPT : UInt32) (codec : RtpMap) : Option Negotiated := do
  let mtype ← codec.mediaType
  return {
    payloadVector := n.payloadVector ++ [codec]
    inOutPTMap := n.inOutPTMap.assign internalPT codec.payloadType
    outInPTMap := n.outInPTMap.assign codec.payloadType internalPT
    videoCodecs := if mtype = .video then n.videoCodecs + 1 else n.videoCodecs
    audioCodecs := if mtype = .video then n.audioCodecs else n.audioCodecs + 1 }

/-- The body of the first loops, which also collect the retransmission codecs. -/
def matchCodec (internal parsed : RtpMap) (s : Negotiated × List RtpMap) :
    Option (Negotiated × List RtpMap) :=
  if internal.encodingName ≠ parsed.encodingName then some s else do
    if (← internal.clockRate) ≠ (← parsed.clockRate) then return s
    else if parsed.encodingName = rtx then return (s.1, s.2 ++ [parsed])
    else return (← s.1.push internal.payloadType (negotiateMap internal parsed), s.2)

/-- The body of the second loops. Looking up a payload type that is not in the map
puts it there with the value 0. -/
def matchRtx (rtxMap internal : RtpMap) (n : Negotiated) : Option Negotiated :=
  if internal.encodingName ≠ rtx then some n else
  match rtxMap.formatParameters.find kAssociatedPt, internal.formatParameters.find kAssociatedPt with
  | none, none => some n
  | some parsedApt, some internalApt => do
    let internalAptPt := (← stoul internalApt).toUInt32
    let parsedAptPt := (← stoul parsedApt).toUInt32
    let n := { n with outInPTMap := n.outInPTMap.insert parsedAptPt 0 }
    if n.outInPTMap.find parsedAptPt = some internalAptPt then n.push internal.payloadType rtxMap
    else return n
  | _, _ => none

def negotiateCodecs (internal : List RtpMap) (parsed : StdMap UInt32 RtpMap) (n : Negotiated) :
    Option (Negotiated × List RtpMap) :=
  internal.foldlM (fun s internalMap =>
    parsed.pairs.foldlM (fun s parsedPair => matchCodec internalMap parsedPair.2 s) s) (n, [])

def negotiateRtx (internal rtxMaps : List RtpMap) (n : Negotiated) : Option Negotiated :=
  rtxMaps.foldlM (fun n rtxMap =>
    internal.foldlM (fun n internalMap => matchRtx rtxMap internalMap n) n) n

def negotiate (internal : List RtpMap) (parsed : StdMap UInt32 RtpMap) (n : Negotiated) :
    Option Negotiated := do
  let (n, rtxMaps) ← negotiateCodecs internal parsed n
  negotiateRtx internal rtxMaps n

def SdpInfo.NoCredentials (info : SdpInfo) : Prop :=
  info.iceVideoUsername = [] ∧ info.iceAudioUsername = []

instance (info : SdpInfo) : Decidable info.NoCredentials := inferInstanceAs (Decidable (_ ∧ _))

/-- Missing credentials of one kind are taken from the other one. -/
def SdpInfo.fillCredentials (info : SdpInfo) : SdpInfo :=
  if info.iceVideoUsername = [] then
    { info with
      iceVideoUsername := info.iceAudioUsername
      iceVideoPassword := info.iceAudioPassword }
  else if info.iceAudioUsername = [] then
    { info with
      iceAudioUsername := info.iceVideoUsername
      iceAudioPassword := info.iceVideoPassword }
  else info

/-- The candidates get the credentials of their section. -/
def SdpInfo.fillCandidates (info : SdpInfo) : SdpInfo :=
  { info with
    candidateVector := info.candidateVector.map fun c => { c with
      isBundle := some info.isBundle
      username := if c.mediaType = .video then info.iceVideoUsername else info.iceAudioUsername
      password := if c.mediaType = .video then info.iceVideoPassword else info.iceAudioPassword } }

def SdpInfo.fillSsrcList (info : SdpInfo) : SdpInfo :=
  if info.videoSsrcList = [] then { info with videoSsrcList := [0] } else info

def SdpInfo.processSdp (info : SdpInfo) (sdp media : Text) : Option (SdpInfo × Bool) := do
  let loop ← readLines info sdp media
  if loop.info.NoCredentials then return (loop.info, false) else
  let info := loop.info.fillCredentials.fillCandidates.fillSsrcList
  let negotiated ← negotiate info.internalPayloadVector info.payloadParsedMap info.toNegotiated
  return ({ info with toNegotiated := negotiated }, true)

def SdpInfo.initWithSdp (info : SdpInfo) (sdp media : Text) : Option (SdpInfo × Bool) :=
  info.processSdp sdp media

end KkLicode.Sdp
