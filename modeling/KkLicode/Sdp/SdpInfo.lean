import KkLicode.Base.StdMap
import KkLicode.Sdp.StringUtil
import Mathlib.Data.Char
import Mathlib.Data.List.Lex

/-! The data of a session description. A member that the code may leave unwritten is
an option, `none` where nothing was written: the codec of a line that comes without
its `rtpmap` line has no clock rate, and a description without a direction has none.
What the negotiation of the codecs writes is a structure of its own. -/

namespace KkLicode.Sdp

open Base

inductive MediaType
  | video
  | audio
  | other
  deriving DecidableEq, Repr

inductive StreamDirection
  | sendrecv
  | sendonly
  | recvonly
  deriving DecidableEq, Repr

inductive Profile
  | avpf
  | savpf
  deriving DecidableEq, Repr

inductive DtlsRole
  | actpass
  | active
  | passive
  deriving DecidableEq, Repr

inductive HostType
  | host
  | srflx
  | prflx
  | relay
  deriving DecidableEq, Repr

structure CryptoInfo where
  tag : ℤ := 0
  cipherSuite : Text
  keyParams : Text
  mediaType : MediaType

/-- The port of the related address is written only for a reflexive or a relayed one. -/
structure CandidateInfo where
  isBundle : Option Bool := none
  priority : UInt32
  componentId : UInt32
  foundation : Text
  hostAddress : Text
  rAddress : Text := []
  hostPort : ℤ
  rPort : Option ℤ := none
  netProtocol : Text
  hostType : HostType
  username : Text := []
  password : Text := []
  mediaType : MediaType
  sdp : Text

structure BundleTag where
  id : Text
  mediaType : MediaType
  deriving DecidableEq

/-- A payload type and its codec. -/
structure RtpMap where
  payloadType : UInt32
  encodingName : Text := []
  clockRate : Option UInt32 := none
  mediaType : Option MediaType := none
  channels : Option UInt32 := none
  feedbackTypes : List Text := []
  formatParameters : StdMap Text Text := .empty

structure ExtMap where
  value : UInt32
  uri : Text
  mediaType : MediaType
  deriving DecidableEq

/-- What the negotiation writes: `inOutPTMap` leads from the internal payload types to
the external ones and `outInPTMap` back. -/
structure Negotiated where
  payloadVector : List RtpMap := []
  inOutPTMap : StdMap UInt32 UInt32 := .empty
  outInPTMap : StdMap UInt32 UInt32 := .empty
  videoCodecs : ℕ := 0
  audioCodecs : ℕ := 0

structure SdpInfo extends Negotiated where
  internalPayloadVector : List RtpMap
  isBundle : Bool := false
  isRtcpMux : Bool := false
  isFingerprint : Bool := false
  fingerprint : Text := []
  dtlsRole : DtlsRole := .actpass
  hasAudio : Bool := false
  hasVideo : Bool := false
  profile : Profile := .savpf
  videoDirection : Option StreamDirection := none
  audioDirection : Option StreamDirection := none
  audioSsrc : UInt32 := 0
  videoSsrcList : List UInt32 := []
  videoRtxSsrcMap : StdMap UInt32 UInt32 := .empty
  bundleTags : List BundleTag := []
  extMapVector : List ExtMap := []
  videoSdpMLine : ℤ := -1
  audioSdpMLine : ℤ := -1
  videoBandwidth : UInt32 := 0
  candidateVector : List CandidateInfo := []
  cryptoVector : List CryptoInfo := []
  iceVideoUsername : Text := []
  iceAudioUsername : Text := []
  iceVideoPassword : Text := []
  iceAudioPassword : Text := []
  payloadParsedMap : StdMap UInt32 RtpMap := .empty
  supportedExtMap : List ExtMap := []

/-- A new description with the codecs of the configuration. -/
def SdpInfo.new (rtpMappings : List RtpMap) : SdpInfo := { internalPayloadVector := rtpMappings }

def SdpInfo.getAudioInternalPT (info : SdpInfo) (externalPT : UInt32) : UInt32 :=
  (info.outInPTMap.find externalPT).getD externalPT

def SdpInfo.getVideoInternalPT (info : SdpInfo) (externalPT : UInt32) : UInt32 :=
  info.getAudioInternalPT externalPT

def SdpInfo.getAudioExternalPT (info : SdpInfo) (internalPT : UInt32) : UInt32 :=
  (info.inOutPTMap.find internalPT).getD internalPT

def SdpInfo.getVideoExternalPT (info : SdpInfo) (internalPT : UInt32) : UInt32 :=
  info.getAudioExternalPT internalPT

end KkLicode.Sdp
