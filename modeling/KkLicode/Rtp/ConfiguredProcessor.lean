import KkLicode.Base.Folds
import KkLicode.Base.Runs
import KkLicode.Rtp.ExtensionReach
import KkLicode.Sdp.SdpInfo

/-! `RtpExtensionProcessor` between the SDP and the packets. Its tables have ten
entries: the numbers of an SDP are taken as they come, and a number in a packet has
four bits. -/

namespace KkLicode.Rtp

open Base

/-- The processor with the extensions that it was configured with. -/
structure ConfiguredProcessor extends RtpExtensionProcessor where
  extMappings : List Sdp.ExtMap

/-- A packet with the bytes that are inside its length, in the buffer of a `dataPacket`. -/
structure ReceivedPacket where
  type : PacketType
  bytes : List UInt8
  size : bytes.length ≤ 1500

namespace ConfiguredProcessor

/-- The pairs of `translationMap_`. -/
def translations : List (Sdp.Text × RTPExtensions) :=
  [("urn:ietf:params:rtp-hdrext:ssrc-audio-level".toList, .SSRC_AUDIO_LEVEL),
    ("http://www.webrtc.org/experiments/rtp-hdrext/abs-send-time".toList, .ABS_SEND_TIME),
    ("urn:ietf:params:rtp-hdrext:toffset".toList, .TOFFSET),
    ("urn:3gpp:video-orientation".toList, .VIDEO_ORIENTATION),
    ("http://www.ietf.org/id/draft-holmer-rmcat-transport-wide-cc-extensions-01".toList,
      .TRANSPORT_CC),
    ("http://www.webrtc.org/experiments/rtp-hdrext/playout-delay".toList, .PLAYBACK_TIME),
    ("urn:ietf:params:rtp-hdrext:sdes:rtp-stream-id".toList, .RTP_ID)]

def new (extMappings : List Sdp.ExtMap) : ConfiguredProcessor where
  extMapVideo := .replicate 10 .UNKNOWN
  extMapAudio := .replicate 10 .UNKNOWN
  extMappings := extMappings

variable (p : ConfiguredProcessor)

def isValidExtension (uri : Sdp.Text) : Bool :=
  p.extMappings.any (·.uri = uri) && (translations.lookup uri).isSome

/-- An assignment to an entry of a table, if there is that entry. -/
def setEntry (table : ExtensionMap) (theMap : Sdp.ExtMap) : Option ExtensionMap :=
  if h : theMap.value.toNat < 10 then
    some (table.set theMap.value.toNat ((translations.lookup theMap.uri).getD .UNKNOWN) h)
  else none

/-- The body of the loop of `setSdpInfo`. -/
def addExtension (theMap : Sdp.ExtMap) : Option ConfiguredProcessor :=
  if p.isValidExtension theMap.uri then
    match theMap.mediaType with
    | .video => (setEntry p.extMapVideo theMap).map fun table => { p with extMapVideo := table }
    | .audio => (setEntry p.extMapAudio theMap).map fun table => { p with extMapAudio := table }
    | .other => some p
  else some p

/-- `setSdpInfo`, if it stays within the tables. -/
def setSdpInfo (theInfo : Sdp.SdpInfo) : Option ConfiguredProcessor :=
  theInfo.extMapVector.foldlM addExtension p

/-! ### What is received -/

inductive Received where
  | setSdpInfo (theInfo : Sdp.SdpInfo)
  | processRtpExtensions (packet : ReceivedPacket)

/-- The tables after a call. Processing a packet leaves them as they are. -/
def call (p : ConfiguredProcessor) : Received → ConfiguredProcessor × Unit
  | .setSdpInfo theInfo => ((p.setSdpInfo theInfo).getD p, ())
  | .processRtpExtensions _ => (p, ())

/-- The table for the packet, if its extension is looked at. -/
def tableFor (packet : ReceivedPacket) : Option ExtensionMap :=
  if (Media.RtpHeader.ofBuffer packet.bytes).hasextension then p.extMap packet.type else none

/-- The call comes to its end and uses no byte but those of the packet: the first one, the fields of
an extension that is looked at, and what the loop comes to. -/
structure StaysInside (now : ℕ → ℕ) (packet : ReceivedPacket) : Prop where
  first : packet.bytes ≠ []
  fields : ∀ extMap, p.tableFor packet = some extMap → 16 ≤ packet.bytes.length
  loop : ∀ extMap, p.tableFor packet = some extMap →
    (Media.RtpHeader.ofBuffer packet.bytes).extensionpayload = 0xBEDE →
      RtpExtensionProcessor.Ends now extMap
        (Media.RtpHeader.ofBuffer packet.bytes).extensionlength { data := packet.bytes } 16 1

/-- The packet has the fields of an extension that is looked at, and its block is contained. -/
structure WithBlock (packet : ReceivedPacket) : Prop where
  first : packet.bytes ≠ []
  fields : ∀ extMap, p.tableFor packet = some extMap → 16 ≤ packet.bytes.length
  block : ∀ extMap, p.tableFor packet = some extMap →
    (Media.RtpHeader.ofBuffer packet.bytes).extensionpayload = 0xBEDE →
      RtpExtensionProcessor.Contained extMap
        ((Media.RtpHeader.ofBuffer packet.bytes).extensionlength.toNat * 4 - 1)
        (packet.bytes.drop 16)

/-- The number has an entry. -/
def HasEntry (theMap : Sdp.ExtMap) : Prop :=
  p.isValidExtension theMap.uri = true → theMap.mediaType ≠ .other → theMap.value.toNat < 10

/-- Whatever the clock says, the call ends and stays within the tables and the packet. -/
def Safe (p : ConfiguredProcessor) : Received → Prop
  | .setSdpInfo theInfo => (p.setSdpInfo theInfo).isSome
  | .processRtpExtensions packet => ∀ now, p.StaysInside now packet

/-- All numbers of an SDP have an entry; a packet has its block in it. -/
def Conforms (p : ConfiguredProcessor) : Received → Prop
  | .setSdpInfo theInfo => ∀ theMap ∈ theInfo.extMapVector, p.HasEntry theMap
  | .processRtpExtensions packet => p.WithBlock packet

variable {p} {packet : ReceivedPacket} {theMap : Sdp.ExtMap}

theorem setEntry_isSome {table : ExtensionMap} :
    (setEntry table theMap).isSome ↔ theMap.value.toNat < 10 := by
  unfold setEntry
  split_ifs with h
  · exact iff_of_true rfl h
  · exact iff_of_false Bool.noConfusion h

theorem addExtension_isSome : (p.addExtension theMap).isSome ↔ p.HasEntry theMap := by
  unfold addExtension HasEntry
  split_ifs with hvalid
  · cases theMap.mediaType with
    | video => simp [setEntry_isSome, hvalid]
    | audio => simp [setEntry_isSome, hvalid]
    | other => simp
  · exact iff_of_true rfl fun h => absurd h hvalid

/-- No table decides what is valid. -/
theorem extMappings_addExtension {p' : ConfiguredProcessor} (h : p.addExtension theMap = some p') :
    p'.extMappings = p.extMappings := by
  unfold addExtension at h
  split_ifs at h
  · cases hmedia : theMap.mediaType with
    | video =>
      rw [hmedia] at h
      obtain ⟨table, -, rfl⟩ := Option.map_eq_some_iff.mp h
      rfl
    | audio =>
      rw [hmedia] at h
      obtain ⟨table, -, rfl⟩ := Option.map_eq_some_iff.mp h
      rfl
    | other =>
      rw [hmedia] at h
      exact Option.some.inj h ▸ rfl
  · exact Option.some.inj h ▸ rfl

theorem hasEntry_congr {p' : ConfiguredProcessor} (h : p'.extMappings = p.extMappings) :
    p'.HasEntry theMap ↔ p.HasEntry theMap := by
  rw [HasEntry, HasEntry, isValidExtension, isValidExtension, h]

theorem foldlM_addExtension_isSome {extensions : List Sdp.ExtMap} :
    (extensions.foldlM addExtension p).isSome ↔ ∀ theMap ∈ extensions, p.HasEntry theMap := by
  induction extensions generalizing p with
  | nil => simp
  | cons theMap extensions ih =>
    rw [List.forall_mem_cons, ← addExtension_isSome, List.foldlM_cons]
    cases hadd : p.addExtension theMap with
    | none => simp
    | some p' =>
      have hsame := extMappings_addExtension hadd
      rw [Option.bind_eq_bind, Option.bind_some, ih]
      simp only [hasEntry_congr hsame, Option.isSome_some, true_and]

/-- The function that follows the loop gives something exactly if the loop comes to its end. -/
theorem processRtpExtensions_isSome (now : ℕ → ℕ) (len : UInt32) :
    (p.processRtpExtensions now packet.type packet.bytes len).isSome ↔
      ∀ extMap, p.tableFor packet = some extMap →
        (Media.RtpHeader.ofBuffer packet.bytes).extensionpayload = 0xBEDE →
          RtpExtensionProcessor.Ends now extMap
            (Media.RtpHeader.ofBuffer packet.bytes).extensionlength { data := packet.bytes } 16 1 := by
  unfold RtpExtensionProcessor.processRtpExtensions tableFor
  dsimp only
  by_cases hextended : (Media.RtpHeader.ofBuffer packet.bytes).hasextension = true
  · rw [if_pos hextended, if_pos hextended]
    cases p.extMap packet.type with
    | none => simp
    | some extMap =>
      simp only [Option.some.injEq, forall_eq']
      by_cases hmark : (Media.RtpHeader.ofBuffer packet.bytes).extensionpayload = 0xBEDE
      · rw [if_pos hmark, Option.isSome_map, RtpExtensionProcessor.isSome_extensionLoop_iff
          (by dsimp only; omega) (Nat.succ_pos _)]
        exact ⟨fun h _ => h, fun h => h hmark⟩
      · rw [if_neg hmark]
        exact iff_of_true rfl fun h => absurd h hmark
  · rw [if_neg hextended, if_neg hextended]
    exact iff_of_true rfl fun _ h => nomatch h

theorem staysInside_iff : (∀ now, p.StaysInside now packet) ↔ p.WithBlock packet := by
  constructor
  · intro h
    have hlast := h fun _ => 999999
    refine ⟨hlast.first, hlast.fields, fun extMap htable hmark => ?_⟩
    exact RtpExtensionProcessor.contained_of_ends (hlast.loop extMap htable hmark) packet.size rfl
  · intro h now
    refine ⟨h.first, h.fields, fun extMap htable hmark => ?_⟩
    exact RtpExtensionProcessor.ends_of_contained (h.block extMap htable hmark) rfl packet.size rfl rfl

theorem safe_iff (p : ConfiguredProcessor) (received : Received) :
    p.Safe received ↔ p.Conforms received := by
  cases received with
  | setSdpInfo theInfo => exact foldlM_addExtension_isSome
  | processRtpExtensions packet => exact staysInside_iff

/-- Whatever is received, in any order, is processed safely exactly if all of it conforms. -/
theorem steps_safe_iff (p : ConfiguredProcessor) (received : List Received) :
    Runs.Steps call Safe p received ↔ Runs.Steps call Conforms p received :=
  ⟨Runs.Steps.imp fun p r => (safe_iff p r).mp, Runs.Steps.imp fun p r => (safe_iff p r).mpr⟩

/-- A packet of one element with the largest number that is not reserved. -/
def fourteenth : ReceivedPacket where
  type := .video
  bytes := [0x90, 100, 0, 1, 0, 0, 0, 0, 0, 0, 0, 1, 0xBE, 0xDE, 0, 1, 0xE2, 1, 2, 3]
  size := by decide

/-- The number is used as it is, although the table has ten entries. -/
theorem not_steps_safe : ¬∀ (p : ConfiguredProcessor) (received : List Received),
    Runs.Steps call Safe p received := by
  intro h
  have hsafe := (h (new []) [.processRtpExtensions fourteenth]).1 fun _ => 0
  have hsome := (processRtpExtensions_isSome (fun _ => 0) 20).mpr hsafe.loop
  exact absurd hsome (by decide)

end ConfiguredProcessor

end KkLicode.Rtp
