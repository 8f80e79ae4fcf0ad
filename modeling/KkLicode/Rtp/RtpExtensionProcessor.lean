import KkLicode.Base.Double
import KkLicode.Media.RtpHeader
import KkLicode.Rtp.DataPacket
import Mathlib.Data.Rat.Floor

/-! The walk of `RtpExtensionProcessor` over the header extension of a packet. It
starts behind a header without contributing sources, trusts the length of the
block, and takes every byte it comes to for the first of an element, also a byte
of padding, which has no second one. -/

namespace KkLicode.Rtp

open Base.BigEndian Base.Double

/-- The kinds of extensions, by their names in the source. -/
inductive RTPExtensions where
  | UNKNOWN | SSRC_AUDIO_LEVEL | ABS_SEND_TIME | TOFFSET | VIDEO_ORIENTATION | TRANSPORT_CC
  | PLAYBACK_TIME | RTP_ID
  deriving DecidableEq

abbrev ExtensionMap := Vector RTPExtensions 10

/-- A walk so far: the bytes, where an element was found, and where a byte was written. -/
structure Walk where
  data : List UInt8
  visited : List ℕ := []
  written : List ℕ := []
  deriving DecidableEq

namespace RtpExtensionProcessor

/-- The time of the clock, in microseconds, as six bits of seconds and eighteen of a fraction. -/
def absSendTime (now : ℕ) : UInt32 :=
  let now_sec := now / 1000000
  let now_usec_only := now % 1000000
  let seconds : UInt8 := .ofNat now_sec &&& 0x3F
  let absecs : UInt32 :=
    .ofNat ⌊toDouble (((now_usec_only * (2 ^ 18 - 1) : ℕ) : ℚ) * toDouble (1 / 1000000))⌋₊
  (seconds.toUInt32 <<< 18) + absecs

/-- The three bytes behind the first of the element. -/
def setAbsSendTime (w : Walk) (buf : ℕ) (aTime : UInt32) : Option Walk :=
  if buf + 3 < w.data.length then
    some { w with
      data := ((w.data.set (buf + 1) (aTime >>> 16).toUInt8).set (buf + 2)
        (aTime >>> 8).toUInt8).set (buf + 3) aTime.toUInt8
      written := w.written ++ [buf + 1, buf + 2, buf + 3] }
  else none

def processAbsSendTime (now : ℕ) (w : Walk) (buf : ℕ) : Option Walk :=
  setAbsSendTime w buf (absSendTime now)

/-- What the loop does at the first byte of an element. Behind the tenth entry of the map nothing
is defined. -/
def processElement (now : ℕ → ℕ) (extMap : ExtensionMap) (w : Walk) (extBuffer : ℕ)
    (extId : UInt8) : Option Walk :=
  if extId ≠ 0 then
    (extMap[extId.toNat]?).bind fun extension =>
      let w := { w with visited := w.visited ++ [extBuffer] }
      if extension = .ABS_SEND_TIME then processAbsSendTime (now extBuffer) w extBuffer else some w
  else some w

/-- The loop over the block, with the clock's time at each place. -/
def extensionLoop (now : ℕ → ℕ) (extMap : ExtensionMap) (totalExtLength : UInt16) :
    ℕ → Walk → ℕ → UInt16 → Option Walk
  | 0, w, _, _ => some w
  | fuel + 1, w, extBuffer, currentPlace =>
    if currentPlace.toNat < totalExtLength.toNat * 4 then
      (w.data[extBuffer]?).bind fun extByte =>
        let extId := extByte >>> 4
        let extLength := extByte &&& 0x0F
        (processElement now extMap w extBuffer extId).bind fun w =>
          extensionLoop now extMap totalExtLength fuel w (extBuffer + extLength.toNat + 2)
            (currentPlace + extLength.toUInt16 + 2)
    else some w

end RtpExtensionProcessor

structure RtpExtensionProcessor where
  extMapVideo : ExtensionMap
  extMapAudio : ExtensionMap

namespace RtpExtensionProcessor

def extMap (processor : RtpExtensionProcessor) : PacketType → Option ExtensionMap
  | .video => some processor.extMapVideo
  | .audio => some processor.extMapAudio
  | .other => none

/-- The fields of the extension are read behind the first twelve bytes, and the block behind the
first sixteen. -/
def processRtpExtensions (processor : RtpExtensionProcessor) (now : ℕ → ℕ) (type : PacketType)
    (data : List UInt8) (len : UInt32) : Option (Walk × UInt32) :=
  let head := Media.RtpHeader.ofBuffer data
  if head.hasextension then
    match processor.extMap type with
    | none => some ({ data }, 0)
    | some extMap =>
      if head.extensionpayload = 0xBEDE then
        (extensionLoop now extMap head.extensionlength (data.length + 1) { data } 16 1).map (·, len)
      else some ({ data }, len)
  else some ({ data }, len)

variable {now : ℕ → ℕ} {extMap : ExtensionMap} {totalExtLength : UInt16} {w w' : Walk}
  {fuel extBuffer : ℕ} {extId : UInt8} {currentPlace : UInt16}

/-! ### What a walk leaves alone -/

/-- From one walk to the next: places are only added, those found not in front of `place` and those
written behind it, and the bytes that are not written stay. -/
structure Onward (place : ℕ) (w w' : Walk) : Prop where
  visited : ∃ found, w'.visited = w.visited ++ found ∧ ∀ i ∈ found, place ≤ i
  written : ∃ added, w'.written = w.written ++ added ∧ (∀ i ∈ added, place < i) ∧
    ∀ i, i ∉ added → w'.data[i]? = w.data[i]?

namespace Onward

variable {place place' : ℕ} {w'' : Walk}

theorem refl (place : ℕ) (w : Walk) : Onward place w w :=
  ⟨⟨[], by simp⟩, ⟨[], by simp⟩⟩

theorem trans (h : Onward place w w') (h' : Onward place' w' w'') (hle : place ≤ place') :
    Onward place w w'' := by
  obtain ⟨⟨found, hvisited, hfound⟩, ⟨added, hwritten, hadded, hdata⟩⟩ := h
  obtain ⟨⟨found', hvisited', hfound'⟩, ⟨added', hwritten', hadded', hdata'⟩⟩ := h'
  refine ⟨⟨found ++ found', ?_, ?_⟩, ⟨added ++ added', ?_, ?_, ?_⟩⟩
  · rw [hvisited', hvisited, List.append_assoc]
  · intro i hi
    cases List.mem_append.mp hi with
    | inl hi => exact hfound i hi
    | inr hi => exact hle.trans (hfound' i hi)
  · rw [hwritten', hwritten, List.append_assoc]
  · intro i hi
    cases List.mem_append.mp hi with
    | inl hi => exact hadded i hi
    | inr hi => exact hle.trans_lt (hadded' i hi)
  · intro i hi
    rw [List.mem_append, not_or] at hi
    rw [hdata' i hi.2, hdata i hi.1]

end Onward

theorem onward_setAbsSendTime {aTime : UInt32} (h : setAbsSendTime w extBuffer aTime = some w') :
    Onward extBuffer w w' := by
  simp only [setAbsSendTime, Option.ite_none_right_eq_some, Option.some.injEq] at h
  obtain ⟨-, rfl⟩ := h
  refine ⟨⟨[], by simp⟩, ⟨[extBuffer + 1, extBuffer + 2, extBuffer + 3], rfl,
    by simp, ?_⟩⟩
  intro i hi
  simp only [List.mem_cons, List.not_mem_nil, or_false, not_or] at hi
  rw [List.getElem?_set_ne (Ne.symm hi.2.2), List.getElem?_set_ne (Ne.symm hi.2.1),
    List.getElem?_set_ne (Ne.symm hi.1)]

theorem onward_visited (w : Walk) (extBuffer : ℕ) :
    Onward extBuffer w { w with visited := w.visited ++ [extBuffer] } :=
  ⟨⟨[extBuffer], rfl, by simp⟩, ⟨[], by simp⟩⟩

theorem onward_processElement (h : processElement now extMap w extBuffer extId = some w') :
    Onward extBuffer w w' := by
  unfold processElement at h
  split_ifs at h with hid
  · obtain ⟨extension, -, h⟩ := Option.bind_eq_some_iff.mp h
    dsimp only at h
    split_ifs at h with hext
    · exact (onward_visited w extBuffer).trans (onward_setAbsSendTime h) le_rfl
    · exact Option.some.inj h ▸ onward_visited w extBuffer
  · exact Option.some.inj h ▸ Onward.refl extBuffer w

theorem onward_extensionLoop
    (h : extensionLoop now extMap totalExtLength fuel w extBuffer currentPlace = some w') :
    Onward extBuffer w w' := by
  induction fuel generalizing w extBuffer currentPlace with
  | zero => exact Option.some.inj h ▸ Onward.refl extBuffer w
  | succ fuel ih =>
    unfold extensionLoop at h
    split_ifs at h with hplace
    · obtain ⟨extByte, -, h⟩ := Option.bind_eq_some_iff.mp h
      obtain ⟨w₁, hw₁, h⟩ := Option.bind_eq_some_iff.mp h
      exact (onward_processElement hw₁).trans (ih h) (by omega)
    · exact Option.some.inj h ▸ Onward.refl extBuffer w

end RtpExtensionProcessor

end KkLicode.Rtp
