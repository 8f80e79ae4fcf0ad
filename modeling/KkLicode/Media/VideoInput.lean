import KkLicode.Base.ResetCounter
import KkLicode.Media.MediaProcessor

/-! `InputProcessor::deliverVideoData_`, which puts the payloads of the packets of a
frame one behind the other into a buffer and decodes them when the marker comes.
The pointer into the buffer and the count of bytes go together; nothing keeps them
within the buffer when the marker is lost. -/

namespace KkLicode.Media

open Base

def UNPACKAGED_BUFFER_SIZE : ℕ := 150000

/-- The members that `deliverVideoData_` works on, as `init` leaves them. The pointer is given by
its distance from `unpackagedBuffer_`. -/
structure VideoInput extends InputProcessor where
  videoDecoder : Bool
  gotUnpackagedFrame : Bool := false
  upackagedSize : ℤ := 0
  unpackagedBufferPtr : ℤ := 0
  deriving DecidableEq, Repr

/-- The members after a packet, the bytes that were written at the pointer, and the place and size
of the frame that was decoded. -/
structure Delivered where
  input : VideoInput
  copied : List UInt8 := []
  decoded : Option (ℤ × ℤ) := none
  deriving DecidableEq, Repr

namespace VideoInput

/-- What the decoder makes of a frame is left out. -/
def deliverVideoData (v : VideoInput) (packet : List UInt8) : Option Delivered :=
  if v.videoUnpackager && v.videoDecoder then do
    let u ← v.unpackageVideo packet v.gotUnpackagedFrame
    let v := { v with gotUnpackagedFrame := u.gotFrame }
    if u.ret < 0 then return { input := v }
    else
      let v := { v with
        upackagedSize := v.upackagedSize + u.ret
        unpackagedBufferPtr := v.unpackagedBufferPtr + u.ret }
      if v.gotUnpackagedFrame then
        let v := { v with unpackagedBufferPtr := v.unpackagedBufferPtr - v.upackagedSize }
        let decoded := (v.unpackagedBufferPtr, v.upackagedSize)
        return { input := { v with upackagedSize := 0, gotUnpackagedFrame := false }
                 copied := u.out, decoded := some decoded }
      else return { input := v, copied := u.out }
  else return { input := v }

/-! ### One packet -/

def IsVP8 (packet : List UInt8) : Prop := (RtpHeader.ofBuffer packet).payloadtype = 100

instance (packet : List UInt8) : Decidable (IsVP8 packet) :=
  inferInstanceAs (Decidable (_ = _))

/-- The payload behind the descriptor, if it is found. -/
def payload (packet : List UInt8) : Option (List UInt8) := do
  let parsed ← RtpVP8Parser.parseVP8 (packet.drop (RtpHeader.ofBuffer packet).getHeaderLength)
  parsed.data

def endsFrame (packet : List UInt8) : Bool := IsVP8 packet && (RtpHeader.ofBuffer packet).marker

def payloadLength (packet : List UInt8) : ℕ :=
  if IsVP8 packet then ((payload packet).getD []).length else 0

variable {v : VideoInput} {packet data : List UInt8}

theorem deliverVideoData_inactive (h : (v.videoUnpackager && v.videoDecoder) = false) :
    v.deliverVideoData packet = some { input := v } := by
  rw [deliverVideoData, h]
  rfl

theorem deliverVideoData_other (hu : v.videoUnpackager = true) (hd : v.videoDecoder = true)
    (hp : ¬ IsVP8 packet) :
    v.deliverVideoData packet = some { input := { v with gotUnpackagedFrame := false } } := by
  have hout : v.unpackageVideo packet v.gotUnpackagedFrame = some ⟨-1, [], false⟩ := by
    rw [InputProcessor.unpackageVideo, hu]
    exact if_pos hp
  rw [deliverVideoData, hu, hd, hout]
  rfl

theorem deliverVideoData_unread (hu : v.videoUnpackager = true) (hd : v.videoDecoder = true)
    (hp : IsVP8 packet) (hdata : payload packet = none) : v.deliverVideoData packet = none := by
  have hout : v.unpackageVideo packet v.gotUnpackagedFrame = none := by
    rw [InputProcessor.unpackageVideo, hu]
    refine (if_neg (not_not.mpr hp)).trans ?_
    unfold payload at hdata
    cases hparse : RtpVP8Parser.parseVP8 (packet.drop (RtpHeader.ofBuffer packet).getHeaderLength) with
    | none => rfl
    | some parsed =>
      rw [hparse, Option.bind_eq_bind, Option.bind_some] at hdata
      rw [Option.bind_eq_bind, Option.bind_some, hdata]
      rfl
  rw [deliverVideoData, hu, hd, hout]
  rfl

theorem unpackageVideo_payload (hu : v.videoUnpackager = true) (hp : IsVP8 packet)
    (hdata : payload packet = some data) (gotFrame : Bool) :
    v.unpackageVideo packet gotFrame =
      some ⟨data.length, data, (RtpHeader.ofBuffer packet).marker⟩ := by
  obtain ⟨parsed, hparse, hdata⟩ := Option.bind_eq_some_iff.mp hdata
  rw [InputProcessor.unpackageVideo, hu]
  refine (if_neg (not_not.mpr hp)).trans ?_
  rw [hparse, Option.bind_eq_bind, Option.bind_some, hdata]
  rfl

/-- The payload is written at the pointer, and both members move by its length or start again. -/
theorem deliverVideoData_payload (hu : v.videoUnpackager = true) (hd : v.videoDecoder = true)
    (hp : IsVP8 packet) (hdata : payload packet = some data) :
    ∃ d, v.deliverVideoData packet = some d ∧ d.copied = data ∧
      d.input.toInputProcessor = v.toInputProcessor ∧ d.input.videoDecoder = v.videoDecoder ∧
      d.input.upackagedSize =
        (if endsFrame packet then 0 else v.upackagedSize + data.length) ∧
      d.input.unpackagedBufferPtr - d.input.upackagedSize =
        v.unpackagedBufferPtr - v.upackagedSize := by
  have hneg : ¬((data.length : ℤ) < 0) := by omega
  rw [deliverVideoData, hu, hd, unpackageVideo_payload hu hp hdata]
  simp only [Bool.and_self, if_true, Option.bind_eq_bind, Option.bind_some, if_neg hneg]
  cases hm : (RtpHeader.ofBuffer packet).marker with
  | true =>
    refine ⟨_, rfl, rfl, rfl, rfl, ?_, ?_⟩
    · simp [endsFrame, hp, hm]
    · dsimp only
      omega
  | false =>
    refine ⟨_, rfl, rfl, rfl, rfl, ?_, ?_⟩
    · simp [endsFrame, hm]
    · dsimp only
      omega

/-! ### Runs -/

/-- In every state the pointer is as far into the buffer as there are bytes, and no payload is
written beyond the end of the buffer. -/
def NeverOverruns : VideoInput → List (List UInt8) → Prop
  | v, [] => v.unpackagedBufferPtr = v.upackagedSize
  | v, packet :: packets => v.unpackagedBufferPtr = v.upackagedSize ∧
      ∃ d, v.deliverVideoData packet = some d ∧
        v.upackagedSize + d.copied.length ≤ UNPACKAGED_BUFFER_SIZE ∧
        NeverOverruns d.input packets

theorem neverOverruns_inactive {packets : List (List UInt8)}
    (h : (v.videoUnpackager && v.videoDecoder) = false)
    (hptr : v.unpackagedBufferPtr = v.upackagedSize)
    (hsize : v.upackagedSize ≤ UNPACKAGED_BUFFER_SIZE) : NeverOverruns v packets := by
  induction packets with
  | nil => exact hptr
  | cons packet packets ih =>
    refine ⟨hptr, _, deliverVideoData_inactive h, ?_, ih⟩
    simpa using hsize

/-- The run of the members is that of a counter of bytes. -/
theorem neverOverruns_iff_within {packets : List (List UInt8)} {n : ℕ}
    (hu : v.videoUnpackager = true) (hd : v.videoDecoder = true)
    (hptr : v.unpackagedBufferPtr = v.upackagedSize) (hn : v.upackagedSize = n) :
    NeverOverruns v packets ↔ (∀ p ∈ packets, IsVP8 p → (payload p).isSome) ∧
      ResetCounter.Within payloadLength endsFrame UNPACKAGED_BUFFER_SIZE n packets := by
  induction packets generalizing v n with
  | nil => simp [NeverOverruns, ResetCounter.Within, hptr]
  | cons packet packets ih =>
    rw [NeverOverruns, ResetCounter.Within, List.forall_mem_cons]
    by_cases hp : IsVP8 packet
    · cases hdata : payload packet with
      | none => simp [deliverVideoData_unread hu hd hp hdata, hp]
      | some data =>
        obtain ⟨d, hdeliver, hcopied, hin, hdec, hsize, hdist⟩ :=
          deliverVideoData_payload hu hd hp hdata
        have hlen : payloadLength packet = data.length := by
          rw [payloadLength, if_pos hp, hdata, Option.getD_some]
        have hnext : d.input.upackagedSize =
            (ResetCounter.next payloadLength endsFrame n packet : ℕ) := by
          rw [hsize, ResetCounter.next, hlen, hn]
          split_ifs <;> rfl
        have hrest := @ih d.input _ (hin ▸ hu) (hdec ▸ hd) (by omega) hnext
        rw [hlen, hdeliver]
        simp only [Option.some.injEq, exists_eq_left', hcopied, hrest, hptr, hn, true_and,
          Option.isSome_some, imp_true_iff]
        rw [and_left_comm]
        norm_cast
    · have hlen : payloadLength packet = 0 := if_neg hp
      have hnext : v.upackagedSize = (ResetCounter.next payloadLength endsFrame n packet : ℕ) := by
        rw [ResetCounter.next_of_not_ends (by simp [endsFrame, hp]), hlen, hn, Nat.add_zero]
      have hrest := @ih { v with gotUnpackagedFrame := false } _ hu hd hptr hnext
      rw [hlen, deliverVideoData_other hu hd hp]
      simp only [Option.some.injEq, exists_eq_left', hrest, List.length_nil, hp, false_imp_iff,
        true_and]
      rw [and_iff_right hptr, hn, and_left_comm]
      norm_cast

/-- The packets the buffer is large enough for: their payloads are found, and no stretch of packets
in which at most the last one ends a frame carries more than the buffer takes. -/
structure Fits (packets : List (List UInt8)) : Prop where
  found : ∀ p ∈ packets, IsVP8 p → (payload p).isSome
  stretches : ∀ m q, m ++ [q] <:+: packets → (∀ p ∈ m, endsFrame p = false) →
    ((m ++ [q]).map payloadLength).sum ≤ UNPACKAGED_BUFFER_SIZE

/-- A processor that was set up never writes beyond its buffer exactly if the packets fit. -/
theorem neverOverruns_iff (i : InputProcessor) (videoDecoder : Bool) (packets : List (List UInt8)) :
    NeverOverruns { i with videoDecoder := videoDecoder } packets ↔
      (i.videoUnpackager = true → videoDecoder = true → Fits packets) := by
  by_cases h : i.videoUnpackager = true ∧ videoDecoder = true
  · obtain ⟨hu, hd⟩ := h
    rw [neverOverruns_iff_within hu hd rfl (n := 0) rfl, ResetCounter.within_zero_iff]
    exact ⟨fun h _ _ => ⟨h.1, h.2⟩, fun h => ⟨(h hu hd).found, (h hu hd).stretches⟩⟩
  · refine iff_of_true (neverOverruns_inactive ?_ rfl (Int.natCast_nonneg _)) fun hu hd => absurd ⟨hu, hd⟩ h
    rwa [← Bool.and_eq_true, Bool.not_eq_true] at h

theorem endsFrame_rtpPacket (timestamp seqnum : UInt32) (lastFrame : Bool) (out : List UInt8) :
    endsFrame (rtpPacket timestamp seqnum lastFrame out) = lastFrame := by
  obtain ⟨hpt, hm, -⟩ := ofBuffer_rtpPacket timestamp seqnum lastFrame out
  have hp : IsVP8 (rtpPacket timestamp seqnum lastFrame out) := hpt
  rw [endsFrame, hm, decide_eq_true hp, Bool.true_and]

theorem payloadLength_rtpPacket (timestamp seqnum : UInt32) (lastFrame : Bool) {b : UInt8}
    {chunk : List UInt8} (hb : b = 0x00 ∨ b = 0x10) (hc : chunk ≠ []) :
    payloadLength (rtpPacket timestamp seqnum lastFrame (b :: chunk)) = chunk.length := by
  obtain ⟨hpt, -, hdrop⟩ := ofBuffer_rtpPacket timestamp seqnum lastFrame (b :: chunk)
  obtain ⟨vp8, hparse, hdata⟩ := RtpVP8Parser.parseVP8_plain hb hc
  have hp : IsVP8 (rtpPacket timestamp seqnum lastFrame (b :: chunk)) := hpt
  rw [payloadLength, if_pos hp, payload, hdrop, hparse, Option.bind_eq_bind, Option.bind_some, hdata,
    Option.getD_some]

/-- A packet of a frame whose marker never comes. -/
def unmarked : List UInt8 := rtpPacket 0 0 false (0x10 :: List.replicate 1099 0)

/-- After 137 such packets the payloads are more than the buffer takes. -/
theorem not_neverOverruns : ¬∀ (i : InputProcessor) (videoDecoder : Bool)
    (packets : List (List UInt8)),
    NeverOverruns { i with videoDecoder := videoDecoder } packets := by
  intro h
  have hrun := h ⟨true⟩ true (List.replicate 137 unmarked)
  rw [neverOverruns_iff_within rfl rfl rfl (n := 0) rfl, ResetCounter.within_zero_iff] at hrun
  have hlen : payloadLength unmarked = 1099 :=
    (payloadLength_rtpPacket 0 0 false (.inr rfl) (List.cons_ne_nil 0 _)).trans
      (List.length_replicate (n := 1099))
  have hsum := hrun.2 (List.replicate 136 unmarked) unmarked (by rw [← List.replicate_succ'])
    fun p hp => by rw [List.eq_of_mem_replicate hp, unmarked, endsFrame_rtpPacket]
  rw [← List.replicate_succ', ResetCounter.total, List.map_replicate, hlen, List.sum_replicate]
    at hsum
  exact absurd hsum (by decide)

end VideoInput

end KkLicode.Media
