import Mathlib.Data.List.Monad
import KkLicode.Media.RtpHeader
import KkLicode.Media.RtpVP8Parser

/-! Frames as RTP packets and back: `RtpVP8Fragmenter` and the packaging of
`OutputProcessor` on one side, the unpackaging of `InputProcessor` on the other. -/

namespace KkLicode.Media

/-- The maximal size of a fragment with its payload descriptor. -/
def MAX_SIZE : ℕ := 1100

structure Fragment where
  position : ℕ
  size : ℕ
  first : Bool
  deriving DecidableEq, Repr

/-- The loop of `calculatePackets`. -/
def calculatePackets (currentPos remaining : ℕ) : List Fragment :=
  if remaining = 0 then []
  else
    let size := if remaining > MAX_SIZE - 1 then MAX_SIZE - 1 else remaining
    { position := currentPos, size := size, first := currentPos = 0 } ::
      calculatePackets (currentPos + size) (remaining - size)
termination_by remaining
decreasing_by
  unfold MAX_SIZE
  split <;> omega

structure RtpVP8Fragmenter where
  totalData : List UInt8
  fragmentQueue : List Fragment

namespace RtpVP8Fragmenter

def new (data : List UInt8) : RtpVP8Fragmenter :=
  { totalData := data, fragmentQueue := calculatePackets 0 data.length }

def writeFragment (frag : RtpVP8Fragmenter) (fragment : Fragment) : List UInt8 :=
  (if fragment.first then 0x10 else 0x00) ::
    (frag.totalData.drop fragment.position).take fragment.size

/-- The bytes written, and whether the packet is the last one. -/
def getPacket (frag : RtpVP8Fragmenter) : RtpVP8Fragmenter × List UInt8 × Bool :=
  match frag.fragmentQueue with
  | [] => (frag, [], false)
  | fragment :: rest =>
    ({ frag with fragmentQueue := rest }, frag.writeFragment fragment, rest.isEmpty)

end RtpVP8Fragmenter

structure OutputProcessor where
  videoPackager : Bool
  seqnum : UInt32
  deriving DecidableEq, Repr

/-- One packet of a frame. -/
def rtpPacket (timestamp : UInt32) (seqnum : UInt32) (lastFrame : Bool) (out : List UInt8) :
    List UInt8 :=
  let rtpHeader : RtpHeader :=
    { marker := lastFrame
      seqnum := seqnum.toUInt16
      timestamp := timestamp
      ssrc := 55543
      payloadtype := 100 }
  rtpHeader.toBytes.take rtpHeader.getHeaderLength ++ out

namespace OutputProcessor

/-- The loop of `packageVideo`, which ends with the last packet; `n` is the number of fragments. -/
def packageLoop (timestamp : UInt32) :
    ℕ → OutputProcessor → RtpVP8Fragmenter → Option (OutputProcessor × List (List UInt8))
  | 0, _, _ => none
  | n + 1, o, frag =>
    let (frag, out, lastFrame) := frag.getPacket
    let packet := rtpPacket timestamp o.seqnum lastFrame out
    let o := { o with seqnum := o.seqnum + 1 }
    if lastFrame then some (o, [packet])
    else (packageLoop timestamp n o frag).map fun r => (r.1, packet :: r.2)

/-- The return value and the packets handed on. The clock and `av_rescale` are given. -/
def packageVideo (avRescale : ℤ → ℤ → ℤ → ℤ) (millis : ℤ) (o : OutputProcessor)
    (inBuff : List UInt8) (pts : ℤ) : Option (OutputProcessor × ℤ × List (List UInt8)) :=
  if !o.videoPackager then some (o, -1, [])
  else if inBuff.length = 0 then some (o, -1, [])
  else
    let frag := RtpVP8Fragmenter.new inBuff
    let timestamp := UInt32.ofInt (avRescale (if pts = 0 then millis else pts) 90000 1000)
    (packageLoop timestamp frag.fragmentQueue.length o frag).map fun r => (r.1, 0, r.2)

end OutputProcessor

structure InputProcessor where
  videoUnpackager : Bool
  deriving DecidableEq, Repr

/-- What `unpackageVideo` returns, writes and sets. -/
structure Unpackaged where
  ret : ℤ
  out : List UInt8
  gotFrame : Bool
  deriving DecidableEq, Repr

/-- There is no result where the packet is read past its end, or where a payload that was not found
is copied. -/
def InputProcessor.unpackageVideo (i : InputProcessor) (inBuff : List UInt8) (gotFrame : Bool) :
    Option Unpackaged :=
  if !i.videoUnpackager then some ⟨-1, [], gotFrame⟩
  else
    let head := RtpHeader.ofBuffer inBuff
    if head.payloadtype ≠ 100 then some ⟨-1, [], false⟩
    else do
      let parsed ← RtpVP8Parser.parseVP8 (inBuff.drop head.getHeaderLength)
      let data ← parsed.data
      return ⟨data.length, data, head.marker⟩

/-! ### Fragments -/

/-- The fragments cover the data from a position on, one after the other. -/
theorem calculatePackets_chunks (data : List UInt8) (currentPos remaining : ℕ)
    (h : currentPos + remaining = data.length) :
    ((calculatePackets currentPos remaining).map fun f =>
      (data.drop f.position).take f.size).flatten = data.drop currentPos := by
  fun_induction calculatePackets currentPos remaining with
  | case1 pos =>
    rw [List.drop_of_length_le (by omega)]
    rfl
  | case2 pos remaining hr size ih =>
    have hsize : size ≤ remaining := by
      unfold size
      split <;> omega
    rw [List.map_cons, List.flatten_cons, ih (by omega), ← List.drop_drop, List.take_append_drop]

theorem calculatePackets_size {pos remaining : ℕ} {f : Fragment}
    (hf : f ∈ calculatePackets pos remaining) :
    0 < f.size ∧ f.size < MAX_SIZE ∧ f.position + f.size ≤ pos + remaining := by
  fun_induction calculatePackets pos remaining with
  | case1 pos => cases hf
  | case2 pos remaining hr size ih =>
    have hsize : 0 < size ∧ size < MAX_SIZE ∧ size ≤ remaining := by
      unfold size MAX_SIZE
      split <;> omega
    rcases List.mem_cons.mp hf with rfl | hf
    · exact ⟨hsize.1, hsize.2.1, Nat.add_le_add_left hsize.2.2 _⟩
    · have := ih hf
      omega

theorem calculatePackets_ne_nil {remaining : ℕ} (pos : ℕ) (h : remaining ≠ 0) :
    calculatePackets pos remaining ≠ [] := by
  rw [calculatePackets, if_neg h]
  exact List.cons_ne_nil _ _

/-! ### Packets -/

variable {timestamp seqnum : UInt32} {lastFrame gotFrame : Bool} {out : List UInt8}
  {outs : List (List UInt8)}

theorem rtpPacket_eq (timestamp seqnum : UInt32) (lastFrame : Bool) (out : List UInt8) :
    ∃ h : RtpHeader, rtpPacket timestamp seqnum lastFrame out = h.fixed ++ out ∧ h.cc = 0 ∧
      h.hasextension = false ∧ h.payloadtype = 100 ∧ h.marker = lastFrame ∧
      h.seqnum = seqnum.toUInt16 :=
  ⟨{ marker := lastFrame
     seqnum := seqnum.toUInt16
     timestamp := timestamp
     ssrc := 55543
     payloadtype := 100 }, rfl, rfl, rfl, rfl, rfl, rfl⟩

theorem rtpPacket_seqnum :
    (RtpHeader.ofBuffer (rtpPacket timestamp seqnum lastFrame out)).seqnum = seqnum.toUInt16 := by
  obtain ⟨h, heq, -, -, -, -, hseq⟩ := rtpPacket_eq timestamp seqnum lastFrame out
  rw [heq, RtpHeader.ofBuffer_fixed, ← hseq]

theorem length_rtpPacket :
    (rtpPacket timestamp seqnum lastFrame out).length = RtpHeader.MIN_SIZE + out.length := by
  obtain ⟨h, heq, -⟩ := rtpPacket_eq timestamp seqnum lastFrame out
  rw [heq, List.length_append, RtpHeader.length_fixed]

/-- The header of a packet, and what is behind it. -/
theorem ofBuffer_rtpPacket (timestamp seqnum : UInt32) (lastFrame : Bool) (out : List UInt8) :
    (RtpHeader.ofBuffer (rtpPacket timestamp seqnum lastFrame out)).payloadtype = 100 ∧
      (RtpHeader.ofBuffer (rtpPacket timestamp seqnum lastFrame out)).marker = lastFrame ∧
      (rtpPacket timestamp seqnum lastFrame out).drop
        (RtpHeader.ofBuffer (rtpPacket timestamp seqnum lastFrame out)).getHeaderLength = out := by
  obtain ⟨h, heq, hcc, hx, hpt, hm, -⟩ := rtpPacket_eq timestamp seqnum lastFrame out
  have hlen : (RtpHeader.ofBuffer (h.fixed ++ out)).getHeaderLength = RtpHeader.MIN_SIZE := by
    rw [RtpHeader.ofBuffer_fixed, RtpHeader.getHeaderLength, hcc, hx]
    rfl
  rw [heq, hlen, RtpHeader.ofBuffer_fixed]
  exact ⟨hpt, hm, List.drop_left' h.length_fixed⟩

/-- The payload comes out of a packet as it went in, and the marker tells the last packet. -/
theorem unpackageVideo_rtpPacket (timestamp seqnum : UInt32) (lastFrame gotFrame : Bool)
    {i : InputProcessor} (hi : i.videoUnpackager = true) {b : UInt8} {chunk : List UInt8}
    (hb : b = 0x00 ∨ b = 0x10) (hc : chunk ≠ []) :
    i.unpackageVideo (rtpPacket timestamp seqnum lastFrame (b :: chunk)) gotFrame =
      some ⟨chunk.length, chunk, lastFrame⟩ := by
  obtain ⟨hpt, hm, hdrop⟩ := ofBuffer_rtpPacket timestamp seqnum lastFrame (b :: chunk)
  obtain ⟨vp8, hparse, hdata⟩ := RtpVP8Parser.parseVP8_plain hb hc
  rw [InputProcessor.unpackageVideo, hi]
  simp only [hdrop]
  rw [if_neg (by simp), if_neg (not_not.mpr hpt), hparse, Option.bind_eq_bind, Option.bind_some,
    hdata, hm]
  rfl

/-- The packets of some payloads. -/
def framePackets (timestamp : UInt32) : UInt32 → List (List UInt8) → List (List UInt8)
  | _, [] => []
  | seqnum, out :: outs =>
    rtpPacket timestamp seqnum outs.isEmpty out :: framePackets timestamp (seqnum + 1) outs

theorem packageLoop_eq (timestamp : UInt32) (data : List UInt8) {queue : List Fragment}
    (o : OutputProcessor) (hq : queue ≠ []) :
    o.packageLoop timestamp queue.length ⟨data, queue⟩ =
      some ({ o with seqnum := o.seqnum + UInt32.ofNat queue.length },
        framePackets timestamp o.seqnum
          (queue.map (RtpVP8Fragmenter.writeFragment ⟨data, queue⟩))) := by
  induction queue generalizing o with
  | nil => exact absurd rfl hq
  | cons f rest ih =>
    cases rest with
    | nil => rfl
    | cons f' rest =>
      have hcount : o.seqnum + 1 + UInt32.ofNat (rest.length + 1) =
          o.seqnum + UInt32.ofNat (rest.length + 1 + 1) := by
        rw [UInt32.ofNat_add (rest.length + 1) 1, UInt32.add_comm _ (UInt32.ofNat 1),
          ← UInt32.add_assoc]
        rfl
      have ih := ih { o with seqnum := o.seqnum + 1 } (List.cons_ne_nil _ _)
      rw [List.length_cons, hcount] at ih
      show Option.map _ (OutputProcessor.packageLoop timestamp (rest.length + 1) _ _) = _
      rw [ih]
      rfl

theorem length_framePackets : (framePackets timestamp seqnum outs).length = outs.length := by
  induction outs generalizing seqnum with
  | nil => rfl
  | cons out outs ih => rw [framePackets, List.length_cons, List.length_cons, ih]

/-- The numbers of the packets follow each other, from that of the first one. -/
theorem framePackets_seqnum :
    (framePackets timestamp seqnum outs).map (fun p => (RtpHeader.ofBuffer p).seqnum) =
      (List.range outs.length).map fun k => seqnum.toUInt16 + UInt16.ofNat k := by
  induction outs generalizing seqnum with
  | nil => rfl
  | cons out outs ih =>
    have hzero : seqnum.toUInt16 + UInt16.ofNat 0 = seqnum.toUInt16 := UInt16.add_zero _
    rw [framePackets, List.map_cons, ih, rtpPacket_seqnum, List.length_cons,
      List.range_succ_eq_map, List.map_cons, List.map_map, hzero]
    refine congrArg _ (List.map_congr_left fun k _ => ?_)
    rw [Function.comp_apply, Nat.succ_eq_add_one, UInt16.ofNat_add, UInt32.toUInt16_add,
      UInt16.add_assoc, UInt16.add_comm (UInt16.ofNat k)]
    rfl

theorem length_of_mem_framePackets {p : List UInt8} (hp : p ∈ framePackets timestamp seqnum outs) :
    ∃ out ∈ outs, p.length = RtpHeader.MIN_SIZE + out.length := by
  induction outs generalizing seqnum with
  | nil => cases hp
  | cons out outs ih =>
    rcases List.mem_cons.mp hp with rfl | hp
    · exact ⟨out, List.mem_cons_self, length_rtpPacket⟩
    · obtain ⟨out', hmem, hlen⟩ := ih hp
      exact ⟨out', List.mem_cons_of_mem _ hmem, hlen⟩

/-- The payload of a packet, behind the shortest descriptor. -/
def Plain (out : List UInt8) : Prop :=
  (out.head? = some 0x00 ∨ out.head? = some 0x10) ∧ out.tail ≠ []

theorem unpackageVideo_framePackets (timestamp seqnum : UInt32) (gotFrame : Bool)
    {i : InputProcessor} (hi : i.videoUnpackager = true)
    (houts : ∀ out ∈ outs, Plain out) (hne : outs ≠ []) :
    ∃ results, (framePackets timestamp seqnum outs).mapM (i.unpackageVideo · gotFrame) =
        some results ∧
      results.map (·.out) = outs.map List.tail ∧ (∀ r ∈ results, r.ret = r.out.length) ∧
      results.map (·.gotFrame) = List.replicate (outs.length - 1) false ++ [true] := by
  induction outs generalizing seqnum with
  | nil => exact absurd rfl hne
  | cons out outs ih =>
    obtain ⟨hhead, htail⟩ := houts out List.mem_cons_self
    obtain ⟨b, chunk, rfl⟩ : ∃ b chunk, out = b :: chunk :=
      List.exists_cons_of_ne_nil fun h => htail (by rw [h]; rfl)
    have hb : b = 0x00 ∨ b = 0x10 := by simpa using hhead
    rw [List.tail_cons] at htail
    have hone := unpackageVideo_rtpPacket timestamp seqnum outs.isEmpty gotFrame hi hb htail
    cases houts' : outs with
    | nil =>
      rw [houts'] at hone
      refine ⟨[⟨chunk.length, chunk, true⟩], ?_, rfl, ?_, rfl⟩
      · rw [framePackets, framePackets, List.mapM_cons, hone]
        rfl
      · simp
    | cons out' outs' =>
      have hlast : outs.isEmpty = false := by rw [houts']; rfl
      rw [hlast] at hone
      obtain ⟨results, hres, hout, hret, hgot⟩ := ih (seqnum + 1)
        (fun o ho => houts o (List.mem_cons_of_mem _ ho)) (by rw [houts']; exact List.cons_ne_nil _ _)
      rw [← houts']
      refine ⟨⟨chunk.length, chunk, false⟩ :: results, ?_, ?_, ?_, ?_⟩
      · rw [framePackets, List.mapM_cons, hlast, hone, hres]
        rfl
      · rw [List.map_cons, List.map_cons, hout, List.tail_cons]
      · intro r hr
        rcases List.mem_cons.mp hr with rfl | hr
        · rfl
        · exact hret r hr
      · rw [List.map_cons, hgot, houts', List.length_cons, List.length_cons]
        rfl

/-- The payloads of the packets of a frame. -/
def payloads (frame : List UInt8) : List (List UInt8) :=
  (RtpVP8Fragmenter.new frame).fragmentQueue.map (RtpVP8Fragmenter.new frame).writeFragment

variable {frame : List UInt8}

theorem payloads_ne_nil (hf : 1 ≤ frame.length) : payloads frame ≠ [] := fun h =>
  calculatePackets_ne_nil 0 (Nat.one_le_iff_ne_zero.mp hf) (List.map_eq_nil_iff.mp h)

theorem payloads_tail (frame : List UInt8) : ((payloads frame).map List.tail).flatten = frame := by
  have htail : List.tail ∘ (RtpVP8Fragmenter.new frame).writeFragment =
      fun f => (frame.drop f.position).take f.size := rfl
  rw [payloads, List.map_map, htail]
  exact calculatePackets_chunks frame 0 frame.length (Nat.zero_add _)

/-- Every payload is a descriptor and a part of the frame, and short enough. -/
theorem payloads_plain {out : List UInt8} (hout : out ∈ payloads frame) :
    Plain out ∧ out.length ≤ MAX_SIZE := by
  obtain ⟨f, hmem, rfl⟩ := List.mem_map.mp hout
  obtain ⟨hpos, hlt, hle⟩ := calculatePackets_size hmem
  have hsize : ((frame.drop f.position).take f.size).length = f.size := by
    rw [List.length_take, List.length_drop]
    omega
  refine ⟨⟨?_, fun hnil => ?_⟩, ?_⟩
  · rw [RtpVP8Fragmenter.writeFragment]
    split_ifs
    · exact .inr rfl
    · exact .inl rfl
  · rw [RtpVP8Fragmenter.writeFragment, List.tail_cons] at hnil
    rw [show (RtpVP8Fragmenter.new frame).totalData = frame from rfl] at hnil
    rw [hnil] at hsize
    exact hpos.ne hsize
  · rw [RtpVP8Fragmenter.writeFragment, List.length_cons]
    rw [show (RtpVP8Fragmenter.new frame).totalData = frame from rfl, hsize]
    exact hlt

theorem packageVideo_eq (avRescale : ℤ → ℤ → ℤ → ℤ) (millis pts : ℤ) {o : OutputProcessor}
    (ho : o.videoPackager = true) (hf : 1 ≤ frame.length) :
    o.packageVideo avRescale millis frame pts =
      some ({ o with seqnum := o.seqnum + UInt32.ofNat (payloads frame).length }, 0,
        framePackets (UInt32.ofInt (avRescale (if pts = 0 then millis else pts) 90000 1000))
          o.seqnum (payloads frame)) := by
  have hlen : frame.length ≠ 0 := Nat.one_le_iff_ne_zero.mp hf
  have hloop := packageLoop_eq
    (UInt32.ofInt (avRescale (if pts = 0 then millis else pts) 90000 1000)) frame o
    (calculatePackets_ne_nil 0 hlen)
  rw [OutputProcessor.packageVideo, ho, if_neg (by decide), if_neg hlen]
  show Option.map _ (OutputProcessor.packageLoop _ (calculatePackets 0 frame.length).length o
    ⟨frame, _⟩) = _
  rw [hloop, payloads, List.length_map, ← ho]
  rfl

/-- A frame comes back from its packets, complete with the last of them; the packets are numbered
one by one and none is too long. -/
theorem unpackage_package (avRescale : ℤ → ℤ → ℤ → ℤ) (millis pts : ℤ) {o : OutputProcessor}
    (ho : o.videoPackager = true) {i : InputProcessor} (hi : i.videoUnpackager = true)
    (gotFrame : Bool) (frame : List UInt8) (hf : 1 ≤ frame.length) :
    ∃ o' packets results,
      o.packageVideo avRescale millis frame pts = some (o', 0, packets) ∧
      packets.mapM (i.unpackageVideo · gotFrame) = some results ∧
      (results.map (·.out)).flatten = frame ∧
      (∀ r ∈ results, r.ret = r.out.length) ∧
      results.map (·.gotFrame) = List.replicate (packets.length - 1) false ++ [true] ∧
      packets.map (fun p => (RtpHeader.ofBuffer p).seqnum) =
        (List.range packets.length).map (fun k => o.seqnum.toUInt16 + UInt16.ofNat k) ∧
      ∀ p ∈ packets, p.length - RtpHeader.MIN_SIZE ≤ MAX_SIZE := by
  obtain ⟨results, hres, hout, hret, hgot⟩ := unpackageVideo_framePackets
    (UInt32.ofInt (avRescale (if pts = 0 then millis else pts) 90000 1000)) o.seqnum gotFrame hi
    (fun out h => (payloads_plain h).1) (payloads_ne_nil hf)
  refine ⟨_, _, results, packageVideo_eq avRescale millis pts ho hf, hres, ?_, hret, ?_, ?_,
    fun p hp => ?_⟩
  · rw [hout, payloads_tail]
  · rw [hgot, length_framePackets]
  · rw [framePackets_seqnum, length_framePackets]
  · obtain ⟨out, hmem, hlen⟩ := length_of_mem_framePackets hp
    rw [hlen, Nat.add_sub_cancel_left]
    exact (payloads_plain hmem).2

/-- A frame of two packets across the wrap of the numbers. -/
theorem unpackage_package_wrap :
    ∃ o' packets results,
      (OutputProcessor.mk true 65535).packageVideo (fun a b c => a * b / c) 17
        (List.replicate 1500 0x9d) 0 = some (o', 0, packets) ∧
      packets.mapM ((InputProcessor.mk true).unpackageVideo · false) = some results ∧
      (results.map (·.out)).flatten = List.replicate 1500 0x9d ∧
      results.map (·.gotFrame) = [false, true] ∧
      packets.map (fun p => (RtpHeader.ofBuffer p).seqnum) = [65535, 0] := by
  have hf : 1 ≤ (List.replicate 1500 (0x9d : UInt8)).length := by
    rw [List.length_replicate]
    omega
  obtain ⟨o', packets, results, hp, hr, hout, -, hgot, hnum, -⟩ :=
    unpackage_package (fun a b c => a * b / c) 17 0 (o := ⟨true, 65535⟩) rfl (i := ⟨true⟩) rfl
      false (List.replicate 1500 0x9d) hf
  have hlen : packets.length = 2 := by
    have heq := packageVideo_eq (fun a b c => a * b / c) 17 0 (o := ⟨true, 65535⟩) rfl hf
    rw [hp, Option.some.injEq, Prod.mk.injEq, Prod.mk.injEq] at heq
    rw [heq.2.2, length_framePackets, payloads, List.length_map, RtpVP8Fragmenter.new,
      List.length_replicate]
    simp [calculatePackets, MAX_SIZE]
  rw [hlen] at hgot hnum
  exact ⟨o', packets, results, hp, hr, hout, hgot, hnum⟩

end KkLicode.Media
