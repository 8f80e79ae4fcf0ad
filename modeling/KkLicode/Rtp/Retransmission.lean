import KkLicode.Base.LastWrite
import KkLicode.Base.Runs
import KkLicode.Rtp.RtpRetransmissionHandler

/-! What is sent again. A slot holds the packet written into it last, so a packet that
goes out again is the last one with a number that was asked for, and a packet whose
slot was not taken goes out when the bucket lets it. That is so until a packet that
is still in its slot comes again with another number: the slot holds a pointer, and
the packet of the old number cannot be found any more. -/

namespace KkLicode.Rtp.RtpRetransmissionHandler

open Base Base.Serial

/-! ### What happens to the handler -/

/-- The packets that were written behind the handler, as they were then. -/
abbrev Sent := List (ℕ × DataPacket)

def keep : Context Sent := fun out packets _ ref => (out ++ [(ref, packets.packet ref)], packets)

/-- A packet that comes again is the same object with another header: that is how the packets of
a keyframe are repeated in slideshow mode. -/
inductive Event where
  | packet (packet : DataPacket)
  | again (ref : ℕ) (header : RtpHeader)
  | read (ssrc : SinkSSRC) (packet : RtcpPacket) (reading : RetransmissionReading)

abbrev Line := Stage RtpRetransmissionHandler Sent

def step (s : Line) : Event → Line × Unit
  | .packet p =>
    let (packets, ref) := s.packets.alloc p
    (write keep { s with packets := packets } ref, ())
  | .again ref header =>
    if ref < s.packets.count then (write keep (s.modify ref ({ · with header := header })) ref, ())
    else (s, ())
  | .read ssrc packet r => ((read keep ssrc s r packet).1, ())

/-- The handler when it was made at the time `now` and found the services it needs. -/
def start (now : ℤ) : Line := ⟨{ initialized := true, lastBitrateTime := now }, [], {}⟩

/-- A packet of a media type that was written. -/
structure Entry where
  type : PacketType
  number : UInt16
  ref : ℕ
  deriving DecidableEq, Repr

def entry (p : DataPacket) (ref : ℕ) : List Entry :=
  if p.rtcp || p.type = .other then [] else [⟨p.type, p.header.seqNumber, ref⟩]

/-- The packets written in one step. -/
def note (s : Line) : Event → List Entry
  | .packet p => entry p s.packets.count
  | .again ref header =>
    if ref < s.packets.count then entry { s.packets.packet ref with header := header } ref else []
  | .read _ _ _ => []

def history (now : ℤ) (events : List Event) : List Entry :=
  Runs.collect step note (start now) events

/-- The writes into the slots, each the number and the packet. -/
def slotWrites (entries : List Entry) : List ((PacketType × UInt16) × (UInt16 × ℕ)) :=
  entries.map fun e =>
    ((e.type, PacketBufferService.getIndexInBuffer e.number), (e.number, e.ref))

/-- The number and the packet last written into the slot of a number. -/
def lastInSlot (entries : List Entry) (type : PacketType) (n : UInt16) : Option (UInt16 × ℕ) :=
  lastWrite (type, PacketBufferService.getIndexInBuffer n) (slotWrites entries)

/-- The packet of a media type last written with a number. -/
def lastWithNumber (entries : List Entry) (type : PacketType) (n : UInt16) : Option ℕ :=
  lastWrite (type, n) (entries.map fun e => ((e.type, e.number), e.ref))

def PacketBufferService.slot (b : PacketBufferService) : PacketType → UInt16 → Option ℕ
  | .video => b.video
  | .audio => b.audio
  | .other => fun _ => none

/-- The packet is in the slot of its number. -/
def InSlot (b : PacketBufferService) (p : DataPacket) (ref : ℕ) : Prop :=
  PacketBufferService.slot b p.type (PacketBufferService.getIndexInBuffer p.header.seqNumber) =
    some ref

instance (b : PacketBufferService) (p : DataPacket) (ref : ℕ) : Decidable (InSlot b p ref) :=
  inferInstanceAs (Decidable (_ = _))

/-- A packet that is still in its slot does not come again with another number. -/
def Steady (s : Line) : Event → Prop
  | .again ref header => ref < s.packets.count →
      InSlot s.handler.packetBuffer (s.packets.packet ref) ref →
      header.seqNumber = (s.packets.packet ref).header.seqNumber
  | _ => True

instance (s : Line) : ∀ e, Decidable (Steady s e)
  | .packet _ => isTrue trivial
  | .again _ _ => inferInstanceAs (Decidable (_ → _ → _))
  | .read _ _ _ => isTrue trivial

/-! ### What a feedback packet asks for -/

/-- The media type the source of a request stands for. -/
def mediaOf (ssrc : SinkSSRC) (source : UInt32) : Option PacketType :=
  if ssrc.video = source then some .video
  else if ssrc.audio = source then some .audio
  else none

def requests (packet : RtcpPacket) : List Request :=
  packet.blocks.flatMap fun chead =>
    if chead.packettype = RTCP_RTP_Feedback_PT then
      chead.nacks.flatMap fun nack => nack.numbers.map (chead.sourceSSRC, ·)
    else []

theorem mem_requests {packet : RtcpPacket} {source : UInt32} {n : UInt16} :
    (source, n) ∈ requests packet ↔ ∃ chead ∈ packet.blocks,
      chead.packettype = RTCP_RTP_Feedback_PT ∧ chead.sourceSSRC = source ∧
        ∃ nack ∈ chead.nacks, n ∈ nack.numbers := by
  simp only [requests, List.mem_flatMap]
  refine exists_congr fun chead => and_congr_right fun _ => ?_
  split_ifs with h
  · simp only [List.mem_flatMap, List.mem_map, Prod.mk.injEq, h, true_and]
    constructor
    · rintro ⟨nack, hm, m, hn, hs, rfl⟩
      exact ⟨hs, nack, hm, hn⟩
    · rintro ⟨hs, nack, hm, hn⟩
      exact ⟨nack, hm, n, hn, hs, rfl⟩
  · simp [h]

/-- The attempts for the numbers a packet asks for, one after the other, and how they end. -/
def attempts (ssrc : SinkSSRC) (s : Line) (r : RetransmissionReading) (packet : RtcpPacket) :
    List (Request × Outcome) :=
  Runs.trace (recover keep ssrc r) { stage := s.setHandler (s.handler.calculateRtxBitrate r) }
    (requests packet)

/-- The packets sent again. -/
def resent (packets : Packets) (attempts : List (Request × Outcome)) : Sent :=
  attempts.filterMap fun a =>
    match a.2 with
    | .sent ref => some (ref, packets.packet ref)
    | _ => none

/-- Reading a feedback packet sends again what it should, when `entries` were written before. -/
structure Exact (entries : List Entry) (s : Line) (ssrc : SinkSSRC) (packet : RtcpPacket)
    (r : RetransmissionReading) : Prop where
  every : (attempts ssrc s r packet).map (·.1) = requests packet
  next : (read keep ssrc s r packet).1.next =
    s.next ++ resent s.packets (attempts ssrc s r packet)
  sound : ∀ x ∈ resent s.packets (attempts ssrc s r packet), ∃ chead ∈ packet.blocks,
    chead.packettype = RTCP_RTP_Feedback_PT ∧
      (∃ nack ∈ chead.nacks, x.2.header.seqNumber ∈ nack.numbers) ∧
      ∃ type, mediaOf ssrc chead.sourceSSRC = some type ∧
        lastWithNumber entries type x.2.header.seqNumber = some x.1
  complete : ∀ a ∈ attempts ssrc s r packet, ∀ type ref, mediaOf ssrc a.1.1 = some type →
    lastInSlot entries type a.1.2 = some (a.1.2, ref) → a.2 = .sent ref ∨ a.2 = .refused

/-! ### One attempt -/

variable {ssrc : SinkSSRC} {r : RetransmissionReading}

theorem lookup_of_mediaOf {b : PacketBufferService} {request : Request} {type : PacketType}
    (hm : mediaOf ssrc request.1 = some type) : lookup b ssrc request =
      PacketBufferService.slot b type (PacketBufferService.getIndexInBuffer request.2) := by
  unfold mediaOf at hm
  unfold lookup
  split_ifs at hm ⊢ with h1 h2
  · obtain rfl := Option.some.inj hm
    rfl
  · obtain rfl := Option.some.inj hm
    rfl

theorem mediaOf_of_lookup {b : PacketBufferService} {request : Request} {ref : ℕ}
    (hl : lookup b ssrc request = some ref) : ∃ type, mediaOf ssrc request.1 = some type := by
  unfold lookup at hl
  unfold mediaOf
  split_ifs at hl ⊢
  · exact ⟨_, rfl⟩
  · exact ⟨_, rfl⟩

theorem ne_other_of_mediaOf {source : UInt32} {type : PacketType}
    (hm : mediaOf ssrc source = some type) : type ≠ .other := by
  unfold mediaOf at hm
  split_ifs at hm
  · rw [← Option.some.inj hm]
    simp
  · rw [← Option.some.inj hm]
    simp

/-- An attempt leaves the buffer and the packets alone. -/
structure Quiet (s s' : Line) : Prop where
  enabled : s'.handler.enabled = s.handler.enabled
  initialized : s'.handler.initialized = s.handler.initialized
  packetBuffer : s'.handler.packetBuffer = s.handler.packetBuffer
  packets : s'.packets = s.packets

theorem Quiet.refl (s : Line) : Quiet s s := ⟨rfl, rfl, rfl, rfl⟩

theorem Quiet.trans {s s' s'' : Line} (h : Quiet s s') (h' : Quiet s' s'') : Quiet s s'' :=
  ⟨h'.enabled.trans h.enabled, h'.initialized.trans h.initialized,
    h'.packetBuffer.trans h.packetBuffer, h'.packets.trans h.packets⟩

theorem quiet_calculateRtxBitrate (s : Line) (r : RetransmissionReading) :
    Quiet s (s.setHandler (s.handler.calculateRtxBitrate r)) := by
  unfold calculateRtxBitrate
  split_ifs
  · exact ⟨rfl, rfl, rfl, rfl⟩
  · exact Quiet.refl s

/-- An attempt finds no packet, is refused, or finds one; it is sent if it has the number. -/
theorem recover_cases (ssrc : SinkSSRC) (r : RetransmissionReading) (s : Recovery Sent)
    (request : Request) :
    Quiet s.stage (recover keep ssrc r s request).1.stage ∧
    ((lookup s.stage.handler.packetBuffer ssrc request = none ∧
        (recover keep ssrc r s request).2 = .missed ∧
        (recover keep ssrc r s request).1.stage.next = s.stage.next) ∨
      ∃ ref, lookup s.stage.handler.packetBuffer ssrc request = some ref ∧
        (((recover keep ssrc r s request).2 = .refused ∧
            (recover keep ssrc r s request).1.stage.next = s.stage.next) ∨
          ((s.stage.packets.packet ref).header.seqNumber = request.2 ∧
            (recover keep ssrc r s request).2 = .sent ref ∧
            (recover keep ssrc r s request).1.stage.next =
              s.stage.next ++ [(ref, s.stage.packets.packet ref)]) ∨
          ((s.stage.packets.packet ref).header.seqNumber ≠ request.2 ∧
            (recover keep ssrc r s request).2 = .other ∧
            (recover keep ssrc r s request).1.stage.next = s.stage.next))) := by
  unfold recover
  cases hl : lookup s.stage.handler.packetBuffer ssrc request with
  | none => exact ⟨Quiet.refl _, .inl ⟨rfl, rfl, rfl⟩⟩
  | some ref =>
    dsimp only
    split_ifs with hrefused hnumber
    · exact ⟨⟨rfl, rfl, rfl, rfl⟩, .inr ⟨ref, rfl, .inl ⟨rfl, rfl⟩⟩⟩
    · exact ⟨⟨rfl, rfl, rfl, rfl⟩, .inr ⟨ref, rfl, .inr (.inl ⟨hnumber, rfl, rfl⟩)⟩⟩
    · exact ⟨⟨rfl, rfl, rfl, rfl⟩, .inr ⟨ref, rfl, .inr (.inr ⟨hnumber, rfl, rfl⟩)⟩⟩

theorem recover_quiet (ssrc : SinkSSRC) (r : RetransmissionReading) (s : Recovery Sent)
    (request : Request) : Quiet s.stage (recover keep ssrc r s request).1.stage :=
  (recover_cases ssrc r s request).1


/-! ### The walk -/

/-- The loop over the mask makes an attempt for each number the entry asks for. -/
theorem readNack_eq (ssrc : SinkSSRC) (r : RetransmissionReading) (source : UInt32) (w : Walk Sent)
    (nack : NackBlock) : readNack keep ssrc r source w nack =
      (nack.numbers.map (source, ·)).foldl (readNumber keep ssrc r) w := by
  have hblp : nack.blp.toNat.testBit 16 = false :=
    Nat.testBit_lt_two_pow nack.blp.toNat_lt
  have hrange : List.range (kNackBlpSize + 2) = 0 :: ((List.range 16).map (· + 1) ++ [17]) := rfl
  have hlast (w : Walk Sent) (request : Request) :
      (if (17 = 0 || nack.blp.toNat.testBit (17 - 1)) then readNumber keep ssrc r w request else w) =
        w := by simp [hblp]
  rw [readNack, hrange, List.foldl_cons, List.foldl_append, List.foldl_cons, List.foldl_nil, hlast,
    List.foldl_map, NackBlock.numbers, List.map_cons, List.foldl_cons, List.map_map, List.foldl_map,
    List.foldl_filter]
  have hfirst : nack.pid + UInt16.ofNat 0 = nack.pid := UInt16.add_zero _
  simp only [decide_true, Bool.true_or, if_true, hfirst]
  congr 1
  funext w i
  have hnext : nack.pid + UInt16.ofNat (i + 1) = nack.pid + 1 + UInt16.ofNat i := by
    rw [ofNat_add_one, UInt16.add_comm (.ofNat i), ← UInt16.add_assoc]
  rw [Function.comp_apply, hnext]
  simp

theorem readBlock_eq (ssrc : SinkSSRC) (r : RetransmissionReading) (w : Walk Sent)
    (chead : RtcpHeader) (hp : chead.packettype = RTCP_RTP_Feedback_PT) :
    readBlock keep ssrc r w chead =
      (chead.nacks.flatMap fun nack => nack.numbers.map (chead.sourceSSRC, ·)).foldl
        (readNumber keep ssrc r) { w with containsNack := true } := by
  rw [readBlock, if_pos hp, List.foldl_flatMap]
  congr 1
  funext w nack
  exact readNack_eq ssrc r chead.sourceSSRC w nack

/-- The attempts do not depend on the flags. -/
theorem foldl_readNumber_recovery (ssrc : SinkSSRC) (r : RetransmissionReading) (w : Walk Sent)
    (l : List Request) : (l.foldl (readNumber keep ssrc r) w).recovery =
      Runs.final (recover keep ssrc r) w.recovery l := by
  induction l generalizing w with
  | nil => rfl
  | cons request l ih => exact ih _

theorem foldl_readBlock_recovery (ssrc : SinkSSRC) (r : RetransmissionReading) (w : Walk Sent)
    (blocks : List RtcpHeader) : (blocks.foldl (readBlock keep ssrc r) w).recovery =
      Runs.final (recover keep ssrc r) w.recovery (blocks.flatMap fun chead =>
        if chead.packettype = RTCP_RTP_Feedback_PT then
          chead.nacks.flatMap fun nack => nack.numbers.map (chead.sourceSSRC, ·)
        else []) := by
  induction blocks generalizing w with
  | nil => rfl
  | cons chead blocks ih =>
    rw [List.foldl_cons, ih, List.flatMap_cons, Runs.final_append]
    congr 1
    split_ifs with hp
    · rw [readBlock_eq ssrc r w chead hp, foldl_readNumber_recovery]
    · rw [readBlock, if_neg hp]
      rfl

variable {s : Line} {packet : RtcpPacket}

theorem read_stage (he : s.handler.enabled = true) (hi : s.handler.initialized = true)
    (hf : packet.first.isFeedback = true) : (read keep ssrc s r packet).1 =
      (Runs.final (recover keep ssrc r)
        { stage := s.setHandler (s.handler.calculateRtxBitrate r) } (requests packet)).stage := by
  rw [read, if_neg (by simp [he, hi])]
  dsimp only
  rw [if_pos hf, foldl_readBlock_recovery]
  rfl

/-- A run of attempts leaves the buffer and the packets alone, and writes what is sent. -/
theorem run_recover (ssrc : SinkSSRC) (r : RetransmissionReading) (t : Recovery Sent) (l : List Request) :
    Quiet t.stage (Runs.final (recover keep ssrc r) t l).stage ∧
      (Runs.final (recover keep ssrc r) t l).stage.next =
        t.stage.next ++ resent t.stage.packets (Runs.trace (recover keep ssrc r) t l) := by
  induction l generalizing t with
  | nil => exact ⟨Quiet.refl _, (List.append_nil _).symm⟩
  | cons request l ih =>
    obtain ⟨hq, hn⟩ := ih (recover keep ssrc r t request).1
    obtain ⟨hq', hcases⟩ := recover_cases ssrc r t request
    refine ⟨hq'.trans hq, ?_⟩
    rw [Runs.final_cons, hn, hq'.packets, Runs.trace_cons]
    rcases hcases with ⟨-, ho, hn'⟩ | ⟨ref, -, ⟨ho, hn'⟩ | ⟨-, ho, hn'⟩ | ⟨-, ho, hn'⟩⟩
    · simp [resent, ho, hn']
    · simp [resent, ho, hn']
    · simp [resent, ho, hn']
    · simp [resent, ho, hn']


theorem read_quiet (he : s.handler.enabled = true) (hi : s.handler.initialized = true)
    (ssrc : SinkSSRC) (r : RetransmissionReading) (packet : RtcpPacket) :
    Quiet s (read keep ssrc s r packet).1 := by
  have hq := quiet_calculateRtxBitrate s r
  by_cases hf : packet.first.isFeedback = true
  · rw [read_stage he hi hf]
    exact hq.trans (run_recover ssrc r { stage := s.setHandler (s.handler.calculateRtxBitrate r) } _).1
  · rw [read, if_neg (by simp [he, hi])]
    dsimp only
    rw [if_neg hf]
    exact hq

/-! ### The buffer -/

/-- The slots hold the packets written into them last, which still have the numbers they were
written with. -/
structure Buffered (entries : List Entry) (s : Line) : Prop where
  enabled : s.handler.enabled = true
  initialized : s.handler.initialized = true
  slots : ∀ type i, type ≠ .other → PacketBufferService.slot s.handler.packetBuffer type i =
    (lastWrite (type, i) (slotWrites entries)).map (·.2)
  steady : ∀ type i n ref, lastWrite (type, i) (slotWrites entries) = some (n, ref) →
    type ≠ .other ∧ i = PacketBufferService.getIndexInBuffer n ∧ ref < s.packets.count ∧
      (s.packets.packet ref).type = type ∧ (s.packets.packet ref).header.seqNumber = n

variable {entries : List Entry} {s' : Line}

theorem Buffered.quiet (hb : Buffered entries s) (hq : Quiet s s') : Buffered entries s' where
  enabled := hq.enabled.trans hb.enabled
  initialized := hq.initialized.trans hb.initialized
  slots := hq.packetBuffer.symm ▸ hb.slots
  steady := hq.packets.symm ▸ hb.steady

theorem Buffered.start (now : ℤ) : Buffered [] (start now) where
  enabled := rfl
  initialized := rfl
  slots type i _ := by cases type <;> rfl
  steady type i n ref h := by simp [slotWrites] at h

theorem slot_insertPacket (b : PacketBufferService) (p : DataPacket) (ref : ℕ)
    {type : PacketType} (ht : type ≠ .other) (i : UInt16) :
    PacketBufferService.slot (b.insertPacket p ref) type i =
      if (type, i) = (p.type, PacketBufferService.getIndexInBuffer p.header.seqNumber) then some ref
      else PacketBufferService.slot b type i := by
  unfold PacketBufferService.insertPacket
  cases type with
  | other => exact absurd rfl ht
  | video =>
    cases p.type with
    | video => simp [PacketBufferService.slot, Function.update_apply]
    | audio => simp [PacketBufferService.slot]
    | other => simp [PacketBufferService.slot]
  | audio =>
    cases p.type with
    | video => simp [PacketBufferService.slot]
    | audio => simp [PacketBufferService.slot, Function.update_apply]
    | other => simp [PacketBufferService.slot]

/-- A packet is written. If it is in a slot already, it has the number it was put there with. -/
theorem Buffered.write (hb : Buffered entries s) (packets : Packets) (ref : ℕ)
    (hcount : s.packets.count ≤ packets.count) (href : ref < packets.count)
    (hother : ∀ ref' < s.packets.count, ref' ≠ ref → packets.packet ref' = s.packets.packet ref')
    (hsteady : ∀ type i n, lastWrite (type, i) (slotWrites entries) = some (n, ref) →
      (packets.packet ref).type = type ∧ (packets.packet ref).header.seqNumber = n) :
    Buffered (entries ++ entry (packets.packet ref) ref)
      (RtpRetransmissionHandler.write keep { s with packets := packets } ref) := by
  have hkept : Buffered entries { s with packets := packets } := by
    refine ⟨hb.enabled, hb.initialized, hb.slots, fun type i n ref' h => ?_⟩
    obtain ⟨ht, hi, hlt, htype, hn⟩ := hb.steady type i n ref' h
    by_cases hr : ref' = ref
    · subst hr
      exact ⟨ht, hi, href, hsteady type i n h⟩
    · have hsame := hother ref' hlt hr
      refine ⟨ht, hi, hlt.trans_le hcount, ?_, ?_⟩
      · rw [← htype, ← hsame]
      · rw [← hn, ← hsame]
  generalize hp : packets.packet ref = p at hsteady
  have hwrite : RtpRetransmissionHandler.write keep { s with packets := packets } ref =
      (if p.rtcp then { s with packets := packets } else Stage.setHandler { s with packets := packets }
        { s.handler with
          packetBuffer := s.handler.packetBuffer.insertPacket p ref }).fireWrite keep .source ref := by
    unfold RtpRetransmissionHandler.write
    dsimp only
    rw [if_neg (by simp [hb.initialized]), hp]
  rw [hwrite]
  unfold entry
  cases hrtcp : p.rtcp with
  | true =>
    rw [if_pos rfl, Bool.true_or, if_pos rfl, List.append_nil]
    exact ⟨hkept.enabled, hkept.initialized, hkept.slots, hkept.steady⟩
  | false =>
    rw [if_neg Bool.false_ne_true, Bool.false_or]
    split_ifs with htype
    · rw [decide_eq_true_eq] at htype
      have hinsert : s.handler.packetBuffer.insertPacket p ref = s.handler.packetBuffer := by
        rw [PacketBufferService.insertPacket, htype]
      rw [List.append_nil, hinsert]
      exact ⟨hkept.enabled, hkept.initialized, hkept.slots, hkept.steady⟩
    · rw [decide_eq_true_eq] at htype
      have hconcat (type : PacketType) (i : UInt16) : lastWrite (type, i)
          (slotWrites (entries ++ [⟨p.type, p.header.seqNumber, ref⟩])) =
            if (type, i) = (p.type, PacketBufferService.getIndexInBuffer p.header.seqNumber) then
              some (p.header.seqNumber, ref)
            else lastWrite (type, i) (slotWrites entries) := by
        rw [slotWrites, List.map_append]
        exact lastWrite_concat
      refine ⟨hkept.enabled, hkept.initialized, fun type i ht => ?_, fun type i n ref' h => ?_⟩
      · refine (slot_insertPacket _ p ref ht i).trans ?_
        rw [hconcat]
        split_ifs
        · rfl
        · exact hkept.slots type i ht
      · rw [hconcat] at h
        split_ifs at h with hkey
        · obtain ⟨rfl, rfl⟩ := Prod.mk.inj (Option.some.inj h)
          obtain ⟨rfl, rfl⟩ := Prod.mk.inj hkey
          refine ⟨htype, rfl, href, ?_, ?_⟩
          · show (packets.packet ref).type = p.type
            rw [hp]
          · show (packets.packet ref).header.seqNumber = p.header.seqNumber
            rw [hp]
        · exact hkept.steady type i n ref' h


theorem Buffered.step (hb : Buffered entries s) (e : Event) (hs : Steady s e) :
    Buffered (entries ++ note s e) (step s e).1 := by
  cases e with
  | packet p =>
    have hpacket : (s.packets.alloc p).1.packet s.packets.count = p := Packets.alloc_packet ..
    have := hb.write (s.packets.alloc p).1 s.packets.count
      (Nat.le_succ _) (Nat.lt_succ_self _)
      (fun ref' hlt hne => Function.update_of_ne hne ..) (fun type i n h => by
        have := (hb.steady type i n _ h).2.2.1
        omega)
    rw [hpacket] at this
    exact this
  | again ref header =>
    by_cases hr : ref < s.packets.count
    · have hpacket : (s.packets.modify ref ({ · with header := header })).packet ref =
          { s.packets.packet ref with header := header } := Packets.modify_packet ..
      have := hb.write (s.packets.modify ref ({ · with header := header })) ref
        le_rfl hr (fun ref' _ hne => Function.update_of_ne hne ..) (fun type i n h => by
          obtain ⟨ht, rfl, -, htype, hn⟩ := hb.steady type i n ref h
          have hin : InSlot s.handler.packetBuffer (s.packets.packet ref) ref := by
            rw [InSlot, htype, hn, hb.slots type _ ht, h]
            rfl
          rw [hpacket]
          exact ⟨htype, (hs hr hin).trans hn⟩)
      rw [hpacket] at this
      simp only [note, RtpRetransmissionHandler.step, if_pos hr]
      exact this
    · simp only [note, RtpRetransmissionHandler.step, if_neg hr, List.append_nil]
      exact hb
  | read ssrc packet r =>
    rw [note, List.append_nil]
    exact hb.quiet (read_quiet hb.enabled hb.initialized ssrc r packet)

theorem Buffered.run (hb : Buffered entries s) {events : List Event}
    (hs : Runs.Steps RtpRetransmissionHandler.step Steady s events) :
    Buffered (entries ++ Runs.collect RtpRetransmissionHandler.step note s events)
      (Runs.final RtpRetransmissionHandler.step s events) := by
  induction events generalizing entries s with
  | nil =>
    rw [Runs.collect_nil, List.append_nil]
    exact hb
  | cons e events ih =>
    rw [Runs.collect_cons, ← List.append_assoc]
    exact ih (hb.step e hs.1) hs.2

/-! ### Reading feedback -/

/-- A packet that was put into its slot last is the last one with its number. -/
theorem lastWithNumber_of_lastInSlot {type : PacketType} {n : UInt16} {ref : ℕ}
    (h : lastInSlot entries type n = some (n, ref)) : lastWithNumber entries type n = some ref := by
  induction entries using List.reverseRecOn with
  | nil => simp [lastInSlot, slotWrites] at h
  | append_singleton entries e ih =>
    rw [lastInSlot, slotWrites, List.map_append, List.map_singleton, lastWrite_concat] at h
    rw [lastWithNumber, List.map_append, List.map_singleton, lastWrite_concat]
    split_ifs at h with hslot
    · obtain ⟨hn, hr⟩ := Prod.mk.inj (Option.some.inj h)
      rw [if_pos (by rw [hn, (Prod.mk.inj hslot).1]), hr]
    · rw [if_neg fun hkey => hslot ?_]
      · exact ih h
      · obtain ⟨rfl, rfl⟩ := Prod.mk.inj hkey
        rfl

theorem Buffered.exact (hb : Buffered entries s) (hf : packet.first.isFeedback = true) :
    Exact entries s ssrc packet r := by
  have hq := quiet_calculateRtxBitrate s r
  obtain ⟨-, hnext⟩ := run_recover ssrc r
    { stage := s.setHandler (s.handler.calculateRtxBitrate r) } (requests packet)
  -- every attempt is made with the buffer and the packets as they were
  have hattempt : ∀ a ∈ attempts ssrc s r packet, ∃ t : Recovery Sent, Buffered entries t.stage ∧
      t.stage.packets = s.packets ∧ a.2 = (recover keep ssrc r t a.1).2 := by
    intro a ha
    obtain ⟨t, ⟨hbt, hpt⟩, hout⟩ := Runs.exists_of_mem_trace_invariant
      (P := fun t : Recovery Sent => Buffered entries t.stage ∧ t.stage.packets = s.packets)
      (fun t request ht => ⟨ht.1.quiet (recover_quiet ssrc r t request),
        (recover_quiet ssrc r t request).packets.trans ht.2⟩) ⟨hb.quiet hq, hq.packets⟩ ha
    exact ⟨t, hbt, hpt, hout⟩
  have hevery : (attempts ssrc s r packet).map (·.1) = requests packet :=
    Runs.trace_map_fst _ _ _
  refine ⟨hevery, ?_, ?_, ?_⟩
  · rw [read_stage hb.enabled hb.initialized hf]
    exact hnext
  · intro x hx
    obtain ⟨⟨⟨source, n⟩, o⟩, ha, hsent⟩ := List.mem_filterMap.mp hx
    obtain ⟨t, hbt, hpt, hout⟩ := hattempt _ ha
    have hrequest : (source, n) ∈ requests packet := by
      rw [← hevery]
      exact List.mem_map_of_mem ha
    obtain ⟨chead, hblock, htype, rfl, nack, hnack, hmem⟩ := mem_requests.mp hrequest
    cases o with
    | missed => cases hsent
    | refused => cases hsent
    | other => cases hsent
    | sent ref =>
      obtain rfl := Option.some.inj hsent
      obtain ⟨hlookup, hn⟩ : lookup t.stage.handler.packetBuffer ssrc (chead.sourceSSRC, n) =
          some ref ∧ (t.stage.packets.packet ref).header.seqNumber = n := by
        rcases (recover_cases ssrc r t (chead.sourceSSRC, n)).2 with
          ⟨-, h, -⟩ | ⟨ref', hsome, ⟨h, -⟩ | ⟨hn, h, -⟩ | ⟨-, h, -⟩⟩
        · cases hout.trans h
        · cases hout.trans h
        · cases hout.trans h
          exact ⟨hsome, hn⟩
        · cases hout.trans h
      obtain ⟨type, hm⟩ := mediaOf_of_lookup hlookup
      rw [lookup_of_mediaOf hm, hbt.slots _ _ (ne_other_of_mediaOf hm)] at hlookup
      obtain ⟨⟨m, ref'⟩, hlast, hr⟩ := Option.map_eq_some_iff.mp hlookup
      obtain rfl : ref' = ref := hr
      obtain ⟨-, -, -, -, hm'⟩ := hbt.steady _ _ _ _ hlast
      obtain rfl : m = n := hm'.symm.trans hn
      rw [hpt] at hn
      refine ⟨chead, hblock, htype, ⟨nack, hnack, hn.symm ▸ hmem⟩, type, hm, ?_⟩
      show lastWithNumber entries type (s.packets.packet ref').header.seqNumber = some ref'
      rw [hn]
      exact lastWithNumber_of_lastInSlot hlast
  · intro a ha type ref hm hl
    obtain ⟨t, hbt, hpt, hout⟩ := hattempt a ha
    obtain ⟨ht, -, -, -, hn⟩ := hbt.steady _ _ _ _ hl
    have hlookup : lookup t.stage.handler.packetBuffer ssrc a.1 = some ref := by
      rw [lookup_of_mediaOf hm, hbt.slots _ _ ht]
      exact congrArg (Option.map _) hl
    rw [hout]
    rcases (recover_cases ssrc r t a.1).2 with ⟨hnone, -⟩ | ⟨ref', hsome, h⟩
    · rw [hlookup] at hnone
      cases hnone
    · obtain rfl := Option.some.inj (hlookup.symm.trans hsome)
      rcases h with ⟨h, -⟩ | ⟨-, h, -⟩ | ⟨hne, -⟩
      · exact .inr h
      · exact .inl h
      · exact absurd hn hne


/-- After every run in which no packet that is still in its slot comes again with another number,
feedback is answered exactly. -/
theorem read_exact (now : ℤ) (events : List Event)
    (hs : Runs.Steps step Steady (start now) events) (ssrc : SinkSSRC) (packet : RtcpPacket)
    (hf : packet.first.isFeedback = true) (r : RetransmissionReading) :
    Exact (history now events) (Runs.final step (start now) events) ssrc packet r := by
  have hb := (Buffered.start now).run hs
  rw [List.nil_append] at hb
  exact hb.exact hf

/-- A packet that comes again when another one took its slot, and a mask across the wrap. -/
theorem read_exact_mask :
    let events := [.packet { header := { seqNumber := 65535 } }, .packet { header := { seqNumber := 0 } },
      .packet { header := { seqNumber := 256 } }, .again 1 { seqNumber := 257 },
      .packet { type := .audio, header := { seqNumber := 0 } }]
    Exact (history 0 events) (Runs.final step (start 0) events) ⟨1, 2⟩
      { first := { sourceSSRC := 2, nacks := [⟨65535, 1⟩] } }
      { bucketTime := fun _ => 1000000000000 } :=
  read_exact 0 _ (by decide) _ _ (by decide) _

/-- A packet that comes again with the next number while it is in its slot is not found when its
old number is asked for. -/
theorem not_read_exact : ¬∀ (now : ℤ) (events : List Event) (ssrc : SinkSSRC) (packet : RtcpPacket),
    packet.first.isFeedback = true → ∀ r : RetransmissionReading,
      Exact (history now events) (Runs.final step (start now) events) ssrc packet r := by
  intro h
  have hc := (h 0 [.packet { header := { seqNumber := 1 } }, .again 0 { seqNumber := 2 }] ⟨1, 2⟩
    { first := { sourceSSRC := 2, nacks := [⟨1, 0⟩] } } (by decide)
    { bucketTime := fun _ => 1000000000000 }).complete ((2, 1), .other) (by decide) .video 0
    (by decide) (by decide)
  simp at hc


end KkLicode.Rtp.RtpRetransmissionHandler
