import KkLicode.Rtp.Retransmission

/-! Which feedback `read` does not pass on. It keeps a packet back when every attempt
to answer it counts as recovered, and an attempt that the bucket refuses does; it
does not look at what else is in the packet; and a handler that is disabled, or has
not found its services, keeps everything back. -/

namespace KkLicode.Rtp.RtpRetransmissionHandler

open Base Lib

variable {ssrc : SinkSSRC} {r : RetransmissionReading} {s : Line} {packet : RtcpPacket}

/-! ### The bucket -/

/-- The packets in the slots of the numbers asked for. -/
def found (b : PacketBufferService) (ssrc : SinkSSRC) (l : List Request) : List (Request × ℕ) :=
  l.filterMap fun request => (lookup b ssrc request).map (request, ·)

/-- What the bucket says to each of them. -/
def grants (packets : Packets) (time : ℕ → UInt64) :
    TokenBucket → ℕ → List (Request × ℕ) → List ((Request × ℕ) × Bool)
  | _, _, [] => []
  | bucket, asked, x :: l =>
    let (bucket, admitted) := bucket.consume (time asked) (.ofNat (packets.packet x.2).length)
    (x, admitted) :: grants packets time bucket (asked + 1) l

theorem grants_cons (packets : Packets) (time : ℕ → UInt64) (bucket : TokenBucket) (asked : ℕ)
    (x : Request × ℕ) (l : List (Request × ℕ)) :
    grants packets time bucket asked (x :: l) =
      let c := bucket.consume (time asked) (.ofNat (packets.packet x.2).length)
      (x, c.2) :: grants packets time c.1 (asked + 1) l := rfl

theorem found_cons_none {b : PacketBufferService} {request : Request} {l : List Request}
    (h : lookup b ssrc request = none) : found b ssrc (request :: l) = found b ssrc l := by
  simp [found, h]

theorem found_cons_some {b : PacketBufferService} {request : Request} {l : List Request} {ref : ℕ}
    (h : lookup b ssrc request = some ref) :
    found b ssrc (request :: l) = (request, ref) :: found b ssrc l := by
  simp [found, h]

/-- The bucket is asked about every packet that is found, in order. -/
theorem grants_map_fst (packets : Packets) (time : ℕ → UInt64) (bucket : TokenBucket) (asked : ℕ)
    (l : List (Request × ℕ)) : (grants packets time bucket asked l).map (·.1) = l := by
  induction l generalizing bucket asked with
  | nil => rfl
  | cons x l ih => simp [grants, ih]

theorem recover_none {t : Recovery Sent} {request : Request}
    (h : lookup t.stage.handler.packetBuffer ssrc request = none) :
    recover keep ssrc r t request = (t, .missed) := by
  rw [recover, h]

/-- An attempt for a packet that is found asks the bucket once. -/
theorem recover_some {t : Recovery Sent} {request : Request} {ref : ℕ}
    (h : lookup t.stage.handler.packetBuffer ssrc request = some ref) :
    let c := t.stage.handler.bucket.consume (r.bucketTime t.asked)
      (.ofNat (t.stage.packets.packet ref).length)
    (recover keep ssrc r t request).1.asked = t.asked + 1 ∧
      (recover keep ssrc r t request).1.stage.handler.bucket = c.1 ∧
      (recover keep ssrc r t request).2 =
        if c.2 = false then .refused
        else if (t.stage.packets.packet ref).header.seqNumber = request.2 then .sent ref
        else .other := by
  unfold recover
  rw [h]
  dsimp only
  cases (t.stage.handler.bucket.consume (r.bucketTime t.asked)
    (.ofNat (t.stage.packets.packet ref).length)).2 with
  | false => exact ⟨rfl, rfl, rfl⟩
  | true =>
    simp only [Bool.not_true, Bool.false_eq_true, if_false, Bool.true_eq_false]
    split_ifs
    · exact ⟨rfl, rfl, rfl⟩
    · exact ⟨rfl, rfl, rfl⟩

/-- An attempt counts as recovered unless the packet has another number and the bucket lets it
go. -/
theorem recover_recovered_iff {t : Recovery Sent} {request : Request} {ref : ℕ}
    (h : lookup t.stage.handler.packetBuffer ssrc request = some ref) :
    (recover keep ssrc r t request).2.recovered = true ↔
      ((t.stage.handler.bucket.consume (r.bucketTime t.asked)
        (.ofNat (t.stage.packets.packet ref).length)).2 = true →
          (t.stage.packets.packet ref).header.seqNumber = request.2) := by
  rw [(recover_some h).2.2]
  cases (t.stage.handler.bucket.consume (r.bucketTime t.asked)
    (.ofNat (t.stage.packets.packet ref).length)).2 with
  | false => simp [Outcome.recovered]
  | true =>
    by_cases hn : (t.stage.packets.packet ref).header.seqNumber = request.2
    · simp [hn, Outcome.recovered]
    · simp [hn, Outcome.recovered]

theorem recover_sent_iff {t : Recovery Sent} {request : Request} {ref ref' : ℕ}
    (h : lookup t.stage.handler.packetBuffer ssrc request = some ref) :
    (recover keep ssrc r t request).2 = .sent ref' ↔
      ref' = ref ∧ (t.stage.handler.bucket.consume (r.bucketTime t.asked)
        (.ofNat (t.stage.packets.packet ref).length)).2 = true ∧
          (t.stage.packets.packet ref).header.seqNumber = request.2 := by
  rw [(recover_some h).2.2]
  cases (t.stage.handler.bucket.consume (r.bucketTime t.asked)
    (.ofNat (t.stage.packets.packet ref).length)).2 with
  | false => simp
  | true =>
    by_cases hn : (t.stage.packets.packet ref).header.seqNumber = request.2
    · simp [hn, eq_comm]
    · simp [hn]

/-- Whether all attempts count as recovered, told from the slots and the bucket. -/
theorem trace_recovered_iff (ssrc : SinkSSRC) (r : RetransmissionReading) (t : Recovery Sent)
    (l : List Request) :
    (∀ a ∈ Runs.trace (recover keep ssrc r) t l, a.2.recovered = true) ↔
      (∀ request ∈ l, lookup t.stage.handler.packetBuffer ssrc request ≠ none) ∧
        ∀ x ∈ grants t.stage.packets r.bucketTime t.stage.handler.bucket t.asked
            (found t.stage.handler.packetBuffer ssrc l),
          x.2 = true → (t.stage.packets.packet x.1.2).header.seqNumber = x.1.1.2 := by
  induction l generalizing t with
  | nil => simp [found, grants]
  | cons request l ih =>
    have hall := ih (recover keep ssrc r t request).1
    have hquiet := recover_quiet ssrc r t request
    rw [hquiet.packets, hquiet.packetBuffer] at hall
    rw [Runs.trace_cons, List.forall_mem_cons, hall, List.forall_mem_cons]
    cases hl : lookup t.stage.handler.packetBuffer ssrc request with
    | none =>
      refine iff_of_false (fun h => ?_) fun h => h.1.1 rfl
      rw [recover_none hl] at h
      exact Bool.false_ne_true h.1
    | some ref =>
      obtain ⟨hasked, hbucket, -⟩ := @recover_some ssrc r t request ref hl
      rw [found_cons_some hl, grants_cons, List.forall_mem_cons, hasked, hbucket,
        recover_recovered_iff hl]
      simp only [ne_eq, reduceCtorEq, not_false_eq_true, true_and]
      exact and_left_comm

theorem mem_trace_sent_iff (ssrc : SinkSSRC) (r : RetransmissionReading) (t : Recovery Sent)
    (l : List Request) (request : Request) (ref : ℕ) :
    (request, .sent ref) ∈ Runs.trace (recover keep ssrc r) t l ↔
      ((request, ref), true) ∈ grants t.stage.packets r.bucketTime t.stage.handler.bucket t.asked
          (found t.stage.handler.packetBuffer ssrc l) ∧
        (t.stage.packets.packet ref).header.seqNumber = request.2 := by
  induction l generalizing t with
  | nil => simp [found, grants]
  | cons q l ih =>
    have hsent := ih (recover keep ssrc r t q).1
    have hquiet := recover_quiet ssrc r t q
    rw [hquiet.packets, hquiet.packetBuffer] at hsent
    rw [Runs.trace_cons, List.mem_cons, hsent]
    cases hl : lookup t.stage.handler.packetBuffer ssrc q with
    | none =>
      rw [recover_none hl, found_cons_none hl]
      simp
    | some ref' =>
      obtain ⟨hasked, hbucket, -⟩ := @recover_some ssrc r t q ref' hl
      rw [found_cons_some hl, grants_cons, List.mem_cons, hasked, hbucket, or_and_right]
      refine or_congr_left ?_
      simp only [Prod.mk.injEq, eq_comm (b := (recover keep ssrc r t q).2), recover_sent_iff hl]
      constructor
      · rintro ⟨rfl, rfl, hadmitted, hn⟩
        exact ⟨⟨⟨rfl, rfl⟩, hadmitted.symm⟩, hn⟩
      · rintro ⟨⟨⟨rfl, rfl⟩, hadmitted⟩, hn⟩
        exact ⟨rfl, rfl, hadmitted.symm, hn⟩

/-! ### The flags -/

theorem foldl_readNumber_flags (w : Walk Sent) (l : List Request) :
    (l.foldl (readNumber keep ssrc r) w).containsNack = w.containsNack ∧
      (l.foldl (readNumber keep ssrc r) w).isFullyRecovered = (w.isFullyRecovered &&
        (Runs.trace (recover keep ssrc r) w.recovery l).all (·.2.recovered)) := by
  induction l generalizing w with
  | nil => simp
  | cons request l ih =>
    obtain ⟨hnack, hrecovered⟩ := ih (readNumber keep ssrc r w request)
    rw [List.foldl_cons, hnack, hrecovered, Runs.trace_cons, List.all_cons, ← Bool.and_assoc]
    exact ⟨rfl, rfl⟩

/-- What the blocks ask for. -/
def blockRequests (blocks : List RtcpHeader) : List Request :=
  blocks.flatMap fun chead =>
    if chead.packettype = RTCP_RTP_Feedback_PT then
      chead.nacks.flatMap fun nack => nack.numbers.map (chead.sourceSSRC, ·)
    else []

theorem blockRequests_cons (chead : RtcpHeader) (blocks : List RtcpHeader) :
    blockRequests (chead :: blocks) =
      (if chead.packettype = RTCP_RTP_Feedback_PT then
        chead.nacks.flatMap fun nack => nack.numbers.map (chead.sourceSSRC, ·)
      else []) ++ blockRequests blocks := List.flatMap_cons

theorem foldl_readBlock_flags (w : Walk Sent) (blocks : List RtcpHeader) :
    (blocks.foldl (readBlock keep ssrc r) w).containsNack =
        (w.containsNack || blocks.any (·.packettype = RTCP_RTP_Feedback_PT)) ∧
      (blocks.foldl (readBlock keep ssrc r) w).isFullyRecovered = (w.isFullyRecovered &&
        (Runs.trace (recover keep ssrc r) w.recovery (blockRequests blocks)).all
          (·.2.recovered)) := by
  induction blocks generalizing w with
  | nil => simp [blockRequests]
  | cons chead blocks ih =>
    obtain ⟨hnack, hrecovered⟩ := ih (readBlock keep ssrc r w chead)
    rw [List.foldl_cons, hnack, hrecovered, blockRequests_cons, Runs.trace_append,
      List.all_append, ← Bool.and_assoc, List.any_cons]
    by_cases hp : chead.packettype = RTCP_RTP_Feedback_PT
    · rw [if_pos hp, readBlock_eq ssrc r w chead hp, foldl_readNumber_recovery]
      obtain ⟨hnack', hrecovered'⟩ := @foldl_readNumber_flags ssrc r { w with containsNack := true }
        (chead.nacks.flatMap fun nack => nack.numbers.map (chead.sourceSSRC, ·))
      rw [hnack', hrecovered']
      simp [hp]
    · rw [if_neg hp, readBlock, if_neg hp]
      simp [hp]

/-- The first state of the attempts. -/
abbrev recovery (s : Line) (r : RetransmissionReading) : Recovery Sent :=
  { stage := s.setHandler (s.handler.calculateRtxBitrate r) }

/-- A packet is kept back if it has a feedback block and every attempt counts as recovered. -/
theorem read_dropped_iff (hon : s.handler.enabled = true) (hinit : s.handler.initialized = true) :
    (read keep ssrc s r packet).2 = false ↔
      packet.first.isFeedback = true ∧
        (∃ chead ∈ packet.blocks, chead.packettype = RTCP_RTP_Feedback_PT) ∧
        ∀ a ∈ attempts ssrc s r packet, a.2.recovered = true := by
  rw [read, if_neg (by simp [hon, hinit])]
  dsimp only
  split_ifs with hfb
  · obtain ⟨hnack, hrecovered⟩ := @foldl_readBlock_flags ssrc r { recovery := recovery s r }
      packet.blocks
    rw [hnack, hrecovered]
    simp [hfb, attempts, requests, blockRequests]
  · simp [hfb]

/-! ### What is kept back -/

/-- What the bucket says to the packets found, in the order in which it is asked. -/
def answers (ssrc : SinkSSRC) (s : Line) (r : RetransmissionReading) (packet : RtcpPacket) :
    List ((Request × ℕ) × Bool) :=
  grants s.packets r.bucketTime (s.handler.calculateRtxBitrate r).bucket 0
    (found s.handler.packetBuffer ssrc (requests packet))

def OnlyNacks (packet : RtcpPacket) : Prop :=
  ∀ chead ∈ packet.blocks, chead.packettype = RTCP_RTP_Feedback_PT

/-- Nothing is lost with the packet: everything it asks for is sent again, and it asks for nothing
but packets. -/
structure Served (ssrc : SinkSSRC) (s : Line) (r : RetransmissionReading) (packet : RtcpPacket) :
    Prop where
  resent : ∀ request ∈ requests packet,
    ∃ x ∈ (read keep ssrc s r packet).1.next.drop s.next.length,
      lookup s.handler.packetBuffer ssrc request = some x.1 ∧ x.2 = s.packets.packet x.1 ∧
        x.2.header.seqNumber = request.2
  onlyNacks : OnlyNacks packet

/-- A handler at work passes the packet on: it is none that asks for packets, or a packet is not
in its slot, or another one is that the bucket lets go. -/
def PassedOn (ssrc : SinkSSRC) (s : Line) (r : RetransmissionReading) (packet : RtcpPacket) : Prop :=
  packet.first.isFeedback = false ∨
    (∀ chead ∈ packet.blocks, chead.packettype ≠ RTCP_RTP_Feedback_PT) ∨
    (∃ request ∈ requests packet, lookup s.handler.packetBuffer ssrc request = none) ∨
    ∃ x ∈ answers ssrc s r packet,
      x.2 = true ∧ (s.packets.packet x.1.2).header.seqNumber ≠ x.1.1.2

/-- The bucket lets every packet go that is asked for, at least once. -/
def AllGranted (ssrc : SinkSSRC) (s : Line) (r : RetransmissionReading) (packet : RtcpPacket) : Prop :=
  ∀ x ∈ answers ssrc s r packet, ∃ y ∈ answers ssrc s r packet,
    y.2 = true ∧ y.1.2 = x.1.2 ∧ y.1.1.2 = x.1.1.2

theorem read_dropped_iff_not_passedOn (hon : s.handler.enabled = true)
    (hinit : s.handler.initialized = true) :
    (read keep ssrc s r packet).2 = false ↔ ¬PassedOn ssrc s r packet := by
  have hq := quiet_calculateRtxBitrate s r
  have hall := trace_recovered_iff ssrc r (recovery s r) (requests packet)
  rw [hq.packets, hq.packetBuffer] at hall
  rw [read_dropped_iff hon hinit, attempts, hall, PassedOn]
  simp only [not_or, not_exists, not_and, not_forall, Bool.not_eq_false, not_not, ne_eq, exists_prop]
  exact Iff.rfl

theorem mem_resent {packets : Packets} {l : List (Request × Outcome)} {x : ℕ × DataPacket} :
    x ∈ resent packets l ↔ ∃ request, (request, .sent x.1) ∈ l ∧ x.2 = packets.packet x.1 := by
  rw [resent, List.mem_filterMap]
  constructor
  · rintro ⟨⟨request, o⟩, hmem, hx⟩
    cases o with
    | sent ref =>
      obtain rfl := Option.some.inj hx
      exact ⟨request, hmem, rfl⟩
    | missed => cases hx
    | refused => cases hx
    | other => cases hx
  · rintro ⟨request, hmem, hx⟩
    exact ⟨_, hmem, congrArg some (Prod.ext rfl hx.symm)⟩

theorem mem_found {b : PacketBufferService} {l : List Request} {x : Request × ℕ} :
    x ∈ found b ssrc l ↔ x.1 ∈ l ∧ lookup b ssrc x.1 = some x.2 := by
  rw [found, List.mem_filterMap]
  constructor
  · rintro ⟨request, hmem, hx⟩
    obtain ⟨ref, href, rfl⟩ := Option.map_eq_some_iff.mp hx
    exact ⟨hmem, href⟩
  · rintro ⟨hmem, hx⟩
    exact ⟨x.1, hmem, by rw [hx]; rfl⟩

/-- The bucket is asked about the packets in the slots of the numbers asked for. -/
theorem fst_mem_answers {x : Request × ℕ} :
    (∃ admitted, (x, admitted) ∈ answers ssrc s r packet) ↔
      x.1 ∈ requests packet ∧ lookup s.handler.packetBuffer ssrc x.1 = some x.2 := by
  have hfst := grants_map_fst s.packets r.bucketTime (s.handler.calculateRtxBitrate r).bucket 0
    (found s.handler.packetBuffer ssrc (requests packet))
  rw [← mem_found, ← hfst, List.mem_map]
  constructor
  · rintro ⟨admitted, hx⟩
    exact ⟨_, hx, rfl⟩
  · rintro ⟨⟨_, admitted⟩, hx, rfl⟩
    exact ⟨admitted, hx⟩

/-- What is sent again is what the bucket lets go and has its number. -/
theorem mem_sentAgain (hon : s.handler.enabled = true) (hinit : s.handler.initialized = true)
    (hfb : packet.first.isFeedback = true) {x : ℕ × DataPacket} :
    x ∈ (read keep ssrc s r packet).1.next.drop s.next.length ↔
      x.2 = s.packets.packet x.1 ∧ ∃ request, ((request, x.1), true) ∈ answers ssrc s r packet ∧
        (s.packets.packet x.1).header.seqNumber = request.2 := by
  have hq := quiet_calculateRtxBitrate s r
  obtain ⟨-, hnext⟩ := run_recover ssrc r (recovery s r) (requests packet)
  have hmem := mem_trace_sent_iff ssrc r (recovery s r) (requests packet)
  rw [hq.packets] at hnext
  rw [hq.packets, hq.packetBuffer] at hmem
  rw [read_stage hon hinit hfb, hnext, show (recovery s r).stage.next = s.next from rfl,
    List.drop_left, mem_resent]
  constructor
  · rintro ⟨request, hsent, hx⟩
    exact ⟨hx, request, (hmem request x.1).mp hsent⟩
  · rintro ⟨hx, request, hsent⟩
    exact ⟨request, (hmem request x.1).mpr hsent, hx⟩

/-- Of the packets that are kept back those are served that the bucket lets go. -/
theorem served_iff (hon : s.handler.enabled = true) (hinit : s.handler.initialized = true)
    (hkept : ¬PassedOn ssrc s r packet) :
    Served ssrc s r packet ↔ OnlyNacks packet ∧ AllGranted ssrc s r packet := by
  simp only [PassedOn, not_or, not_exists, not_and, not_not, Bool.not_eq_false, ne_eq] at hkept
  obtain ⟨hfb, -, hfound, hnumber⟩ := hkept
  constructor
  · rintro ⟨hresent, hnacks⟩
    refine ⟨hnacks, fun x hx => ?_⟩
    obtain ⟨hrequest, hlookup⟩ := fst_mem_answers.mp ⟨x.2, hx⟩
    obtain ⟨y, hy, hly, hpacket, hn⟩ := hresent x.1.1 hrequest
    obtain ⟨-, request, hgranted, hn'⟩ := (mem_sentAgain hon hinit hfb).mp hy
    refine ⟨_, hgranted, rfl, Option.some.inj (hly.symm.trans hlookup), ?_⟩
    rw [← hn', ← hn, hpacket]
  · rintro ⟨hnacks, hgranted⟩
    refine ⟨fun request hrequest => ?_, hnacks⟩
    obtain ⟨ref, href⟩ := Option.ne_none_iff_exists'.mp (hfound request hrequest)
    obtain ⟨admitted, hx⟩ := (@fst_mem_answers ssrc r s packet (request, ref)).mpr ⟨hrequest, href⟩
    obtain ⟨⟨⟨request', ref'⟩, _⟩, hy, hadmitted, href', hn'⟩ := hgranted _ hx
    obtain rfl : ref' = ref := href'
    obtain rfl : _ = true := hadmitted
    have hn := hnumber _ hy rfl
    refine ⟨(ref', s.packets.packet ref'), ?_, href, rfl, hn.trans hn'⟩
    exact (mem_sentAgain hon hinit hfb).mpr ⟨rfl, request', hy, hn⟩

/-- When nothing is lost with a packet that is not passed on. -/
def LosesNothing (ssrc : SinkSSRC) (s : Line) (r : RetransmissionReading) (packet : RtcpPacket) :
    Prop :=
  if s.handler.enabled && s.handler.initialized then
    PassedOn ssrc s r packet ∨ (OnlyNacks packet ∧ AllGranted ssrc s r packet)
  else requests packet = [] ∧ OnlyNacks packet

theorem swallowed_served_iff (ssrc : SinkSSRC) (s : Line) (r : RetransmissionReading)
    (packet : RtcpPacket) :
    ((read keep ssrc s r packet).2 = false → Served ssrc s r packet) ↔
      LosesNothing ssrc s r packet := by
  unfold LosesNothing
  split_ifs with hwork
  · obtain ⟨hon, hinit⟩ := Bool.and_eq_true_iff.mp hwork
    rw [read_dropped_iff_not_passedOn hon hinit]
    by_cases hpassed : PassedOn ssrc s r packet
    · exact iff_of_true (fun h => absurd hpassed h) (.inl hpassed)
    · rw [imp_iff_right hpassed, served_iff hon hinit hpassed]
      exact (or_iff_right hpassed).symm
  · have hread : read keep ssrc s r packet = (s, false) := by
      rw [read, if_pos]
      cases he : s.handler.enabled <;> cases hi : s.handler.initialized <;> simp_all
    rw [hread, imp_iff_right rfl]
    constructor
    · rintro ⟨hresent, hnacks⟩
      refine ⟨List.eq_nil_iff_forall_not_mem.mpr fun request hrequest => ?_, hnacks⟩
      obtain ⟨x, hx, -⟩ := hresent request hrequest
      rw [hread, List.drop_length] at hx
      exact List.not_mem_nil hx
    · rintro ⟨hnone, hnacks⟩
      refine ⟨fun request hrequest => ?_, hnacks⟩
      rw [hnone] at hrequest
      exact absurd hrequest List.not_mem_nil

/-- A packet is in its slot, and the bucket has just been used up. -/
def usedUp : Line :=
  let s := (step (start 0) (.packet { header := { seqNumber := 1 } })).1
  s.setHandler { s.handler with bucket := { s.handler.bucket with time := 1000000000000 } }

/-- The packet is asked for, and nothing is sent. -/
theorem not_swallowed_served : ¬∀ (ssrc : SinkSSRC) (s : Line) (r : RetransmissionReading)
    (packet : RtcpPacket), (read keep ssrc s r packet).2 = false → Served ssrc s r packet := by
  intro h
  let packet : RtcpPacket := { first := { sourceSSRC := 2, nacks := [⟨1, 0⟩] } }
  let r : RetransmissionReading := { bucketTime := fun _ => 1000000000000 }
  have hserved := h ⟨1, 2⟩ usedUp r packet (by decide)
  obtain ⟨x, hx, -⟩ := hserved.resent (2, 1) (by decide)
  have hnone : (read keep ⟨1, 2⟩ usedUp r packet).1.next.drop usedUp.next.length = [] := by
    decide
  rw [hnone] at hx
  exact List.not_mem_nil hx

end KkLicode.Rtp.RtpRetransmissionHandler
