import KkLicode.Rtp.RtcpNackGenerator

/-! What an `RtcpNackGenerator` asks for over a run: only numbers that were
skipped and did not arrive, each at most twice and not in quick succession. All
numbers are compared by their distance from a base, which the span of the run
makes a linear order. -/

namespace KkLicode.Rtp.RtcpNackGenerator

open Base Base.Serial

inductive Event where
  | rtp (packet : DataPacket)
  | rr (nowMs : UInt64) (rrPacket : RtcpPacket)
  deriving DecidableEq, Repr

/-- A call, with the report it completes. -/
def step (g : RtcpNackGenerator) : Event → RtcpNackGenerator × Option RtcpPacket
  | .rtp packet => ((g.handleRtpPacket packet).1, none)
  | .rr nowMs rrPacket =>
    ((g.addNackPacketToRr nowMs rrPacket).1, some (g.addNackPacketToRr nowMs rrPacket).2.1)

/-- The time on the clock. -/
def Event.nowMs : Event → Option UInt64
  | .rtp _ => none
  | .rr nowMs _ => some nowMs

/-- The number of a packet of the stream. -/
def receivedAt (g : RtcpNackGenerator) : Event → List UInt16
  | .rtp packet => if g.OfStream packet then [packet.header.seqNumber] else []
  | .rr _ _ => []

/-- The numbers that a packet ahead of the highest one skips. -/
def skippedAt (g : RtcpNackGenerator) : Event → List UInt16
  | .rtp packet =>
    if g.OfStream packet ∧ g.initialized ∧ ahead g.highestSeqNum packet.header.seqNumber < 4096 then
      between g.highestSeqNum packet.header.seqNumber
    else []
  | .rr _ _ => []

/-- The entries added to a report. -/
def emittedAt (g : RtcpNackGenerator) : Event → List NackBlock
  | .rtp _ => []
  | .rr nowMs rrPacket =>
    (g.addNackPacketToRr nowMs rrPacket).2.1.nacks.drop rrPacket.nacks.length

/-- The numbers they ask for, with the time. -/
def requestedAt (g : RtcpNackGenerator) (e : Event) : List (UInt64 × UInt16) :=
  ((emittedAt g e).flatMap (·.numbers)).map fun n => (e.nowMs.getD 0, n)

/-- A packet of the stream is fewer than 4096 ahead of the highest one and at most 4095 behind. -/
def Near (g : RtcpNackGenerator) : Event → Prop
  | .rtp packet => g.OfStream packet → g.initialized →
    ahead g.highestSeqNum packet.header.seqNumber < 4096 ∨
      ahead packet.header.seqNumber g.highestSeqNum ≤ 4095
  | .rr _ _ => True

instance (g : RtcpNackGenerator) : ∀ e, Decidable (Near g e)
  | .rtp _ => inferInstanceAs (Decidable (_ → _ → _ ∨ _))
  | .rr _ _ => isTrue trivial

/-- The times at which a number was asked for. -/
def timesOf (n : UInt16) (requests : List (UInt64 × UInt16)) : List UInt64 :=
  (requests.filter (·.2 = n)).map (·.1)

/-- The entries are in order and few. -/
def Tidy (g : RtcpNackGenerator) : Prop :=
  (g.nackInfoList.Pairwise fun a b =>
    0 < ahead a.seqNum b.seqNum ∧ ahead a.seqNum b.seqNum < 2 ^ 15) ∧
  g.nackInfoList.length ≤ kMaxNacks

variable {g : RtcpNackGenerator} {base : UInt16} {es : List Event}
  {received skipped : List UInt16} {requests : List (UInt64 × UInt16)} {times : List UInt64}

/-- What the entry knows of the requests for it. -/
structure Counted (info : NackInfo) (times : List UInt64) : Prop where
  count : times.length = info.retransmits.toNat
  last : times.getLast?.getD 0 = info.sentTime

/-- At most two requests, more than the delay apart. -/
structure Spaced (times : List UInt64) : Prop where
  few : times.length ≤ 2
  apart : times.Pairwise fun t t' => t.toNat + kMinNackDelayMs.toNat < t'.toNat

/-- The state of a generator, against the packets that arrived, the numbers that were skipped and
the requests that were made, the last of them at a time of the clock. -/
structure Sound (base : UInt16) (clock : List UInt64) (received skipped : List UInt16)
    (requests : List (UInt64 × UInt16)) (g : RtcpNackGenerator) : Prop where
  unset : g.initialized = false → g.nackInfoList = [] ∧ received = [] ∧ requests = []
  highest : g.initialized = true → g.highestSeqNum ∈ received
  below : ∀ n ∈ received, ahead base n ≤ ahead base g.highestSeqNum
  sorted : g.nackInfoList.Pairwise fun a b => ahead base a.seqNum < ahead base b.seqNum
  missing : ∀ info ∈ g.nackInfoList, ahead base info.seqNum < ahead base g.highestSeqNum ∧
    info.seqNum ∈ skipped ∧ info.seqNum ∉ received
  counted : ∀ info ∈ g.nackInfoList, Counted info (timesOf info.seqNum requests)
  asked : ∀ x ∈ requests, ahead base x.2 < ahead base g.highestSeqNum ∧ x.1 ∈ clock
  spaced : ∀ n, Spaced (timesOf n requests)
  few : g.nackInfoList.length ≤ kMaxNacks

theorem Spaced.nil : Spaced [] := ⟨Nat.zero_le _, .nil⟩

theorem Sound.new (base : UInt16) (ssrc : UInt32) : Sound base [] [] [] [] { ssrc := ssrc } where
  unset _ := ⟨rfl, rfl, rfl⟩
  highest h := by cases h
  below := by simp
  sorted := .nil
  missing := by simp
  counted := by simp
  asked := by simp
  spaced _ := .nil
  few := Nat.zero_le _

/-! ### Packets -/

/-- The next packet of the stream neither repeats nor answers a request. -/
theorem Sound.receive {clock : List UInt64} (h : Sound base clock received skipped requests g)
    (hi : g.initialized = true) {n : UInt16} (hn : ahead base n ≤ ahead base g.highestSeqNum)
    {l : List NackInfo} (hl : l.Sublist g.nackInfoList) (hne : ∀ info ∈ l, info.seqNum ≠ n) :
    Sound base clock (received ++ [n]) skipped requests { g with nackInfoList := l } where
  unset hi' := absurd (hi.symm.trans hi') (by decide)
  highest _ := List.mem_append_left _ (h.highest hi)
  below m hm := by
    rcases List.mem_append.mp hm with hm | hm
    · exact h.below m hm
    · exact List.mem_singleton.mp hm ▸ hn
  sorted := h.sorted.sublist hl
  missing info hinfo := by
    obtain ⟨hlt, hs, hr⟩ := h.missing info (hl.subset hinfo)
    refine ⟨hlt, hs, fun hm => ?_⟩
    rcases List.mem_append.mp hm with hm | hm
    · exact hr hm
    · exact hne info hinfo (List.mem_singleton.mp hm)
  counted info hinfo := h.counted info (hl.subset hinfo)
  asked := h.asked
  spaced := h.spaced
  few := hl.length_le.trans h.few

theorem Sound.late {clock : List UInt64} (h : Sound base clock received skipped requests g)
    (hi : g.initialized = true) {n : UInt16} (hn : ahead base n ≤ ahead base g.highestSeqNum) :
    Sound base clock (received ++ [n]) skipped requests
      { g with nackInfoList := g.nackInfoList.eraseP (·.seqNum = n) } := by
  refine h.receive hi hn List.eraseP_sublist fun info hinfo heq => ?_
  have hs := h.sorted
  generalize g.nackInfoList = l at hs hinfo
  induction l with
  | nil => cases hinfo
  | cons e l ih =>
    rw [List.pairwise_cons] at hs
    by_cases he : e.seqNum = n
    · rw [List.eraseP_cons_of_pos (by simpa using he)] at hinfo
      have := hs.1 info hinfo
      rw [he, heq] at this
      exact lt_irrefl _ this
    · rw [List.eraseP_cons_of_neg (by simpa using he)] at hinfo
      rcases List.mem_cons.mp hinfo with rfl | hinfo
      · exact he heq
      · exact ih hs.2 hinfo

theorem mem_between {a b n : UInt16} : n ∈ between a b ↔ 0 < ahead a n ∧ ahead a n < ahead a b := by
  have hlt := ahead_lt a b
  simp only [between, List.mem_map, List.mem_range]
  constructor
  · rintro ⟨k, hk, rfl⟩
    rw [ahead_add_ofNat]
    omega
  · rintro ⟨hpos, hn⟩
    refine ⟨ahead a n - 1, by omega, ?_⟩
    rw [Nat.sub_add_cancel hpos, add_ahead]

theorem between_self (a : UInt16) : between a a = [] := by simp [between]

theorem between_pairwise (a b : UInt16) :
    (between a b).Pairwise fun m n => ahead a m < ahead a n := by
  have hlt := ahead_lt a b
  rw [between, List.pairwise_map]
  refine List.pairwise_lt_range.imp_of_mem fun {i j} hi hj hij => ?_
  rw [List.mem_range] at hi hj
  rw [ahead_add_ofNat, ahead_add_ofNat]
  omega

/-- A packet ahead of the highest one. -/
theorem Sound.jump {clock : List UInt64} (h : Sound base clock received skipped requests g)
    (hi : g.initialized = true) {n : UInt16} (hn : ahead base g.highestSeqNum < ahead base n) :
    Sound base clock (received ++ [n]) (skipped ++ between g.highestSeqNum n) requests
      { (g.addNacks n).1 with highestSeqNum := n } := by
  have hne : n ≠ g.highestSeqNum := by
    rintro rfl
    exact lt_irrefl _ hn
  have hbase (m : UInt16) (hm : m ∈ between g.highestSeqNum n) :
      ahead base m = ahead base g.highestSeqNum + ahead g.highestSeqNum m ∧
        ahead base m < ahead base n := by
    obtain ⟨hpos, hlt⟩ := mem_between.mp hm
    have h1 := ahead_base base g.highestSeqNum m
    have h2 := ahead_base base g.highestSeqNum n
    have h3 := ahead_lt base n
    have h4 := ahead_lt base m
    omega
  have hmem (info : NackInfo) (hinfo : info ∈ (g.nackInfoList ++
      (between g.highestSeqNum n).map (NackInfo.mk · 0 0)).take kMaxNacks) :
      info ∈ g.nackInfoList ∨ ∃ m ∈ between g.highestSeqNum n, info = ⟨m, 0, 0⟩ := by
    rcases List.mem_append.mp (List.mem_of_mem_take hinfo) with hinfo | hinfo
    · exact .inl hinfo
    · obtain ⟨m, hm, rfl⟩ := List.mem_map.mp hinfo
      exact .inr ⟨m, hm, rfl⟩
  rw [addNacks_eq hne]
  refine ⟨fun hi' => absurd (hi.symm.trans hi') (by decide), fun _ => List.mem_append_right _ List.mem_cons_self,
    fun m hm => ?_, ?_, fun info hinfo => ?_, fun info hinfo => ?_, fun x hx => ?_, h.spaced, ?_⟩
  · rcases List.mem_append.mp hm with hm | hm
    · exact (h.below m hm).trans hn.le
    · rw [List.mem_singleton.mp hm]
  · refine List.Pairwise.sublist (List.take_sublist ..) ?_
    rw [List.pairwise_append, List.pairwise_map]
    refine ⟨h.sorted, ?_, fun info hinfo info' hinfo' => ?_⟩
    · refine (between_pairwise _ _).imp_of_mem fun {a b} ha hb hab => ?_
      rw [(hbase a ha).1, (hbase b hb).1]
      exact Nat.add_lt_add_left hab _
    · obtain ⟨m, hm, rfl⟩ := List.mem_map.mp hinfo'
      have := (hbase m hm).1
      have := (h.missing info hinfo).1
      show ahead base info.seqNum < ahead base m
      omega
  · rcases hmem info hinfo with hinfo | ⟨m, hm, rfl⟩
    · obtain ⟨hlt, hs, hr⟩ := h.missing info hinfo
      refine ⟨hlt.trans hn, List.mem_append_left _ hs, fun hm => ?_⟩
      rcases List.mem_append.mp hm with hm | hm
      · exact hr hm
      · rw [List.mem_singleton.mp hm] at hlt
        exact absurd hlt hn.asymm
    · obtain ⟨heq, hlt⟩ := hbase m hm
      refine ⟨hlt, List.mem_append_right _ hm, fun hmem => ?_⟩
      rcases List.mem_append.mp hmem with hmem | hmem
      · have := h.below m hmem
        have := (mem_between.mp hm).1
        omega
      · obtain rfl : m = n := List.mem_singleton.mp hmem
        exact lt_irrefl _ hlt
  · rcases hmem info hinfo with hinfo | ⟨m, hm, rfl⟩
    · exact h.counted info hinfo
    · have hnone : timesOf m requests = [] := by
        rw [timesOf, List.map_eq_nil_iff, List.filter_eq_nil_iff]
        intro x hx heq
        rw [decide_eq_true_eq] at heq
        have hlt := (h.asked x hx).1
        rw [heq, (hbase m hm).1] at hlt
        omega
      exact ⟨by rw [hnone]; rfl, by rw [hnone]; rfl⟩
  · exact ⟨(h.asked x hx).1.trans hn, (h.asked x hx).2⟩
  · exact List.length_take_le ..

theorem Sound.first {clock : List UInt64} (h : Sound base clock received skipped requests g)
    (hi : g.initialized = false) (n : UInt16) :
    Sound base clock (received ++ [n]) skipped requests
      { g with highestSeqNum := n, initialized := true } := by
  obtain ⟨hl, rfl, rfl⟩ := h.unset hi
  constructor
  · intro hi'
    cases hi'
  · exact fun _ => List.mem_cons_self
  · intro m hm
    rw [List.mem_singleton.mp hm]
  · exact h.sorted
  · rw [hl]
    simp
  · exact h.counted
  · simp
  · exact h.spaced
  · exact h.few

/-- Any packet near the highest one. -/
theorem Sound.rtp {clock : List UInt64} (h : Sound base clock received skipped requests g)
    {packet : DataPacket} (hnear : Near g (.rtp packet))
    (hspan : ∀ n ∈ received ++ receivedAt g (.rtp packet), ahead base n < 2 ^ 15) :
    Sound base clock (received ++ receivedAt g (.rtp packet))
      (skipped ++ skippedAt g (.rtp packet)) requests (g.handleRtpPacket packet).1 := by
  by_cases hs : g.OfStream packet
  swap
  · simpa [receivedAt, skippedAt, hs, handleRtpPacket_other hs] using h
  rw [receivedAt, if_pos hs] at hspan ⊢
  cases hi : g.initialized with
  | false =>
    rw [handleRtpPacket_first hs hi, skippedAt, if_neg (by simp [hi]), List.append_nil]
    exact h.first hi _
  | true =>
    have hseq := hspan _ (List.mem_append_right _ List.mem_cons_self)
    have hhigh := hspan _ (List.mem_append_left _ (h.highest hi))
    have hfore := ahead_base base g.highestSeqNum packet.header.seqNumber
    have hback := ahead_base base packet.header.seqNumber g.highestSeqNum
    rw [handleRtpPacket_next hs hi]
    by_cases heq : packet.header.seqNumber = g.highestSeqNum
    · have hskip : skippedAt g (.rtp packet) = [] := by
        rw [skippedAt, heq, between_self, ite_self]
      rw [if_pos heq, heq, hskip, List.append_nil]
      refine h.receive hi le_rfl (.refl _) fun info hinfo hsame => ?_
      exact (h.missing info hinfo).1.ne (congrArg _ hsame)
    rw [if_neg heq]
    by_cases hlate : ahead packet.header.seqNumber g.highestSeqNum ≤ 4095
    · have hskip : skippedAt g (.rtp packet) = [] := by
        have hpos : 0 < ahead packet.header.seqNumber g.highestSeqNum :=
          Nat.pos_of_ne_zero fun h => heq (ahead_eq_zero.mp h)
        rw [skippedAt, if_neg]
        rintro ⟨-, -, hlt⟩
        omega
      rw [if_pos hlate, hskip, List.append_nil]
      exact h.late hi (by omega)
    · have hlt := (hnear hs hi).resolve_right hlate
      have hskip : skippedAt g (.rtp packet) = between g.highestSeqNum packet.header.seqNumber :=
        if_pos ⟨hs, hi, hlt⟩
      rw [if_neg hlate, hskip]
      exact h.jump hi (by omega)

/-! ### Reports -/

theorem timesOf_append (n : UInt16) (a b : List (UInt64 × UInt16)) :
    timesOf n (a ++ b) = timesOf n a ++ timesOf n b := by
  rw [timesOf, List.filter_append, List.map_append, timesOf, timesOf]

/-- A round asks for a number once, if at all. -/
theorem timesOf_round {asked : List NackInfo} (hn : (asked.map (·.seqNum)).Nodup) (now : UInt64)
    (n : UInt16) :
    timesOf n (asked.map fun info => (now, info.seqNum)) =
      if n ∈ asked.map (·.seqNum) then [now] else [] := by
  induction asked with
  | nil => rfl
  | cons info asked ih =>
    rw [List.map_cons, List.nodup_cons] at hn
    have hcons : timesOf n ((info :: asked).map fun info => (now, info.seqNum)) =
        (if info.seqNum = n then [now] else []) ++
          timesOf n (asked.map fun info => (now, info.seqNum)) := by
      rw [List.map_cons, ← List.singleton_append, timesOf_append]
      congr 1
      by_cases h : info.seqNum = n <;> simp [timesOf, h]
    rw [hcons, ih hn.2]
    by_cases h : info.seqNum = n
    · subst h
      rw [if_pos rfl, if_neg hn.1, List.append_nil, if_pos (by simp)]
    · rw [if_neg h, List.nil_append]
      exact if_congr (by simp [Ne.symm h]) rfl rfl

/-- The request of an entry that is due comes late enough, and is the second one at most. -/
theorem Counted.retransmit {info : NackInfo} (h : Counted info times) {now : UInt64}
    (hpos : ∀ t ∈ times, 0 < t ∧ t ≤ now) (ht : isTimeToRetransmit info now)
    (hr : info.retransmits < kMaxRetransmits) :
    Counted (retransmit info now) (times ++ [now]) ∧ Spaced (times ++ [now]) := by
  have hr := UInt16.lt_iff_toNat_lt.mp hr
  have hcount : (info.retransmits + 1).toNat = info.retransmits.toNat + 1 := by
    rw [UInt16.toNat_add]
    have : kMaxRetransmits.toNat = 2 := rfl
    simp only [UInt16.reduceToNat]
    omega
  refine ⟨⟨?_, ?_⟩, ?_, ?_⟩
  · rw [List.length_append, List.length_singleton, h.count]
    exact hcount.symm
  · rw [List.getLast?_append, List.getLast?_singleton, Option.some_or]
    rfl
  · rw [List.length_append, List.length_singleton, h.count]
    exact hr
  · have hlen : times.length ≤ 1 := by
      rw [h.count]
      exact Nat.le_of_lt_succ hr
    match times, h, hpos, hlen with
    | [], _, _, _ => exact List.pairwise_singleton _ _
    | [t], h, hpos, _ =>
      obtain ⟨hpos, hle⟩ := hpos t List.mem_cons_self
      have hsent : t = info.sentTime := h.last
      rw [isTimeToRetransmit, ← hsent, Bool.or_eq_true, decide_eq_true_eq, decide_eq_true_eq] at ht
      rcases ht with rfl | ht
      · exact absurd hpos (by decide)
      rw [gt_iff_lt, UInt64.lt_iff_toNat_lt, UInt64.toNat_sub_of_le _ _ hle] at ht
      refine List.pairwise_pair.mpr ?_
      omega

/-- A round asks for entries of the list. -/
theorem Sound.round {clock : List UInt64} (h : Sound base clock received skipped requests g)
    {now : UInt64} (hpos : ∀ t ∈ clock, 0 < t ∧ t ≤ now) {l asked : List NackInfo}
    (hr : Round now g.nackInfoList l asked) :
    Sound base (clock ++ [now]) received skipped
      (requests ++ asked.map fun info => (now, info.seqNum)) { g with nackInfoList := l } := by
  have hnodup : (g.nackInfoList.map (·.seqNum)).Nodup :=
    List.pairwise_map.mpr (h.sorted.imp fun hlt heq => hlt.ne (congrArg _ heq))
  have hasked : (asked.map (·.seqNum)).Nodup := hnodup.sublist (hr.asked_sublist.map _)
  have htimes (n : UInt16) : ∀ t ∈ timesOf n requests, 0 < t ∧ t ≤ now := by
    intro t ht
    obtain ⟨x, hx, rfl⟩ := List.mem_map.mp ht
    exact hpos _ (h.asked x (List.mem_of_mem_filter hx)).2
  have hold {info : NackInfo} (hi : info ∈ asked) :=
    (h.counted info (hr.asked_sublist.subset hi)).retransmit (htimes _) (hr.of_mem_asked hi).1
      (hr.of_mem_asked hi).2.1
  refine ⟨fun hi => ?_, h.highest, h.below, ?_, fun info hinfo => ?_, fun info hinfo => ?_,
    fun x hx => ?_, fun n => ?_, ?_⟩
  · obtain ⟨hl, hrec, hreq⟩ := h.unset hi
    have hsub := hr.asked_sublist
    have hsub' := hr.sublist
    rw [hl] at hsub hsub'
    rw [List.sublist_nil.mp hsub, hreq]
    exact ⟨List.map_eq_nil_iff.mp (List.sublist_nil.mp hsub'), hrec, rfl⟩
  · have hiff (l : List NackInfo) :
        (l.map (·.seqNum)).Pairwise (fun a b => ahead base a < ahead base b) ↔
          l.Pairwise fun a b => ahead base a.seqNum < ahead base b.seqNum := List.pairwise_map
    exact (hiff l).mp (((hiff _).mpr h.sorted).sublist hr.sublist)
  · obtain ⟨info', hi', heq⟩ := List.mem_map.mp (hr.sublist.subset (List.mem_map_of_mem hinfo))
    exact heq ▸ h.missing info' hi'
  · rw [timesOf_append, timesOf_round hasked]
    rcases hr.of_mem hnodup hinfo with ⟨hmem, hnot⟩ | ⟨old, hmem, rfl⟩
    · rw [if_neg hnot, List.append_nil]
      exact h.counted info hmem
    · rw [retransmit_seqNum, if_pos (List.mem_map_of_mem hmem)]
      exact (hold hmem).1
  · rcases List.mem_append.mp hx with hx | hx
    · obtain ⟨hlt, hmem⟩ := h.asked x hx
      exact ⟨hlt, List.mem_append_left _ hmem⟩
    · obtain ⟨info, hi, rfl⟩ := List.mem_map.mp hx
      exact ⟨(h.missing info (hr.asked_sublist.subset hi)).1,
        List.mem_append_right _ List.mem_cons_self⟩
  · rw [timesOf_append, timesOf_round hasked]
    split_ifs with hmem
    · obtain ⟨info, hi, rfl⟩ := List.mem_map.mp hmem
      exact (hold hi).2
    · rw [List.append_nil]
      exact h.spaced n
  · have := hr.sublist.length_le
    rw [List.length_map, List.length_map] at this
    exact this.trans h.few

/-- A report is one round. -/
theorem step_rr (hs : g.nackInfoList.Pairwise fun a b => ahead base a.seqNum < ahead base b.seqNum)
    (now : UInt64) (rrPacket : RtcpPacket) :
    ∃ l asked, Round now g.nackInfoList l asked ∧
      (step g (.rr now rrPacket)).1 = { g with nackInfoList := l } ∧
      requestedAt g (.rr now rrPacket) = asked.map fun info => (now, info.seqNum) := by
  obtain ⟨hg, hn⟩ := addNackPacketToRr_eq g now rrPacket
  obtain ⟨asked, hr, hnum⟩ := addNackBlocks_spec now g.nackInfoList.length hs
  refine ⟨_, asked, hr, hg, ?_⟩
  rw [requestedAt, emittedAt, hn, List.drop_left, hnum, List.map_map]
  rfl

/-! ### Runs -/

/-- The clock is positive and does not go back. -/
structure ClockOk (clock : List UInt64) : Prop where
  pos : ∀ t ∈ clock, 0 < t
  mono : clock.Pairwise (· ≤ ·)

theorem Sound.step {clock : List UInt64} (h : Sound base clock received skipped requests g)
    {e : Event} (hnear : Near g e) (hclock : ClockOk (clock ++ e.nowMs.toList))
    (hspan : ∀ n ∈ received ++ receivedAt g e, ahead base n < 2 ^ 15) :
    Sound base (clock ++ e.nowMs.toList) (received ++ receivedAt g e) (skipped ++ skippedAt g e)
      (requests ++ requestedAt g e) (RtcpNackGenerator.step g e).1 := by
  cases e with
  | rtp packet =>
    simpa [Event.nowMs, requestedAt, emittedAt, RtcpNackGenerator.step] using h.rtp hnear hspan
  | rr now rrPacket =>
    obtain ⟨l, asked, hr, hg, hreq⟩ := step_rr h.sorted now rrPacket
    rw [hg, hreq]
    simp only [receivedAt, skippedAt, List.append_nil]
    refine h.round (fun t ht => ⟨hclock.pos t (List.mem_append_left _ ht), ?_⟩) hr
    exact (List.pairwise_append.mp hclock.mono).2.2 t ht now List.mem_cons_self

theorem Sound.run {ssrc : UInt32} (hs : Runs.Steps RtcpNackGenerator.step Near { ssrc := ssrc } es)
    (hclock : ClockOk (es.filterMap Event.nowMs))
    (hspan : ∀ n ∈ Runs.collect RtcpNackGenerator.step receivedAt { ssrc := ssrc } es,
      ahead base n < 2 ^ 15) :
    Sound base (es.filterMap Event.nowMs)
      (Runs.collect RtcpNackGenerator.step receivedAt { ssrc := ssrc } es)
      (Runs.collect RtcpNackGenerator.step skippedAt { ssrc := ssrc } es)
      (Runs.collect RtcpNackGenerator.step requestedAt { ssrc := ssrc } es)
      (Runs.final RtcpNackGenerator.step { ssrc := ssrc } es) := by
  refine Runs.Steps.rec_append (P := fun l => ClockOk (l.filterMap Event.nowMs) →
    (∀ n ∈ Runs.collect RtcpNackGenerator.step receivedAt { ssrc := ssrc } l,
      ahead base n < 2 ^ 15) →
    Sound base (l.filterMap Event.nowMs)
      (Runs.collect RtcpNackGenerator.step receivedAt { ssrc := ssrc } l)
      (Runs.collect RtcpNackGenerator.step skippedAt { ssrc := ssrc } l)
      (Runs.collect RtcpNackGenerator.step requestedAt { ssrc := ssrc } l)
      (Runs.final RtcpNackGenerator.step { ssrc := ssrc } l)) ?_ ?_ hs hclock hspan
  · exact fun _ _ => .new base ssrc
  intro l e ih hnear hclock hspan
  simp only [Runs.collect_append, Runs.collect_cons, Runs.collect_nil, List.append_nil] at hspan ⊢
  have hnow : [e].filterMap Event.nowMs = e.nowMs.toList := by cases e <;> rfl
  rw [List.filterMap_append, hnow] at hclock ⊢
  rw [Runs.final_append]
  refine (ih ?_ fun n hn => hspan n (List.mem_append_left _ hn)).step hnear hclock hspan
  exact ⟨fun t ht => hclock.pos t (List.mem_append_left _ ht),
    (List.pairwise_append.mp hclock.mono).1⟩

/-- In half a lap the order from the base is that of the numbers. -/
theorem Sound.tidy {clock : List UInt64} (h : Sound base clock received skipped requests g)
    (hspan : ∀ n ∈ received, ahead base n < 2 ^ 15) : g.Tidy := by
  refine ⟨h.sorted.imp_of_mem fun {a b} ha hb hab => ?_, h.few⟩
  have hi : g.initialized = true := by
    by_contra hi
    rw [(h.unset (Bool.eq_false_iff.mpr hi)).1] at ha
    cases ha
  have := hspan _ (h.highest hi)
  have := (h.missing b hb).1
  have := ahead_base base a.seqNum b.seqNum
  omega

/-- Only missing numbers are asked for, by the entries whose counters go up, each twice at most and
with the delay in between; the list stays in order. -/
theorem nack_sound (ssrc : UInt32) (es : List Event)
    (hnear : Runs.Steps step Near { ssrc := ssrc } es)
    (hspan : ∃ base : UInt16, ∃ width < 2 ^ 15,
      ∀ n ∈ Runs.collect step receivedAt { ssrc := ssrc } es, ahead base n < width)
    (hclock : ClockOk (es.filterMap Event.nowMs)) :
    (∀ l now rrPacket r, es = l ++ Event.rr now rrPacket :: r →
      let g := Runs.final step { ssrc := ssrc } l
      let asked := (requestedAt g (.rr now rrPacket)).map Prod.snd
      (∀ n ∈ asked, n ∈ Runs.collect step skippedAt { ssrc := ssrc } l ∧
        n ∉ Runs.collect step receivedAt { ssrc := ssrc } l) ∧
      ∀ n, n ∈ asked ↔ ∃ info ∈ g.nackInfoList,
        ∃ info' ∈ (step g (.rr now rrPacket)).1.nackInfoList,
          info.seqNum = n ∧ info'.seqNum = n ∧ info'.retransmits = info.retransmits + 1) ∧
    (∀ n, Spaced (timesOf n (Runs.collect step requestedAt { ssrc := ssrc } es))) ∧
    ∀ l r, es = l ++ r → (Runs.final step { ssrc := ssrc } l).Tidy := by
  obtain ⟨base, width, hw, hall⟩ := hspan
  have hrun (l r : List Event) (heq : es = l ++ r) :
      (∀ n ∈ Runs.collect step receivedAt { ssrc := ssrc } l, ahead base n < 2 ^ 15) ∧
        Sound base (l.filterMap Event.nowMs)
          (Runs.collect step receivedAt { ssrc := ssrc } l)
          (Runs.collect step skippedAt { ssrc := ssrc } l)
          (Runs.collect step requestedAt { ssrc := ssrc } l)
          (Runs.final step { ssrc := ssrc } l) := by
    subst heq
    rw [List.filterMap_append] at hclock
    have hspan : ∀ n ∈ Runs.collect step receivedAt { ssrc := ssrc } l, ahead base n < 2 ^ 15 := by
      refine fun n hn => (hall n ?_).trans hw
      rw [Runs.collect_append]
      exact List.mem_append_left _ hn
    refine ⟨hspan, .run (Runs.steps_append.mp hnear).1 ⟨fun t ht => ?_, ?_⟩ hspan⟩
    · exact hclock.pos t (List.mem_append_left _ ht)
    · exact (List.pairwise_append.mp hclock.mono).1
  refine ⟨fun l now rrPacket r heq => ?_, ?_, fun l r heq => (hrun l r heq).2.tidy (hrun l r heq).1⟩
  · have h := (hrun l _ heq).2
    obtain ⟨l', asked, hr, hg, hreq⟩ := step_rr h.sorted now rrPacket
    have hmap : (asked.map fun info => (now, info.seqNum)).map Prod.snd = asked.map (·.seqNum) :=
      List.map_map
    dsimp only
    rw [hreq, hmap, hg]
    refine ⟨fun n hn => ?_, fun n => hr.mem_asked_iff ?_⟩
    · obtain ⟨info, hi, rfl⟩ := List.mem_map.mp hn
      exact (h.missing info (hr.asked_sublist.subset hi)).2
    · exact List.pairwise_map.mpr (h.sorted.imp fun hlt heq => hlt.ne (congrArg _ heq))
  · exact (hrun es [] (List.append_nil _).symm).2.spaced

/-- Three numbers are lost across the wrap, and one of them arrives late. -/
theorem nack_sound_wrap :
    let rtp (n : UInt16) : Event := .rtp { header := { seqNumber := n, ssrc := 5 } }
    let rr (now : UInt64) : Event := .rr now { first := { packettype := 201 } }
    let es := [rtp 65534, rtp 2, rr 100, rtp 0, rr 110, rr 130, rr 160]
    Runs.collect step requestedAt { ssrc := 5 } es =
        [(100, 65535), (100, 0), (100, 1), (130, 65535), (130, 1)] ∧
      (∀ n, Spaced (timesOf n (Runs.collect step requestedAt { ssrc := 5 } es))) ∧
      (Runs.final step { ssrc := 5 } (es.take 3)).Tidy := by
  intro rtp rr es
  have hreceived : Runs.collect step receivedAt { ssrc := 5 } es = [65534, 2, 0] := by
    decide
  have hclock : es.filterMap Event.nowMs = [100, 110, 130, 160] := rfl
  obtain ⟨-, hspaced, htidy⟩ := nack_sound 5 es (by decide)
    ⟨65534, 5, by decide, by simp [hreceived, ahead, UInt16.size]⟩ ⟨by simp [hclock], by simp [hclock]⟩
  exact ⟨by decide, hspaced, htidy _ _ (List.take_append_drop 3 es).symm⟩

end KkLicode.Rtp.RtcpNackGenerator
