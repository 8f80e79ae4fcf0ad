import KkLicode.Base.Runs
import KkLicode.Rtp.RtcpAggregator

/-! The arithmetic of aggregated reports. Both counters of a source only grow, and a
report sets their previous values to the present ones, so the differences that are
divided do not wrap. The quotient is that of integers: the fraction is right where
it is zero, and nowhere else. -/

namespace KkLicode.Rtp

open Base RtcpHeader

namespace RtcpData

/-- The previous values of the counters are not above the present ones. -/
structure Ordered (d : RtcpData) : Prop where
  seq : d.prevExtendedSeqNo.toNat ≤ d.extendedSeqNo.toNat
  lost : d.prevTotalPacketsLost.toNat ≤ d.totalPacketsLost.toNat

/-- Feedback keeps the previous values, and the counters only grow. -/
structure Grows (d d' : RtcpData) : Prop where
  prevSeq : d'.prevExtendedSeqNo = d.prevExtendedSeqNo
  prevLost : d'.prevTotalPacketsLost = d.prevTotalPacketsLost
  seq : d.extendedSeqNo.toNat ≤ d'.extendedSeqNo.toNat
  lost : d.totalPacketsLost.toNat ≤ d'.totalPacketsLost.toNat

variable {d d' d'' : RtcpData}

theorem Grows.refl (d : RtcpData) : d.Grows d := ⟨rfl, rfl, le_rfl, le_rfl⟩

theorem Grows.trans (h : d.Grows d') (h' : d'.Grows d'') : d.Grows d'' where
  prevSeq := h'.prevSeq.trans h.prevSeq
  prevLost := h'.prevLost.trans h.prevLost
  seq := h.seq.trans h'.seq
  lost := h.lost.trans h'.lost

theorem Ordered.grows (h : d.Ordered) (hg : d.Grows d') : d'.Ordered where
  seq := hg.prevSeq ▸ h.seq.trans hg.seq
  lost := hg.prevLost ▸ h.lost.trans hg.lost

theorem Grows.foldl {α : Type*} {f : RtcpData → α → RtcpData} (hf : ∀ d x, Grows d (f d x))
    (l : List α) : d.Grows (l.foldl f d) := by
  induction l generalizing d with
  | nil => exact .refl d
  | cons x l ih => exact (hf d x).trans ih

variable (d) (data : List UInt8) (chead : ℕ)

theorem grows_analyzePid (pid : UInt32) : d.Grows (d.analyzePid pid) := by
  unfold analyzePid
  split_ifs
  · exact ⟨rfl, rfl, le_rfl, le_rfl⟩
  · exact ⟨rfl, rfl, le_rfl, le_rfl⟩

theorem grows_analyzeNack : d.Grows (d.analyzeNack data chead) := by
  have hclear : d.Grows { d with shouldSendNACK := false } := ⟨rfl, rfl, le_rfl, le_rfl⟩
  have hpid := hclear.trans (grows_analyzePid _ (getNackPid data chead).toUInt32)
  have hblp := hpid.trans (Grows.foldl
    (f := fun d i => d.insertNacked ((getNackPid data chead).toUInt32 + 1 + UInt32.ofNat i))
    (fun _ _ => ⟨rfl, rfl, le_rfl, le_rfl⟩)
    ((List.range 16).filter fun i => (getNackBlp data chead).toNat.testBit i))
  unfold analyzeNack
  dsimp only
  split_ifs
  · exact hblp.trans ⟨rfl, rfl, le_rfl, le_rfl⟩
  · exact hblp

theorem toNat_le_max (m n : UInt32) : m.toNat ≤ (max m n).toNat :=
  UInt32.le_iff_toNat_le.mp (le_max_left m n)

theorem grows_analyzeCounters : d.Grows (d.analyzeCounters data chead) := by
  unfold analyzeCounters
  dsimp only
  split_ifs with hnewer
  · exact ⟨rfl, rfl, (UInt32.lt_iff_toNat_lt.mp hnewer).le, toNat_le_max _ _⟩
  · exact ⟨rfl, rfl, le_rfl, toNat_le_max _ _⟩

theorem grows_analyzeReport (nowms : UInt64) (delay : UInt32) :
    d.Grows (d.analyzeReport data chead nowms delay).1 := by
  have hcounters := d.grows_analyzeCounters data chead
  unfold analyzeReport
  dsimp only
  split_ifs
  · exact hcounters.trans ⟨rfl, rfl, le_rfl, le_rfl⟩
  · exact hcounters

theorem grows_analyzeBlock (defaultVideoBw : UInt32) (r : FeedbackReading) (delay : UInt32) :
    d.Grows (d.analyzeBlock data chead defaultVideoBw r delay).1 := by
  unfold analyzeBlock
  split_ifs
  · exact d.grows_analyzeReport data chead r.nowms delay
  · exact d.grows_analyzeNack data chead
  · exact ⟨rfl, rfl, le_rfl, le_rfl⟩
  · unfold analyzeRemb
    dsimp only
    split_ifs
    · exact ⟨rfl, rfl, le_rfl, le_rfl⟩
    · exact ⟨rfl, rfl, le_rfl, le_rfl⟩
  · exact .refl d
  · exact .refl d

theorem grows_analyzeBlocks (defaultVideoBw : UInt32) (length : ℕ) (r : FeedbackReading)
    (fuel : ℕ) (delay : UInt32) :
    d.Grows (analyzeBlocks defaultVideoBw data length r fuel d chead delay) := by
  induction fuel generalizing d chead delay with
  | zero => exact .refl d
  | succ fuel ih =>
    have hblock := d.grows_analyzeBlock data chead defaultVideoBw r delay
    unfold analyzeBlocks
    dsimp only
    split_ifs
    · exact hblock.trans (ih _ _ _)
    · exact hblock

/-! ### The fraction -/

variable {d}

/-- Since the last report there are packets, and less than a 256th as many were lost. -/
def FewLost (d : RtcpData) : Prop :=
  d.prevExtendedSeqNo.toNat + 256 * (d.totalPacketsLost.toNat - d.prevTotalPacketsLost.toNat) <
    d.extendedSeqNo.toNat

instance (d : RtcpData) : Decidable d.FewLost := inferInstanceAs (Decidable (_ < _))

/-- The divisor is not zero, and the byte is the lost part in 256ths, or 255. -/
structure RightFraction (d : RtcpData) (fractionLost : UInt8) : Prop where
  divisor : d.packetsReceivedinInterval ≠ 0
  floor : fractionLost.toNat =
    min 255 (256 * d.packetsLostInInterval.toNat / d.packetsReceivedinInterval.toNat)

/-- A fraction that the code can write is zero. -/
theorem fractionLost_eq_some {f : UInt8} :
    d.fractionLost = some f ↔ d.packetsReceivedinInterval ≠ 0 ∧
      d.packetsLostInInterval.toNat < d.packetsReceivedinInterval.toNat ∧ f = 0 := by
  unfold fractionLost
  by_cases hzero : d.packetsReceivedinInterval = 0
  · simp [hzero]
  · have hpos : 0 < d.packetsReceivedinInterval.toNat :=
      Nat.pos_of_ne_zero fun h => hzero (UInt32.toNat_inj.mp h)
    rw [if_neg hzero]
    simp only [UInt32.toNat_div]
    by_cases hlt : d.packetsLostInInterval.toNat < d.packetsReceivedinInterval.toNat
    · have hratio := Nat.div_eq_of_lt hlt
      simp [hratio, hzero, hlt, eq_comm]
    · have hratio := Nat.div_pos (Nat.not_lt.mp hlt) hpos
      rw [if_neg (by omega)]
      simp [hlt]

/-- What is written is right exactly if it is there and few packets were lost. -/
theorem rightFraction_iff (h : d.Ordered) :
    (∃ f, d.fractionLost = some f ∧ d.RightFraction f) ↔ d.FewLost := by
  have hreceived : d.packetsReceivedinInterval.toNat =
      d.extendedSeqNo.toNat - d.prevExtendedSeqNo.toNat :=
    UInt32.toNat_sub_of_le _ _ (UInt32.le_iff_toNat_le.mpr h.seq)
  have hlost : d.packetsLostInInterval.toNat =
      d.totalPacketsLost.toNat - d.prevTotalPacketsLost.toNat :=
    UInt32.toNat_sub_of_le _ _ (UInt32.le_iff_toNat_le.mpr h.lost)
  have hfew : d.FewLost ↔
      256 * d.packetsLostInInterval.toNat < d.packetsReceivedinInterval.toNat := by
    have := h.seq
    unfold FewLost
    omega
  rw [hfew]
  constructor
  · rintro ⟨f, hf, hright⟩
    obtain ⟨hne, -, rfl⟩ := fractionLost_eq_some.mp hf
    have hpos : 0 < d.packetsReceivedinInterval.toNat :=
      Nat.pos_of_ne_zero fun h => hne (UInt32.toNat_inj.mp h)
    have hfloor := hright.floor
    rw [UInt8.toNat_zero, eq_comm, Nat.min_eq_zero_iff] at hfloor
    exact (Nat.div_eq_zero_iff_lt hpos).mp (hfloor.resolve_left (by decide))
  · intro hlt
    have hne : d.packetsReceivedinInterval ≠ 0 := fun h => by
      rw [h] at hlt
      exact absurd hlt (Nat.not_lt_zero _)
    refine ⟨0, fractionLost_eq_some.mpr ⟨hne, by omega, rfl⟩, hne, ?_⟩
    rw [Nat.div_eq_of_lt hlt]
    rfl

end RtcpData

namespace RtcpAggregator

/-! ### The loop over the sources -/

variable {a : RtcpAggregator} {r : UInt32 → CheckReading} {ps : List (UInt32 × RtcpData)}
  {cs : List (UInt32 × SourceCheck)}

/-- A loop that comes to its end has been at every source. -/
theorem mem_checkSources (h : a.checkSources r ps = some cs) {x : UInt32 × SourceCheck} :
    x ∈ cs ↔ ∃ d, (x.1, d) ∈ ps ∧ a.checkSource x.1 d (r x.1) = some x.2 := by
  induction ps generalizing cs with
  | nil =>
    obtain rfl := Option.some.inj h
    simp
  | cons p ps ih =>
    obtain ⟨c, hc, h⟩ := Option.bind_eq_some_iff.mp h
    obtain ⟨cs', hcs, rfl⟩ := Option.map_eq_some_iff.mp h
    rw [List.mem_cons, ih hcs]
    constructor
    · rintro (rfl | ⟨d, hd, hx⟩)
      · exact ⟨p.2, List.mem_cons_self, hc⟩
      · exact ⟨d, List.mem_cons_of_mem _ hd, hx⟩
    · rintro ⟨d, hd, hx⟩
      rcases List.mem_cons.mp hd with rfl | hd
      · exact .inl (Prod.ext rfl (Option.some.inj (hx.symm.trans hc)))
      · exact .inr ⟨d, hd, hx⟩

theorem checkSources_isSome :
    (a.checkSources r ps).isSome ↔ ∀ p ∈ ps, (a.checkSource p.1 p.2 (r p.1)).isSome := by
  induction ps with
  | nil => simp [checkSources]
  | cons p ps ih =>
    rw [checkSources, List.forall_mem_cons, ← ih]
    cases a.checkSource p.1 p.2 (r p.1) with
    | none => simp
    | some c => simp

theorem checkSource_isSome {sourceSsrc : UInt32} {d : RtcpData} {r : CheckReading} :
    (a.checkSource sourceSsrc d r).isSome ↔ (d.isDue r = true → d.fractionLost.isSome) := by
  unfold checkSource
  split_ifs with hdue
  · rw [Option.isSome_map]
    exact ⟨fun h _ => h, fun h => h hdue⟩
  · exact ⟨fun _ h => absurd h hdue, fun _ => rfl⟩

/-- What a report says of the fraction is what was computed at its source. -/
theorem mem_report_checkSource {sourceSsrc : UInt32} {d : RtcpData} {r : CheckReading}
    {c : SourceCheck} (h : a.checkSource sourceSsrc d r = some c) :
    (∀ report ∈ c.report, d.isDue r = true ∧
        d.fractionLost = some report.receiverReport.fractionLost) ∧
      (d.isDue r = true → c.report.isSome) := by
  unfold checkSource at h
  split_ifs at h with hdue
  · obtain ⟨f, hf, rfl⟩ := Option.map_eq_some_iff.mp h
    refine ⟨fun report hreport => ⟨hdue, ?_⟩, fun _ => rfl⟩
    obtain rfl := Option.some.inj hreport
    exact hf
  · obtain rfl := Option.some.inj h
    exact ⟨fun report hreport => absurd hreport (Option.not_mem_none report), fun h => absurd h hdue⟩

/-! ### The invariant -/

/-- The counters of every source are ordered. -/
def Ordered (a : RtcpAggregator) : Prop :=
  ∀ ssrc d, a.rtcpData.find ssrc = some d → d.Ordered

theorem Ordered.addSourceSsrc (h : a.Ordered) (ssrc : UInt32) : (a.addSourceSsrc ssrc).Ordered := by
  intro ssrc' d hd
  rcases (StdMap.find_insert_eq_some ..).mp hd with hd | ⟨-, -, rfl⟩
  · exact h ssrc' d hd
  · exact ⟨le_rfl, le_rfl⟩

theorem Ordered.update (h : a.Ordered) (ssrc : UInt32) {f : RtcpData → RtcpData}
    (hf : ∀ d, RtcpData.Grows d (f d)) : (a.update ssrc f).Ordered := by
  unfold RtcpAggregator.update
  cases hfind : a.rtcpData.find ssrc with
  | none => exact h
  | some d =>
    intro ssrc' d' hd'
    rw [StdMap.find_assign] at hd'
    split_ifs at hd'
    · obtain rfl := Option.some.inj hd'
      exact (h ssrc d hfind).grows (hf d)
    · exact h ssrc' d' hd'

theorem Ordered.analyzeSr (h : a.Ordered) (data : List UInt8) (chead : ℕ) (now : UInt64) :
    (a.analyzeSr data chead now).Ordered :=
  (h.addSourceSsrc _).update _ fun _ => ⟨rfl, rfl, le_rfl, le_rfl⟩

theorem Ordered.analyzeFeedback (h : a.Ordered) (b : RtcpBuffer) (r : FeedbackReading) :
    (a.analyzeFeedback b r).Ordered := by
  unfold RtcpAggregator.analyzeFeedback
  split_ifs
  · exact h
  · exact (h.addSourceSsrc _).update _ fun d => d.grows_analyzeBlocks b.data 0 _ _ r _ _
  · exact h

theorem ordered_afterReport (d : RtcpData) (r : CheckReading) : (a.afterReport d r).Ordered := by
  unfold afterReport
  split_ifs
  · exact ⟨le_rfl, le_rfl⟩
  · exact ⟨le_rfl, le_rfl⟩

theorem ordered_checkSource {sourceSsrc : UInt32} {d : RtcpData} (h : d.Ordered) {r : CheckReading}
    {c : SourceCheck} (hc : a.checkSource sourceSsrc d r = some c) : c.data.Ordered := by
  unfold checkSource at hc
  split_ifs at hc
  · obtain ⟨f, -, rfl⟩ := Option.map_eq_some_iff.mp hc
    exact (ordered_afterReport d r).grows ⟨rfl, rfl, le_rfl, le_rfl⟩
  · obtain rfl := Option.some.inj hc
    exact h.grows ⟨rfl, rfl, le_rfl, le_rfl⟩

theorem Ordered.afterChecks (h : a.Ordered) (hcs : ∀ c ∈ cs, c.2.data.Ordered) :
    (a.afterChecks cs).Ordered := by
  unfold RtcpAggregator.afterChecks Ordered at *
  generalize a.rtcpData = m at h
  dsimp only
  induction cs generalizing m with
  | nil => exact h
  | cons c cs ih =>
    obtain ⟨hc, hcs⟩ := List.forall_mem_cons.mp hcs
    refine ih hcs _ fun ssrc d hd => ?_
    rw [StdMap.find_assign] at hd
    split_ifs at hd
    · obtain rfl := Option.some.inj hd
      exact hc
    · exact h ssrc d hd

theorem Ordered.checkRtcpFb (h : a.Ordered) {a' : RtcpAggregator}
    (hcheck : a.checkRtcpFb r = some (a', cs)) : a'.Ordered := by
  obtain ⟨cs, hcs, heq⟩ := Option.map_eq_some_iff.mp hcheck
  obtain ⟨rfl, rfl⟩ := Prod.mk.inj heq
  refine h.afterChecks fun c hc => ?_
  obtain ⟨d, hd, hsource⟩ := (mem_checkSources hcs).mp hc
  exact ordered_checkSource (h _ d (StdMap.find_of_mem_pairs hd)) hsource

/-! ### Runs -/

inductive Call where
  | analyzeSr (data : List UInt8) (chead : ℕ) (now : UInt64)
  | analyzeFeedback (b : RtcpBuffer) (r : FeedbackReading)
  | checkRtcpFb (r : UInt32 → CheckReading)

/-- A call, with the reports that it sends if all that it computes is defined. A check that is not
defined leads to no other state. -/
def call (a : RtcpAggregator) : Call → RtcpAggregator × Option (List (UInt32 × SourceCheck))
  | .analyzeSr data chead now => (a.analyzeSr data chead now, some [])
  | .analyzeFeedback b r => (a.analyzeFeedback b r, some [])
  | .checkRtcpFb r => (((a.checkRtcpFb r).map (·.1)).getD a, (a.checkRtcpFb r).map (·.2))

/-- The call is defined, and each report that it sends has the right fraction. -/
def RightReports (a : RtcpAggregator) (c : Call) : Prop :=
  ∃ cs, (a.call c).2 = some cs ∧ ∀ x ∈ cs, ∀ report ∈ x.2.report, ∃ d,
    a.rtcpData.find x.1 = some d ∧ d.RightFraction report.receiverReport.fractionLost

/-- Few packets were lost at all sources that a report is due on. -/
def FewLost (a : RtcpAggregator) : Call → Prop
  | .checkRtcpFb r => ∀ ssrc d, a.rtcpData.find ssrc = some d → d.isDue (r ssrc) = true → d.FewLost
  | _ => True

theorem Ordered.call (h : a.Ordered) (c : Call) : (a.call c).1.Ordered := by
  cases c with
  | analyzeSr data chead now => exact h.analyzeSr data chead now
  | analyzeFeedback b r => exact h.analyzeFeedback b r
  | checkRtcpFb r =>
    change (((a.checkRtcpFb r).map (·.1)).getD a).Ordered
    cases hcheck : a.checkRtcpFb r with
    | none => exact h
    | some result => exact h.checkRtcpFb hcheck

theorem rightReports_checkRtcpFb (h : a.Ordered) (r : UInt32 → CheckReading) :
    a.RightReports (.checkRtcpFb r) ↔ a.FewLost (.checkRtcpFb r) := by
  have hcall : (a.call (.checkRtcpFb r)).2 = a.checkSources r a.rtcpData.pairs := by
    change (Option.map _ _).map _ = _
    rw [Option.map_map]
    exact Option.map_id'
  unfold RightReports
  rw [hcall]
  constructor
  · rintro ⟨cs, hcs, hright⟩ ssrc d hd hdue
    have hmem := StdMap.mem_pairs_of_find hd
    have hsome := checkSources_isSome.mp (Option.isSome_iff_exists.mpr ⟨cs, hcs⟩) _ hmem
    obtain ⟨c, hc⟩ := Option.isSome_iff_exists.mp hsome
    obtain ⟨hof, hsent⟩ := mem_report_checkSource hc
    obtain ⟨report, hreport⟩ := Option.isSome_iff_exists.mp (hsent hdue)
    obtain ⟨d', hd', hfraction⟩ :=
      hright (ssrc, c) ((mem_checkSources hcs).mpr ⟨d, hmem, hc⟩) report hreport
    obtain rfl := Option.some.inj (hd.symm.trans hd')
    exact (RtcpData.rightFraction_iff (h ssrc d hd)).mp ⟨_, (hof report hreport).2, hfraction⟩
  · intro hfew
    have hsome : (a.checkSources r a.rtcpData.pairs).isSome := by
      refine checkSources_isSome.mpr fun p hp => checkSource_isSome.mpr fun hdue => ?_
      have hfind := StdMap.find_of_mem_pairs hp
      obtain ⟨f, hf, -⟩ := (RtcpData.rightFraction_iff (h _ _ hfind)).mpr (hfew _ _ hfind hdue)
      exact Option.isSome_iff_exists.mpr ⟨f, hf⟩
    obtain ⟨cs, hcs⟩ := Option.isSome_iff_exists.mp hsome
    refine ⟨cs, hcs, fun x hx report hreport => ?_⟩
    obtain ⟨d, hd, hc⟩ := (mem_checkSources hcs).mp hx
    have hfind := StdMap.find_of_mem_pairs hd
    obtain ⟨hdue, hwritten⟩ := (mem_report_checkSource hc).1 report hreport
    obtain ⟨f, hf, hright⟩ :=
      (RtcpData.rightFraction_iff (h _ _ hfind)).mpr (hfew _ _ hfind hdue)
    obtain rfl := Option.some.inj (hf.symm.trans hwritten)
    exact ⟨d, hfind, hright⟩

theorem rightReports_iff (h : a.Ordered) (c : Call) : a.RightReports c ↔ a.FewLost c := by
  cases c with
  | checkRtcpFb r => exact rightReports_checkRtcpFb h r
  | analyzeSr data chead now => exact iff_of_true ⟨[], rfl, by simp⟩ trivial
  | analyzeFeedback b r => exact iff_of_true ⟨[], rfl, by simp⟩ trivial

/-- In a run from a new aggregator all reports are defined and right exactly if at every check few
packets were lost at the sources that a report is due on. -/
theorem steps_rightReports_iff (maxVideoBw : UInt32) (sink : SinkSSRC) (audioSourceSsrc : UInt32)
    (videoSourceSsrcList : List UInt32) (calls : List Call) :
    Runs.Steps call RightReports (new maxVideoBw sink audioSourceSsrc videoSourceSsrcList) calls ↔
      Runs.Steps call FewLost (new maxVideoBw sink audioSourceSsrc videoSourceSsrcList) calls :=
  Runs.Steps.iff_of_invariant (fun _ c h _ => Ordered.call h c) (fun _ c h => rightReports_iff h c)
    (fun _ _ hd => nomatch hd) (Runs.steps_true _ _)

/-- A receiver report on source 10, with its highest number 1000 and an answer to a sender report. -/
def videoReport : RtcpBuffer :=
  .of [.receiverReport 0x81 1 [⟨10, 0, 0, 1000, 0, 7, 0⟩] []]

/-- The second check has no packets to divide by: nothing was reported since the first one. -/
theorem not_steps_rightReports : ¬∀ (maxVideoBw : UInt32) (sink : SinkSSRC)
    (audioSourceSsrc : UInt32) (videoSourceSsrcList : List UInt32) (calls : List Call),
    Runs.Steps call RightReports (new maxVideoBw sink audioSourceSsrc videoSourceSsrcList) calls := by
  intro h
  have hrun := h 300000 ⟨2, 3⟩ 11 [10] [.analyzeFeedback videoReport ⟨500, 0, fun _ => 0⟩,
    .checkRtcpFb fun _ => ⟨2000, 1000⟩, .checkRtcpFb fun _ => ⟨4000, 1000⟩]
  obtain ⟨cs, hcs, -⟩ := hrun.2.2.1
  have hnone : (((((new 300000 ⟨2, 3⟩ 11 [10]).call
      (.analyzeFeedback videoReport ⟨500, 0, fun _ => 0⟩)).1.call
        (.checkRtcpFb fun _ => ⟨2000, 1000⟩)).1.call
          (.checkRtcpFb fun _ => ⟨4000, 1000⟩)).2).isNone = true := by decide
  rw [hcs] at hnone
  exact Bool.noConfusion hnone

end RtcpAggregator

end KkLicode.Rtp
