import KkLicode.Base.Pacing

/-! Two things that may go wrong with the machine of `Pacing`. The alarm looks at
the time of the last answer, not at that of the request, so it may come too early;
and a retry that finds the machine switched off is the last one, after which nothing
is repeated or passed on until there is an answer. For both it is said exactly which
runs are affected. -/

namespace KkLicode.Base.Pacing

variable (period timeout : ℤ) (burst : ℕ)

/-! ### Early alarms -/

/-- What can be told from the calls alone: the time, the time of the last answer, and that of the
first request since. -/
structure Heard where
  now : ℤ
  lastAnswer : ℤ
  firstRequest : Option ℤ := none
  deriving DecidableEq, Repr

def Heard.hear (h : Heard) (e : After Input) : Heard :=
  let now := h.now + e.elapsed
  match e.call with
  | .answer => { now := now, lastAnswer := now }
  | .request => { h with now := now, firstRequest := some (h.firstRequest.getD now) }
  | _ => { h with now := now }

/-- After the answer the timeout is over, after the first request it is not. -/
def Heard.Early (h : Heard) (now : ℤ) : Prop :=
  timeout ≤ now - h.lastAnswer ∧ ∃ t, h.firstRequest = some t ∧ now < t + timeout

/-- What is heard of a machine that is on, against its log. -/
structure Hears (log : List Note) (a : Repeater) (h : Heard) : Prop where
  now : h.now = a.now
  lastAnswer : h.lastAnswer = a.lastAnswer
  first : h.firstRequest = none → a.phase = .idle
  earliest : ∀ t, Outstanding log t → ∃ first, h.firstRequest = some first ∧ first ≤ t
  sent : ∀ first, h.firstRequest = some first → Outstanding log first ∧ first ≤ h.now

section Hears

variable {period timeout burst} {log : List Note} {a : Repeater} {h : Heard}

theorem hears_nil {start : ℤ} : Hears [] { lastAnswer := start, now := start } ⟨start, start, none⟩
    where
  now := rfl
  lastAnswer := rfl
  first _ := rfl
  earliest t ht := absurd ht not_outstanding_nil
  sent first hfirst := by simp at hfirst

theorem Hears.pass (hh : Hears log a h) (elapsed : ℕ) :
    Hears log (a.pass elapsed) { h with now := h.now + elapsed } where
  now := by simp [Repeater.pass, hh.now]
  lastAnswer := hh.lastAnswer
  first := hh.first
  earliest := hh.earliest
  sent first hfirst := ⟨(hh.sent first hfirst).1,
    Int.le_trans (hh.sent first hfirst).2 (Int.le_add_of_nonneg_right (Int.natCast_nonneg elapsed))⟩

/-- An answer ends what was heard. -/
theorem Hears.answer : Hears (log ++ [.answer a.now])
    { a with phase := .idle, lastAnswer := a.now } ⟨a.now, a.now, none⟩ where
  now := rfl
  lastAnswer := rfl
  first _ := rfl
  earliest t ht := by simp [outstanding_concat] at ht
  sent first hfirst := by simp at hfirst

/-- The first request goes out. -/
theorem Hears.request (hh : Hears log a h) (hnone : h.firstRequest = none) (phase : Phase) :
    Hears (log ++ [.request a.now]) { a with phase := phase } { h with firstRequest := some a.now }
    where
  now := hh.now
  lastAnswer := hh.lastAnswer
  first hfirst := by simp at hfirst
  earliest t ht := by
    refine ⟨a.now, rfl, ?_⟩
    rcases outstanding_concat.mp ht with ht | ⟨ht, -⟩
    · exact Int.le_of_eq (Note.request.inj ht)
    · obtain ⟨first, hfirst, -⟩ := hh.earliest t ht
      rw [hnone] at hfirst
      simp at hfirst
  sent first hfirst := by
    rw [← Option.some.inj hfirst]
    exact ⟨outstanding_concat.mpr (.inl rfl), Int.le_of_eq hh.now.symm⟩

/-- Later requests are not the first. -/
theorem Hears.again (hh : Hears log a h) {first : ℤ} (hsome : h.firstRequest = some first)
    (phase : Phase) : Hears (log ++ [.request a.now]) { a with phase := phase } h where
  now := hh.now
  lastAnswer := hh.lastAnswer
  first hfirst := by simp [hsome] at hfirst
  earliest t ht := by
    rcases outstanding_concat.mp ht with ht | ⟨ht, -⟩
    · refine ⟨first, hsome, ?_⟩
      rw [← Note.request.inj ht, ← hh.now]
      exact (hh.sent first hsome).2
    · exact hh.earliest t ht
  sent t ht := ⟨outstanding_concat.mpr (.inr ⟨(hh.sent t ht).1, by simp⟩), (hh.sent t ht).2⟩

theorem Hears.alarm (hh : Hears log a h) (time : ℤ) :
    Hears (log ++ List.replicate burst (.alarm time)) { a with phase := .idle } h where
  now := hh.now
  lastAnswer := hh.lastAnswer
  first _ := rfl
  earliest t ht := hh.earliest t (outstanding_alarms.mp ht)
  sent first hfirst := ⟨outstanding_alarms.mpr (hh.sent first hfirst).1, (hh.sent first hfirst).2⟩

/-- A machine that awaits something heard a request. -/
theorem Hears.exists_first (hh : Hears log a h) (hphase : a.phase ≠ .idle) :
    ∃ first, h.firstRequest = some first :=
  Option.ne_none_iff_exists'.mp fun hnone => hphase (hh.first hnone)

theorem Hears.step (hh : Hears log a h) (hon : a.enabled = true) {e : After Input}
    (he : e.call ≠ .disable) :
    Hears (log ++ (step period timeout burst a e).2) (step period timeout burst a e).1
      (h.hear e) := by
  have hpass := hh.pass e.elapsed
  have hnow : h.now + e.elapsed = (a.pass e.elapsed).now := hpass.now
  have hon' : (a.pass e.elapsed).enabled = true := hon
  cases hcall : e.call with
  | answer =>
    rw [Pacing.step, hcall, Repeater.call_answer_of_on hon', Heard.hear, hcall]
    simp only [hnow]
    exact Hears.answer
  | request =>
    rw [Pacing.step, hcall, Heard.hear, hcall]
    cases hfirst : h.firstRequest with
    | none =>
      rw [Repeater.call_request_of_idle hon' (hpass.first hfirst)]
      simpa [hnow] using hpass.request hfirst (.retrying ((a.pass e.elapsed).now + period))
    | some first =>
      by_cases hphase : (a.pass e.elapsed).phase = .idle
      · rw [Repeater.call_request_of_idle hon' hphase]
        simpa [hfirst] using hpass.again hfirst (.retrying ((a.pass e.elapsed).now + period))
      · rw [Repeater.call_request_of_ne hon' hphase]
        simpa [hfirst] using hpass
  | retry =>
    rw [Heard.hear, hcall]
    by_cases hdue : a.Due e
    · rw [step_of_due hdue, Repeater.retry]
      obtain ⟨-, due, hphase, -⟩ := hdue
      obtain ⟨first, hfirst⟩ := hh.exists_first (by simp [hphase])
      split_ifs
      · exact hpass.alarm _
      · exact hpass.again hfirst _
    · rw [step_of_not_due hcall hdue, List.append_nil]
      exact hpass
  | enable =>
    rw [Pacing.step, hcall, Repeater.call, List.append_nil, Heard.hear, hcall]
    exact { hpass with }
  | disable => exact absurd hcall he
  | other =>
    rw [Pacing.step, hcall, Repeater.call, List.append_nil, Heard.hear, hcall]
    exact hpass

end Hears

section Alarms

variable {period timeout burst}

/-- The log, the machine and what was heard go together in every run. -/
theorem keeps_hears_run {start : ℤ} (hperiod : 0 ≤ period) (hburst : 0 < burst)
    {l : List (After Input)} (hl : ∀ e ∈ l, e.call ≠ .disable) :
    let a := Runs.final (step period timeout burst) { lastAnswer := start, now := start } l
    let lg := log period timeout burst { lastAnswer := start, now := start } l
    Keeps period lg a ∧ Hears lg a (l.foldl Heard.hear ⟨start, start, none⟩) := by
  induction l using List.reverseRecOn with
  | nil => exact ⟨keeps_nil rfl rfl, hears_nil⟩
  | append_singleton l e ih =>
    obtain ⟨hkeeps, hhears⟩ := ih fun e he => hl e (by simp [he])
    have he := hl e (by simp)
    simp only [Runs.final_append, log_concat, List.foldl_append]
    exact ⟨hkeeps.step hperiod hburst he, hhears.step hkeeps.enabled he⟩

/-- Nothing but the repetition of a request raises alarms. -/
theorem notes_of_not_due {a : Repeater} {e : After Input} (h : ¬a.Due e) :
    (step period timeout burst a e).2 = [] ∨
      ∃ n, (step period timeout burst a e).2 = [n] ∧ ∀ t, n ≠ .alarm t := by
  cases hcall : e.call with
  | answer =>
    rw [step, hcall]
    exact .inr ⟨_, rfl, by simp⟩
  | request =>
    rw [step, hcall, Repeater.call]
    split_ifs
    · exact .inr ⟨_, rfl, by simp⟩
    · exact .inl rfl
    · exact .inr ⟨_, rfl, by simp⟩
  | retry =>
    rw [step_of_not_due hcall h]
    exact .inl rfl
  | enable =>
    rw [step, hcall]
    exact .inl rfl
  | disable =>
    rw [step, hcall]
    exact .inl rfl
  | other =>
    rw [step, hcall]
    exact .inl rfl

theorem justified_note {log : List Note} {n : Note} (hn : ∀ t, n ≠ .alarm t) :
    Justified timeout (log ++ [n]) ↔ Justified timeout log := by
  rw [Justified, each_concat]
  exact and_iff_left fun t ht => absurd ht (hn t)

/-- The first request is the one that has been outstanding longest. -/
theorem Hears.outstanding_iff {log : List Note} {a : Repeater} {h : Heard} (hhears : Hears log a h)
    {first now : ℤ} (hfirst : h.firstRequest = some first) :
    (∃ t, Outstanding log t ∧ t + timeout ≤ now) ↔ first + timeout ≤ now := by
  constructor
  · rintro ⟨t, ht, hle⟩
    obtain ⟨first', hfirst', hft⟩ := hhears.earliest t ht
    rw [hfirst] at hfirst'
    have := Option.some.inj hfirst'
    omega
  · exact fun hle => ⟨first, (hhears.sent first hfirst).1, hle⟩

/-- What a step notes is justified unless it is an early alarm. -/
theorem justified_step {log : List Note} {a : Repeater} {h : Heard} (hburst : 0 < burst)
    (hhears : Hears log a h) {e : After Input} :
    Justified timeout (log ++ (step period timeout burst a e).2) ↔
      Justified timeout log ∧ (a.Due e → ¬h.Early timeout (a.now + e.elapsed)) := by
  by_cases hdue : a.Due e
  · obtain ⟨first, hfirst⟩ := hhears.exists_first (by obtain ⟨-, due, hphase, -⟩ := hdue; simp [hphase])
    have hearly : h.Early timeout (a.now + e.elapsed) ↔
        timeout ≤ a.now + e.elapsed - a.lastAnswer ∧ a.now + e.elapsed < first + timeout := by
      simp [Heard.Early, hhears.lastAnswer, hfirst]
    rw [imp_iff_right hdue, step_of_due hdue, Repeater.retry, hearly]
    show Justified timeout (log ++ Prod.snd (if timeout ≤ a.now + e.elapsed - a.lastAnswer then _
      else _)) ↔ _
    by_cases htimeout : timeout ≤ a.now + e.elapsed - a.lastAnswer
    · rw [if_pos htimeout, justified_alarms hburst, hhears.outstanding_iff hfirst,
        and_iff_right htimeout, Int.not_lt]
      rfl
    · rw [if_neg htimeout, justified_note (by simp)]
      exact (and_iff_left fun h => htimeout h.1).symm
  · rw [iff_true_intro (fun h => absurd h hdue), and_true]
    rcases notes_of_not_due hdue with hnil | ⟨n, hn, hne⟩
    · rw [hnil, List.append_nil]
    · rw [hn, justified_note hne]

/-- All alarms of a run are justified if and only if no request is repeated while it is early for
an alarm, as the calls before it tell. -/
theorem justified_iff {start : ℤ} (hperiod : 0 ≤ period) (hburst : 0 < burst)
    {l : List (After Input)} (hl : ∀ e ∈ l, e.call ≠ .disable) :
    Justified timeout (log period timeout burst { lastAnswer := start, now := start } l) ↔
      Each (fun before e =>
        let a := Runs.final (step period timeout burst) { lastAnswer := start, now := start } before
        a.Due e → ¬(before.foldl Heard.hear ⟨start, start, none⟩).Early timeout
          (a.now + e.elapsed)) l := by
  induction l using List.reverseRecOn with
  | nil => exact iff_of_true each_nil each_nil
  | append_singleton l e ih =>
    have hl' : ∀ e ∈ l, e.call ≠ .disable := fun e he => hl e (by simp [he])
    obtain ⟨-, hhears⟩ := @keeps_hears_run period timeout burst start hperiod hburst l hl'
    rw [log_concat, justified_step hburst hhears, ih hl', each_concat]

end Alarms

/-! ### Lost retries -/

/-- The machine is on, and holds requests back that nothing repeats. -/
def Repeater.Stuck (a : Repeater) : Prop := a.enabled = true ∧ a.phase = .stalled

/-- The request is repeated while the machine is off, and before the timeout. -/
def Repeater.LosesRetry (a : Repeater) (e : After Input) : Prop :=
  a.Due e ∧ a.enabled = false ∧ ¬timeout ≤ a.now + e.elapsed - a.lastAnswer

section Lost

variable {period timeout burst} {a : Repeater} {e : After Input} {l : List (After Input)}

theorem step_loses (h : a.LosesRetry timeout e) :
    (step period timeout burst a e).1.enabled = false ∧
      (step period timeout burst a e).1.phase = .stalled := by
  obtain ⟨hdue, hoff, hbefore⟩ := h
  rw [step_of_due hdue, Repeater.retry,
    if_neg (show ¬timeout ≤ (a.pass e.elapsed).now - (a.pass e.elapsed).lastAnswer from hbefore)]
  exact ⟨hoff, if_neg (by rw [Repeater.pass, hoff]; exact Bool.false_ne_true)⟩

/-- Nothing else makes the machine stall. -/
theorem step_moving (hphase : a.phase ≠ .stalled) (h : ¬a.LosesRetry timeout e) :
    (step period timeout burst a e).1.phase ≠ .stalled := by
  cases hcall : e.call with
  | answer =>
    rw [step, hcall, Repeater.call]
    split_ifs
    · simp
    · exact hphase
  | request =>
    rw [step, hcall, Repeater.call]
    split_ifs
    · simp
    · exact hphase
    · exact hphase
  | retry =>
    by_cases hdue : a.Due e
    · rw [step_of_due hdue, Repeater.retry]
      split_ifs with htimeout hon
      · simp
      · simp
      · exact absurd ⟨hdue, eq_false_of_ne_true hon, htimeout⟩ h
    · rw [step_of_not_due hcall hdue]
      exact hphase
  | enable =>
    rw [step, hcall]
    exact hphase
  | disable =>
    rw [step, hcall]
    exact hphase
  | other =>
    rw [step, hcall]
    exact hphase

/-- While it is off nothing gets a stalled machine going again. -/
theorem step_stalled (hoff : a.enabled = false) (hphase : a.phase = .stalled)
    (he : e.call ≠ .enable) :
    (step period timeout burst a e).1.enabled = false ∧
      (step period timeout burst a e).1.phase = .stalled := by
  have hpass : (a.pass e.elapsed).enabled = false ∧ (a.pass e.elapsed).phase = .stalled :=
    ⟨hoff, hphase⟩
  cases hcall : e.call with
  | answer => rwa [step, hcall, Repeater.call_answer_of_off hpass.1]
  | request => rwa [step, hcall, Repeater.call_request_of_off hpass.1]
  | retry =>
    rw [step_of_not_due hcall (by rintro ⟨-, due, hdue, -⟩; simp [hphase] at hdue)]
    exact hpass
  | enable => exact absurd hcall he
  | disable =>
    rw [step, hcall]
    exact ⟨rfl, hphase⟩
  | other =>
    rw [step, hcall]
    exact hpass

theorem step_enable (he : e.call = .enable) (hphase : a.phase = .stalled) :
    (step period timeout burst a e).1.Stuck := by
  rw [step, he]
  exact ⟨rfl, hphase⟩

theorem forall_prefix_cons {P : Repeater → Prop} :
    (∀ before, before <+: e :: l → P (Runs.final (step period timeout burst) a before)) ↔
      P a ∧ ∀ before, before <+: l →
        P (Runs.final (step period timeout burst) (step period timeout burst a e).1 before) := by
  constructor
  · exact fun h => ⟨h [] List.nil_prefix, fun before hb => h (e :: before)
      ((List.prefix_cons_inj e).mpr hb)⟩
  · rintro ⟨ha, hl⟩ before hb
    rcases List.prefix_cons_iff.mp hb with rfl | ⟨rest, rfl, hrest⟩
    · exact ha
    · exact hl rest hrest

/-- A machine that stalled while it was off gets stuck when it is switched on. -/
theorem never_stuck_of_stalled (hoff : a.enabled = false) (hphase : a.phase = .stalled) :
    (∀ before, before <+: l → ¬(Runs.final (step period timeout burst) a before).Stuck) ↔
      ∀ e ∈ l, e.call ≠ .enable := by
  induction l generalizing a with
  | nil =>
    refine iff_of_true (fun before hb => ?_) fun _ h => absurd h List.not_mem_nil
    rw [List.prefix_nil.mp hb]
    exact fun h => Bool.false_ne_true (hoff.symm.trans h.1)
  | cons e l ih =>
    rw [forall_prefix_cons (P := fun a => ¬a.Stuck), List.forall_mem_cons,
      and_iff_right (fun h : a.Stuck => Bool.false_ne_true (hoff.symm.trans h.1))]
    by_cases he : e.call = .enable
    · refine iff_of_false (fun h => h [] List.nil_prefix (step_enable he hphase)) ?_
      exact fun h => h.1 he
    · rw [and_iff_right he]
      obtain ⟨hoff', hphase'⟩ := step_stalled hoff hphase he
      exact ih hoff' hphase'

/-- Once a retry is lost the machine is not switched on again. -/
def NeverResumes (period timeout : ℤ) (burst : ℕ) (a : Repeater) (l : List (After Input)) : Prop :=
  ∀ before e behind, l = before ++ e :: behind →
    (Runs.final (step period timeout burst) a before).LosesRetry timeout e →
    ∀ e' ∈ behind, e'.call ≠ .enable

theorem neverResumes_cons :
    NeverResumes period timeout burst a (e :: l) ↔
      (a.LosesRetry timeout e → ∀ e' ∈ l, e'.call ≠ .enable) ∧
        NeverResumes period timeout burst (step period timeout burst a e).1 l := by
  constructor
  · exact fun h => ⟨h [] e l rfl, fun before x behind hl => h (e :: before) x behind (by rw [hl]; rfl)⟩
  · rintro ⟨he, hl⟩ before x behind h
    cases before with
    | nil =>
      obtain ⟨rfl, rfl⟩ := List.cons.inj h
      exact he
    | cons y before =>
      obtain ⟨rfl, htail⟩ := List.cons.inj h
      exact hl before x behind htail

theorem neverResumes_of_stalled (hoff : a.enabled = false) (hphase : a.phase = .stalled)
    (hl : ∀ e ∈ l, e.call ≠ .enable) : NeverResumes period timeout burst a l := by
  induction l generalizing a with
  | nil => exact fun before e behind h => by simp at h
  | cons e l ih =>
    obtain ⟨he, hl⟩ := List.forall_mem_cons.mp hl
    obtain ⟨hoff', hphase'⟩ := step_stalled hoff hphase he
    exact neverResumes_cons.mpr ⟨fun _ => hl, ih hoff' hphase' hl⟩

/-- The machine is never stuck if and only if it is not switched on after a retry was lost. -/
theorem never_stuck_iff (hphase : a.phase ≠ .stalled) :
    (∀ before, before <+: l → ¬(Runs.final (step period timeout burst) a before).Stuck) ↔
      NeverResumes period timeout burst a l := by
  induction l generalizing a with
  | nil =>
    refine iff_of_true (fun before hb => ?_) fun before e behind h => by simp at h
    rw [List.prefix_nil.mp hb]
    exact fun h => hphase h.2
  | cons e l ih =>
    rw [forall_prefix_cons (P := fun a => ¬a.Stuck), neverResumes_cons,
      and_iff_right (fun h : a.Stuck => hphase h.2)]
    by_cases hlost : a.LosesRetry timeout e
    · obtain ⟨hoff', hphase'⟩ := @step_loses period timeout burst a e hlost
      rw [never_stuck_of_stalled hoff' hphase', imp_iff_right hlost]
      exact (and_iff_left_of_imp (neverResumes_of_stalled hoff' hphase')).symm
    · rw [ih (step_moving hphase hlost)]
      exact (and_iff_right fun h => absurd h hlost).symm

end Lost

end KkLicode.Base.Pacing
