import Mathlib.Data.Int.Notation
import KkLicode.Base.Runs

/-! Requests that are repeated until there is an answer. A request is passed on
unless one is awaited already; the one that is awaited is repeated every period,
and when the last answer is as long ago as the timeout, a burst of alarms is raised
in its place. The machine may be switched off and on.

What is promised is said of the log of a run: the answers, the requests that went
out, and the alarms, with their times. -/

namespace KkLicode.Base.Pacing

/-- Everything in the list stands in relation to what comes before it. -/
def Each {α : Type*} (P : List α → α → Prop) (l : List α) : Prop :=
  ∀ before x behind, l = before ++ x :: behind → P before x

section Each

variable {α : Type*} {P Q : List α → α → Prop} {l : List α}

@[simp] theorem each_nil : Each P [] := fun _ _ _ h => by simp at h

theorem each_concat {a : α} : Each P (l ++ [a]) ↔ Each P l ∧ P l a := by
  refine ⟨fun h => ⟨fun before x behind hl => h before x (behind ++ [a]) (by simp [hl]),
    h l a [] rfl⟩, ?_⟩
  rintro ⟨hl, ha⟩ before x behind h
  rcases List.eq_nil_or_concat behind with rfl | ⟨behind, b, rfl⟩
  · obtain ⟨rfl, hb⟩ := List.append_inj' h rfl
    rwa [← List.singleton_inj.mp hb]
  · rw [List.concat_eq_append, ← List.cons_append, ← List.append_assoc] at h
    exact hl before x behind (List.append_inj' h rfl).1

end Each

/-- A call, and the time that has passed before it. -/
structure After (α : Type*) where
  elapsed : ℕ := 0
  call : α

inductive Phase where
  | idle
  /-- A request is awaited, and will be repeated when it is due. -/
  | retrying (due : ℤ)
  /-- A request is awaited, but nothing will repeat it. -/
  | stalled
  deriving DecidableEq, Repr

structure Repeater where
  enabled : Bool := true
  phase : Phase := .idle
  lastAnswer : ℤ
  now : ℤ
  deriving DecidableEq, Repr

inductive Input where
  | answer | request | retry | enable | disable | other
  deriving DecidableEq, Repr

inductive Note where
  | answer (time : ℤ)
  | request (time : ℤ)
  | alarm (time : ℤ)
  deriving DecidableEq, Repr

section Machine

variable (period timeout : ℤ) (burst : ℕ)

/-- What happens when the request is due again. -/
def Repeater.retry (a : Repeater) : Repeater × List Note :=
  if timeout ≤ a.now - a.lastAnswer then
    ({ a with phase := .idle }, List.replicate burst (.alarm a.now))
  else
    ({ a with phase := if a.enabled then .retrying (a.now + period) else .stalled },
      [.request a.now])

def Repeater.call (a : Repeater) : Input → Repeater × List Note
  | .answer =>
    (if a.enabled then { a with phase := .idle, lastAnswer := a.now } else a, [.answer a.now])
  | .request =>
    if a.enabled then
      if a.phase = .idle then
        ({ a with phase := .retrying (a.now + period) }, [.request a.now])
      else (a, [])
    else (a, [.request a.now])
  | .retry =>
    match a.phase with
    | .retrying due => if due ≤ a.now then a.retry period timeout burst else (a, [])
    | _ => (a, [])
  | .enable => ({ a with enabled := true }, [])
  | .disable => ({ a with enabled := false }, [])
  | .other => (a, [])

def Repeater.pass (a : Repeater) (elapsed : ℕ) : Repeater := { a with now := a.now + elapsed }

def step (a : Repeater) (e : After Input) : Repeater × List Note :=
  (a.pass e.elapsed).call period timeout burst e.call

/-- What is noted in the course of a run. -/
def log (a : Repeater) (l : List (After Input)) : List Note :=
  Runs.collect (step period timeout burst) (fun a e => (step period timeout burst a e).2) a l

end Machine

/-! ### What a log says -/

/-- A request was sent at this time, and there was no answer since. -/
def Outstanding (log : List Note) (time : ℤ) : Prop :=
  ∃ before behind, log = before ++ .request time :: behind ∧ ∀ t, .answer t ∉ behind

/-- There was neither an answer nor an alarm since some request. -/
def Awaited (log : List Note) : Prop :=
  ∃ before time behind, log = before ++ .request time :: behind ∧
    (∀ t, .answer t ∉ behind) ∧ ∀ t, .alarm t ∉ behind

/-- A request that is sent while others are outstanding keeps the period to all of them. -/
def Paced (period : ℤ) (log : List Note) : Prop :=
  Each (fun before n => ∀ time, n = .request time →
    ∀ t, Outstanding before t → t + period ≤ time) log

/-- Whenever there is an alarm, a request has been outstanding for the timeout. -/
def Justified (timeout : ℤ) (log : List Note) : Prop :=
  Each (fun before n => ∀ time, n = .alarm time →
    ∃ t, Outstanding before t ∧ t + timeout ≤ time) log

section Log

variable {log : List Note} {t : ℤ}

@[simp] theorem not_outstanding_nil : ¬Outstanding [] t := by
  rintro ⟨before, behind, h, -⟩
  simp at h

theorem outstanding_concat {n : Note} :
    Outstanding (log ++ [n]) t ↔ n = .request t ∨ (Outstanding log t ∧ ∀ s, n ≠ .answer s) := by
  constructor
  · rintro ⟨before, behind, h, hb⟩
    rcases List.eq_nil_or_concat behind with rfl | ⟨behind, b, rfl⟩
    · exact .inl (List.singleton_inj.mp (List.append_inj' h rfl).2)
    · rw [List.concat_eq_append, ← List.cons_append, ← List.append_assoc] at h
      obtain ⟨hlog, hn⟩ := List.append_inj' h rfl
      obtain rfl := List.singleton_inj.mp hn
      refine .inr ⟨⟨before, behind, hlog, fun s hs => hb s (by simp [hs])⟩, ?_⟩
      rintro s rfl
      exact hb s (by simp)
  · rintro (rfl | ⟨⟨before, behind, rfl, hb⟩, hn⟩)
    · exact ⟨log, [], rfl, fun _ => List.not_mem_nil⟩
    · refine ⟨before, behind ++ [n], by simp, fun s hs => ?_⟩
      rcases List.mem_append.mp hs with hs | hs
      · exact hb s hs
      · exact hn s (List.mem_singleton.mp hs).symm

theorem awaited_concat {n : Note} :
    Awaited (log ++ [n]) ↔
      (∃ s, n = .request s) ∨ (Awaited log ∧ (∀ s, n ≠ .answer s) ∧ ∀ s, n ≠ .alarm s) := by
  constructor
  · rintro ⟨before, time, behind, h, hans, hal⟩
    rcases List.eq_nil_or_concat behind with rfl | ⟨behind, b, rfl⟩
    · exact .inl ⟨time, List.singleton_inj.mp (List.append_inj' h rfl).2⟩
    · rw [List.concat_eq_append, ← List.cons_append, ← List.append_assoc] at h
      obtain ⟨hlog, hn⟩ := List.append_inj' h rfl
      obtain rfl := List.singleton_inj.mp hn
      refine .inr ⟨⟨before, time, behind, hlog, fun s hs => hans s (by simp [hs]),
        fun s hs => hal s (by simp [hs])⟩, ?_, ?_⟩
      · rintro s rfl
        exact hans s (by simp)
      · rintro s rfl
        exact hal s (by simp)
  · rintro (⟨s, rfl⟩ | ⟨⟨before, time, behind, rfl, hans, hal⟩, hn, hn'⟩)
    · exact ⟨log, s, [], rfl, fun _ => List.not_mem_nil, fun _ => List.not_mem_nil⟩
    · refine ⟨before, time, behind ++ [n], by simp, fun s hs => ?_, fun s hs => ?_⟩
      · rcases List.mem_append.mp hs with hs | hs
        · exact hans s hs
        · exact hn s (List.mem_singleton.mp hs).symm
      · rcases List.mem_append.mp hs with hs | hs
        · exact hal s hs
        · exact hn' s (List.mem_singleton.mp hs).symm

theorem not_awaited_nil : ¬Awaited [] := by
  rintro ⟨before, time, behind, h, -⟩
  simp at h

/-- Alarms answer nothing. -/
theorem outstanding_alarms {k : ℕ} {time : ℤ} :
    Outstanding (log ++ List.replicate k (.alarm time)) t ↔ Outstanding log t := by
  induction k with
  | zero => rw [List.replicate_zero, List.append_nil]
  | succ k ih =>
    rw [List.replicate_succ', ← List.append_assoc, outstanding_concat, ih]
    simp

theorem awaited_alarms {k : ℕ} {time : ℤ} :
    Awaited (log ++ List.replicate k (.alarm time)) ↔ Awaited log ∧ k = 0 := by
  cases k with
  | zero => simp
  | succ k =>
    rw [List.replicate_succ', ← List.append_assoc, awaited_concat]
    simp

theorem paced_alarms {period : ℤ} {k : ℕ} {time : ℤ} :
    Paced period (log ++ List.replicate k (.alarm time)) ↔ Paced period log := by
  induction k with
  | zero => rw [List.replicate_zero, List.append_nil]
  | succ k ih =>
    rw [List.replicate_succ', ← List.append_assoc, Paced, each_concat]
    refine (and_iff_left ?_).trans ih
    rintro _ ⟨⟩

/-- A burst is justified as its first alarm is. -/
theorem justified_alarms {timeout : ℤ} {k : ℕ} (hk : 0 < k) {time : ℤ} :
    Justified timeout (log ++ List.replicate k (.alarm time)) ↔
      Justified timeout log ∧ ∃ t, Outstanding log t ∧ t + timeout ≤ time := by
  induction k with
  | zero => omega
  | succ k ih =>
    rw [List.replicate_succ', ← List.append_assoc, Justified, each_concat]
    simp only [outstanding_alarms, Note.alarm.injEq, forall_eq']
    rcases Nat.eq_zero_or_pos k with rfl | hpos
    · rw [List.replicate_zero, List.append_nil, Justified]
    · rw [← Justified, ih hpos, and_assoc, and_self]

end Log

/-! ### The run of a machine that stays switched on -/

section Run

variable {period timeout : ℤ} {burst : ℕ}

theorem log_concat (a : Repeater) (l : List (After Input)) (e : After Input) :
    log period timeout burst a (l ++ [e]) = log period timeout burst a l ++
      (step period timeout burst (Runs.final (step period timeout burst) a l) e).2 := by
  rw [log, Runs.collect_append]
  simp [log]

/-- The call repeats the request, or raises the alarms. -/
def Repeater.Due (a : Repeater) (e : After Input) : Prop :=
  e.call = .retry ∧ ∃ due, a.phase = .retrying due ∧ due ≤ a.now + e.elapsed

theorem Repeater.call_answer_of_on {a : Repeater} (hon : a.enabled = true) :
    a.call period timeout burst .answer =
      ({ a with phase := .idle, lastAnswer := a.now }, [.answer a.now]) := by
  rw [Repeater.call, if_pos hon]

theorem Repeater.call_answer_of_off {a : Repeater} (hoff : a.enabled = false) :
    a.call period timeout burst .answer = (a, [.answer a.now]) := by
  rw [Repeater.call, if_neg (ne_true_of_eq_false hoff)]

theorem Repeater.call_request_of_idle {a : Repeater} (hon : a.enabled = true)
    (hphase : a.phase = .idle) :
    a.call period timeout burst .request =
      ({ a with phase := .retrying (a.now + period) }, [.request a.now]) := by
  rw [Repeater.call, if_pos hon, if_pos hphase]

theorem Repeater.call_request_of_ne {a : Repeater} (hon : a.enabled = true)
    (hphase : a.phase ≠ .idle) : a.call period timeout burst .request = (a, []) := by
  rw [Repeater.call, if_pos hon, if_neg hphase]

theorem Repeater.call_request_of_off {a : Repeater} (hoff : a.enabled = false) :
    a.call period timeout burst .request = (a, [.request a.now]) := by
  rw [Repeater.call, if_neg (ne_true_of_eq_false hoff)]

theorem Repeater.call_retry_of_le {a : Repeater} {due : ℤ} (hphase : a.phase = .retrying due)
    (hdue : due ≤ a.now) : a.call period timeout burst .retry = a.retry period timeout burst := by
  rw [Repeater.call, hphase]
  exact if_pos hdue

theorem Repeater.call_retry_of_lt {a : Repeater} (h : ∀ due, a.phase = .retrying due → a.now < due) :
    a.call period timeout burst .retry = (a, []) := by
  rw [Repeater.call]
  cases hphase : a.phase with
  | retrying due => exact if_neg (Int.not_le.mpr (h due hphase))
  | idle => rfl
  | stalled => rfl

theorem step_of_due {a : Repeater} {e : After Input} (h : a.Due e) :
    step period timeout burst a e = (a.pass e.elapsed).retry period timeout burst := by
  obtain ⟨hcall, due, hphase, hdue⟩ := h
  rw [step, hcall]
  exact Repeater.call_retry_of_le hphase hdue

theorem step_of_not_due {a : Repeater} {e : After Input} (hcall : e.call = .retry)
    (h : ¬a.Due e) : step period timeout burst a e = (a.pass e.elapsed, []) := by
  rw [step, hcall]
  exact Repeater.call_retry_of_lt fun due hphase =>
    Int.not_le.mp fun hdue => h ⟨hcall, due, hphase, hdue⟩

/-- What holds of a machine that is on, with its log. -/
structure Keeps (period : ℤ) (log : List Note) (a : Repeater) : Prop where
  enabled : a.enabled = true
  moving : a.phase ≠ .stalled
  awaited : a.phase ≠ .idle ↔ Awaited log
  paced : Paced period log
  retrying : ∀ due, a.phase = .retrying due → ∀ t, Outstanding log t → t + period ≤ due
  idle : a.phase = .idle → ∀ t, Outstanding log t → t + period ≤ a.now

theorem keeps_nil {a : Repeater} (henabled : a.enabled = true) (hphase : a.phase = .idle) :
    Keeps period [] a where
  enabled := henabled
  moving := by simp [hphase]
  awaited := by simp [hphase, not_awaited_nil]
  paced := each_nil
  retrying due _ t ht := absurd ht not_outstanding_nil
  idle _ t ht := absurd ht not_outstanding_nil

variable {log : List Note} {a : Repeater}

theorem Keeps.pass (h : Keeps period log a) (elapsed : ℕ) : Keeps period log (a.pass elapsed) where
  enabled := h.enabled
  moving := h.moving
  awaited := h.awaited
  paced := h.paced
  retrying := h.retrying
  idle hphase t ht := Int.le_trans (h.idle hphase t ht)
    (Int.le_add_of_nonneg_right (Int.natCast_nonneg elapsed))

/-- A request goes out, a period after all that are outstanding, and will be repeated. -/
theorem Keeps.send (h : Keeps period log a) (hperiod : 0 ≤ period)
    (hgap : ∀ t, Outstanding log t → t + period ≤ a.now) :
    Keeps period (log ++ [.request a.now]) { a with phase := .retrying (a.now + period) } where
  enabled := h.enabled
  moving := by simp
  awaited := by simp [awaited_concat]
  paced := by
    refine each_concat.mpr ⟨h.paced, fun time htime t ht => ?_⟩
    rw [← Note.request.inj htime]
    exact hgap t ht
  retrying due hdue t ht := by
    rw [← Phase.retrying.inj hdue]
    rcases outstanding_concat.mp ht with ht | ⟨ht, -⟩
    · exact Int.le_of_eq (by rw [Note.request.inj ht])
    · have := hgap t ht
      omega
  idle hphase := by simp at hphase

/-- The alarms are raised, a period after all requests that are outstanding. -/
theorem Keeps.alarm (h : Keeps period log a) (hburst : 0 < burst)
    (hgap : ∀ t, Outstanding log t → t + period ≤ a.now) :
    Keeps period (log ++ List.replicate burst (.alarm a.now)) { a with phase := .idle } where
  enabled := h.enabled
  moving := by simp
  awaited := by simp [awaited_alarms, Nat.ne_of_gt hburst]
  paced := paced_alarms.mpr h.paced
  retrying due hdue := by simp at hdue
  idle _ t ht := hgap t (outstanding_alarms.mp ht)

theorem Keeps.answer (h : Keeps period log a) :
    Keeps period (log ++ [.answer a.now]) { a with phase := .idle, lastAnswer := a.now } where
  enabled := h.enabled
  moving := by simp
  awaited := by simp [awaited_concat]
  paced := each_concat.mpr ⟨h.paced, by rintro _ ⟨⟩⟩
  retrying due hdue := by simp at hdue
  idle _ t ht := by simp [outstanding_concat] at ht

theorem Keeps.step (h : Keeps period log a) (hperiod : 0 ≤ period) (hburst : 0 < burst)
    {e : After Input} (he : e.call ≠ .disable) :
    Keeps period (log ++ (step period timeout burst a e).2) (step period timeout burst a e).1 := by
  have hpass := h.pass e.elapsed
  cases hcall : e.call with
  | answer =>
    rw [Pacing.step, hcall, Repeater.call_answer_of_on hpass.enabled]
    exact hpass.answer
  | request =>
    rw [Pacing.step, hcall]
    by_cases hphase : (a.pass e.elapsed).phase = .idle
    · rw [Repeater.call_request_of_idle hpass.enabled hphase]
      exact hpass.send hperiod (hpass.idle hphase)
    · rwa [Repeater.call_request_of_ne hpass.enabled hphase, List.append_nil]
  | retry =>
    by_cases hdue : a.Due e
    · rw [step_of_due hdue, Repeater.retry]
      obtain ⟨-, due, hphase, hle⟩ := hdue
      have hgap : ∀ t, Outstanding log t → t + period ≤ (a.pass e.elapsed).now :=
        fun t ht => Int.le_trans (h.retrying due hphase t ht) hle
      split_ifs with htimeout hon
      · exact hpass.alarm hburst hgap
      · exact hpass.send hperiod hgap
      · exact absurd hpass.enabled hon
    · rw [step_of_not_due hcall hdue, List.append_nil]
      exact hpass
  | enable =>
    rw [Pacing.step, hcall, Repeater.call, List.append_nil]
    exact { hpass with enabled := rfl }
  | disable => exact absurd hcall he
  | other =>
    rwa [Pacing.step, hcall, Repeater.call, List.append_nil]

/-- As long as it is not switched off the machine keeps the period. -/
theorem Keeps.run (h : Keeps period log a) (hperiod : 0 ≤ period) (hburst : 0 < burst)
    {l : List (After Input)} (hl : ∀ e ∈ l, e.call ≠ .disable) :
    Keeps period (log ++ Pacing.log period timeout burst a l)
      (Runs.final (Pacing.step period timeout burst) a l) := by
  induction l generalizing log a with
  | nil => rwa [Pacing.log, Runs.collect_nil, List.append_nil]
  | cons e l ih =>
    obtain ⟨he, hl⟩ := List.forall_mem_cons.mp hl
    have hstep : Keeps period (log ++ (Pacing.step period timeout burst a e).2)
        (Pacing.step period timeout burst a e).1 := h.step hperiod hburst he
    have hrun := ih hstep hl
    rwa [List.append_assoc] at hrun

end Run

end KkLicode.Base.Pacing
