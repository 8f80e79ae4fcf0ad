import KkLicode.Base.Retries
import KkLicode.Rtp.PliPacerHandler

/-! What the handler does to requests for keyframes. While it is enabled it keeps
the period between two PLIs. It makes FIRs once the last keyframe is as long ago as
the timeout, however short the wait has been; and when its task runs while it is
disabled it goes on waiting, and once it is enabled again holds back all PLIs. -/

namespace KkLicode.Rtp.PliPacer

open Base Base.Pacing Thread

variable {s : PliPacer}

/-! ### Calls and inputs -/

/-- A run is cut where its inputs are cut. -/
theorem inputs_eq_append_cons {l : List (After PliPacerCall)} {b c : List (After Input)}
    {x : After Input} :
    s.inputs l = b ++ x :: c ↔ ∃ before e behind, l = before ++ e :: behind ∧
      b = s.inputs before ∧ x = ⟨e.elapsed, (Runs.final step s before).input e.call⟩ ∧
      c = (Runs.final step s (before ++ [e])).inputs behind := by
  induction l generalizing s b with
  | nil => simp [inputs]
  | cons e l ih =>
    rw [inputs, Runs.collect_cons, List.singleton_append, ← inputs]
    constructor
    · intro h
      cases b with
      | nil =>
        obtain ⟨rfl, rfl⟩ := List.cons.inj h
        exact ⟨[], e, l, rfl, rfl, rfl, rfl⟩
      | cons y b =>
        obtain ⟨rfl, htail⟩ := List.cons.inj h
        obtain ⟨before, e', behind, rfl, rfl, rfl, rfl⟩ := ih.mp htail
        exact ⟨e :: before, e', behind, rfl, rfl, rfl, rfl⟩
    · rintro ⟨before, e', behind, hl, rfl, rfl, rfl⟩
      cases before with
      | nil =>
        obtain ⟨rfl, rfl⟩ := List.cons.inj hl
        rfl
      | cons y before =>
        obtain ⟨rfl, rfl⟩ := List.cons.inj hl
        exact congrArg _ (ih.mpr ⟨before, e', behind, rfl, rfl, rfl, rfl⟩)

theorem inputs_cut (s : PliPacer) (before behind : List (After PliPacerCall))
    (e : After PliPacerCall) :
    s.inputs (before ++ e :: behind) = s.inputs before ++
      ⟨e.elapsed, (Runs.final step s before).input e.call⟩ ::
        (Runs.final step s (before ++ [e])).inputs behind :=
  inputs_eq_append_cons.mpr ⟨before, e, behind, rfl, rfl, rfl, rfl⟩

theorem prefix_inputs_iff {l : List (After PliPacerCall)} {b : List (After Input)} :
    b <+: s.inputs l ↔ ∃ before, before <+: l ∧ b = s.inputs before := by
  constructor
  · rintro ⟨c, hc⟩
    cases c with
    | nil => exact ⟨l, List.prefix_rfl, by rw [← hc, List.append_nil]⟩
    | cons x c =>
      obtain ⟨before, e, behind, rfl, rfl, -, -⟩ := inputs_eq_append_cons.mp hc.symm
      exact ⟨before, List.prefix_append _ _, rfl⟩
  · rintro ⟨before, ⟨behind, rfl⟩, rfl⟩
    rw [inputs, inputs, Runs.collect_append]
    exact List.prefix_append _ _

theorem input_eq_disable {c : PliPacerCall} : s.input c = .disable ↔ c = .disable := by
  cases c <;> simp only [input, reduceCtorEq] <;> split_ifs <;> simp

theorem input_eq_enable {c : PliPacerCall} : s.input c = .enable ↔ c = .enable := by
  cases c <;> simp only [input, reduceCtorEq] <;> split_ifs <;> simp

theorem forall_inputs_ne {l : List (After PliPacerCall)} {c : PliPacerCall} {i : Input}
    (h : ∀ s : PliPacer, ∀ c', s.input c' = i ↔ c' = c) :
    (∀ x ∈ s.inputs l, x.call ≠ i) ↔ ∀ e ∈ l, e.call ≠ c := by
  induction l generalizing s with
  | nil => simp [inputs]
  | cons e l ih =>
    rw [inputs, Runs.collect_cons, List.singleton_append, ← inputs, List.forall_mem_cons,
      List.forall_mem_cons, ih]
    exact and_congr_left fun _ => (h s e.call).not

/-! ### The period -/

section Run

variable (now : ℤ) (videoSinkSsrc videoSourceSsrc : UInt32) {l : List (After PliPacerCall)}

theorem view_init : (init now videoSinkSsrc videoSourceSsrc).view .idle =
    { lastAnswer := now, now := now } := rfl

/-- What holds of the machine holds of the handler in a run in which it stays enabled. -/
theorem keeps_log (hl : ∀ e ∈ l, e.call ≠ .disable) :
    ∃ phase, (Runs.final step (init now videoSinkSsrc videoSourceSsrc) l).InPhase phase ∧
      Keeps kMinPLIPeriod ((init now videoSinkSsrc videoSourceSsrc).log l)
        ((Runs.final step (init now videoSinkSsrc videoSourceSsrc) l).view phase) := by
  obtain ⟨phase, hphase, hfinal, hlog⟩ :=
    (inPhase_init now videoSinkSsrc videoSourceSsrc).run_eq l
  refine ⟨phase, hphase, ?_⟩
  have hinputs : ∀ x ∈ (init now videoSinkSsrc videoSourceSsrc).inputs l, x.call ≠ .disable :=
    (forall_inputs_ne fun _ _ => input_eq_disable).mpr hl
  have hkeeps := @Keeps.run kMinPLIPeriod kKeyframeTimeout 3 []
    ((init now videoSinkSsrc videoSourceSsrc).view .idle) (keeps_nil rfl rfl) (by decide) (by decide)
    _ hinputs
  rwa [List.nil_append, hlog, hfinal] at hkeeps

/-- Two PLIs with no keyframe between them keep the period, and a PLI that comes while no keyframe
is awaited goes on at once. -/
theorem plis_paced (hl : ∀ e ∈ l, e.call ≠ .disable) :
    Paced kMinPLIPeriod ((init now videoSinkSsrc videoSourceSsrc).log l) ∧
      ∀ elapsed packet, RtpUtils.isPLI packet.toRtcpBuffer = true →
        ¬Awaited ((init now videoSinkSsrc videoSourceSsrc).log l) →
        (step (Runs.final step (init now videoSinkSsrc videoSourceSsrc) l)
          ⟨elapsed, .write packet⟩).2 = [.write .source packet] := by
  obtain ⟨phase, hphase, hkeeps⟩ := keeps_log now videoSinkSsrc videoSourceSsrc hl
  refine ⟨hkeeps.paced, fun elapsed packet hpli hawaited => ?_⟩
  have hidle : phase = .idle := by
    by_contra hne
    exact hawaited (hkeeps.awaited.mp hne)
  have hwaiting := hphase.idle.mp hidle
  show (write (pass _ elapsed) packet).2 = _
  rw [write, hpli, Bool.and_true]
  split_ifs with hon hw
  · exact absurd (hwaiting.symm.trans hw) Bool.false_ne_true
  · rfl
  · rfl

end Run

/-- A PLI, its repetition, and a keyframe. -/
def sampleRun : List (After PliPacerCall) :=
  [⟨0, .write (RtpUtils.createPLI 1 2)⟩, ⟨200000000, .run 1 fun _ => (0, 0, 0)⟩,
    ⟨50000000, .read { data := [], length := 0, isKeyframe := true }⟩]

/-- After the keyframe the next PLI goes on. -/
theorem plis_paced_sampleRun :
    Paced kMinPLIPeriod ((init 0 2 1).log sampleRun) ∧
      (step (Runs.final step (init 0 2 1) sampleRun) ⟨0, .write (RtpUtils.createPLI 1 2)⟩).2 =
        [.write .source (RtpUtils.createPLI 1 2)] := by
  have hrun := plis_paced 0 2 1 (l := sampleRun) (by simp [sampleRun])
  have hlog : (init 0 2 1).log sampleRun =
      [.request 0, .request 200000000] ++ [.answer 250000000] := by decide
  refine ⟨hrun.1, hrun.2 0 _ (RtpUtils.isPLI_createPLI 1 2) ?_⟩
  rw [hlog, awaited_concat]
  simp

/-! ### Lost retries -/

/-- Where the handler waits for a keyframe and holds PLIs back, its task is scheduled. -/
structure Retried (s : PliPacer) : Prop where
  scheduled : s.handler.enabled = true → s.handler.waitingForKeyframe = true →
    ∃ due, s.worker.Live ⟨s.handler.scheduledPli, due⟩
  heldBack : ∀ packet, (s.write packet).2 = [] → ∃ due, s.worker.Live ⟨s.handler.scheduledPli, due⟩

/-- The worker runs the task of the handler. -/
def Retries (s : PliPacer) (e : After PliPacerCall) : Prop :=
  (∃ reserved, e.call = .run s.handler.scheduledPli reserved) ∧
    ∃ due, s.worker.Live ⟨s.handler.scheduledPli, due⟩ ∧ due ≤ s.now + e.elapsed

/-- The task runs while the handler is disabled, and before the timeout. -/
def LosesRetry (s : PliPacer) (e : After PliPacerCall) : Prop :=
  s.Retries e ∧ s.handler.enabled = false ∧
    ¬kKeyframeTimeout ≤ s.now + e.elapsed - s.handler.timeLastKeyframe

section Lost

variable {phase : Phase}

theorem InPhase.due_iff (h : s.InPhase phase) (e : After PliPacerCall) :
    (s.view phase).Due ⟨e.elapsed, s.input e.call⟩ ↔ s.Retries e := by
  have hcall : (∃ due, s.worker.Live ⟨s.handler.scheduledPli, due⟩) →
      (s.input e.call = .retry ↔ ∃ reserved, e.call = .run s.handler.scheduledPli reserved) := by
    rintro ⟨due, hlive⟩
    cases e.call with
    | read packet => simp only [input]; split_ifs <;> simp
    | write packet => simp only [input]; split_ifs <;> simp
    | run id reserved =>
      simp only [input]
      split_ifs with hid
      · simp [hid.1]
      · refine iff_of_false (by simp) ?_
        rintro ⟨_, hrun⟩
        cases hrun
        exact hid ⟨rfl, hlive.2⟩
    | enable => simp [input]
    | disable => simp [input]
  constructor
  · rintro ⟨hinput, due, hphase, hdue⟩
    have hlive := (h.retrying due).mp hphase
    exact ⟨(hcall ⟨due, hlive⟩).mp hinput, due, hlive, hdue⟩
  · rintro ⟨hrun, due, hlive, hdue⟩
    exact ⟨(hcall ⟨due, hlive⟩).mpr hrun, due, (h.retrying due).mpr hlive, hdue⟩

theorem InPhase.losesRetry_iff (h : s.InPhase phase) (e : After PliPacerCall) :
    (s.view phase).LosesRetry kKeyframeTimeout ⟨e.elapsed, s.input e.call⟩ ↔ s.LosesRetry e :=
  and_congr_left fun _ => h.due_iff e

theorem InPhase.stuck_iff (h : s.InPhase phase) : ¬(s.view phase).Stuck ↔ s.Retried := by
  have hlive : phase ≠ .stalled → s.handler.waitingForKeyframe = true →
      ∃ due, s.worker.Live ⟨s.handler.scheduledPli, due⟩ := by
    intro hphase hwaiting
    cases hp : phase with
    | idle => exact absurd ((h.idle.mp hp).symm.trans hwaiting) Bool.false_ne_true
    | retrying due => exact ⟨due, (h.retrying due).mp hp⟩
    | stalled => exact absurd hp hphase
  constructor
  · intro hstuck
    have hmoving : s.handler.enabled = true → phase ≠ .stalled := fun hon hp => hstuck ⟨hon, hp⟩
    refine ⟨fun hon => hlive (hmoving hon), fun packet hout => ?_⟩
    rw [PliPacer.write] at hout
    split_ifs at hout with hpli hwaiting
    exact hlive (hmoving (Bool.and_eq_true_iff.mp hpli).1) hwaiting
  · rintro hretried ⟨hon, hp⟩
    have hp : phase = .stalled := hp
    have hwaiting : s.handler.waitingForKeyframe = true := by
      by_contra hne
      have := h.idle.mpr (eq_false_of_ne_true hne)
      simp [hp] at this
    obtain ⟨due, hdue⟩ := hretried.scheduled hon hwaiting
    have := (h.retrying due).mpr hdue
    simp [hp] at this

end Lost

/-- A PLI is held back only while another one is repeated, in every state of a run, if and only if
the handler is not enabled again after a retry was lost. -/
theorem retried_iff (now : ℤ) (videoSinkSsrc videoSourceSsrc : UInt32)
    (l : List (After PliPacerCall)) :
    (∀ before, before <+: l →
        Retried (Runs.final step (init now videoSinkSsrc videoSourceSsrc) before)) ↔
      ∀ before e behind, l = before ++ e :: behind →
        LosesRetry (Runs.final step (init now videoSinkSsrc videoSourceSsrc) before) e →
        ∀ e' ∈ behind, e'.call ≠ .enable := by
  have hinit := inPhase_init now videoSinkSsrc videoSourceSsrc
  have hmachine := @never_stuck_iff kMinPLIPeriod kKeyframeTimeout 3
    ((init now videoSinkSsrc videoSourceSsrc).view .idle)
    ((init now videoSinkSsrc videoSourceSsrc).inputs l) (by simp [view])
  refine Iff.trans ⟨fun h b hb => ?_, fun h before hb => ?_⟩
    (hmachine.trans ⟨fun h before e behind hl hlost => ?_, fun h b x c hbc hlost => ?_⟩)
  · obtain ⟨before, hbefore, rfl⟩ := prefix_inputs_iff.mp hb
    obtain ⟨phase, hphase, hfinal, -⟩ := hinit.run_eq before
    rw [hfinal]
    exact hphase.stuck_iff.mpr (h before hbefore)
  · obtain ⟨phase, hphase, hfinal, -⟩ := hinit.run_eq before
    have := h _ (prefix_inputs_iff.mpr ⟨before, hb, rfl⟩)
    rw [hfinal] at this
    exact hphase.stuck_iff.mp this
  · obtain ⟨phase, hphase, hfinal, -⟩ := hinit.run_eq before
    subst hl
    refine (forall_inputs_ne fun _ _ => input_eq_enable).mp (h _ _ _ (inputs_cut _ _ _ _) ?_)
    rw [hfinal]
    exact (hphase.losesRetry_iff e).mpr hlost
  · obtain ⟨before, e, behind, hl, rfl, rfl, rfl⟩ := inputs_eq_append_cons.mp hbc
    obtain ⟨phase, hphase, hfinal, -⟩ := hinit.run_eq before
    rw [hfinal] at hlost
    exact (forall_inputs_ne fun _ _ => input_eq_enable).mpr
      (h before e behind hl ((hphase.losesRetry_iff e).mp hlost))

/-- A PLI, and the handler is disabled until its task has run. -/
def stuckRun : List (After PliPacerCall) :=
  [⟨0, .write (RtpUtils.createPLI 1 2)⟩, ⟨0, .disable⟩, ⟨200000000, .run 1 fun _ => (0, 0, 0)⟩,
    ⟨0, .enable⟩]

/-- The handler waits for a keyframe and nothing is scheduled. -/
theorem not_retried : ¬∀ (now : ℤ) (videoSinkSsrc videoSourceSsrc : UInt32)
    (l : List (After PliPacerCall)), ∀ before, before <+: l →
    Retried (Runs.final step (init now videoSinkSsrc videoSourceSsrc) before) := by
  intro h
  have hretried := h 0 2 1 stuckRun stuckRun List.prefix_rfl
  have hnone : (Runs.final step (init 0 2 1) stuckRun).worker.scheduled = [] := by decide
  obtain ⟨due, hlive⟩ := hretried.scheduled (by decide) (by decide)
  rw [Worker.Live, hnone] at hlive
  exact absurd hlive.1 List.not_mem_nil

/-! ### Early FIRs -/

/-- What can be told from the calls alone. -/
def heard (start : ℤ) (l : List (After PliPacerCall)) : Heard :=
  (l.map fun e =>
    ({ elapsed := e.elapsed
       call :=
        match e.call with
        | .read packet => if packet.isKeyframe then .answer else .other
        | .write packet => if RtpUtils.isPLI packet.toRtcpBuffer then .request else .other
        | _ => .other } : After Input)).foldl Heard.hear ⟨start, start, none⟩

theorem hear_inputs (start : ℤ) (l : List (After PliPacerCall)) :
    (s.inputs l).foldl Heard.hear ⟨start, start, none⟩ = heard start l := by
  unfold heard
  generalize (⟨start, start, none⟩ : Heard) = h
  induction l generalizing s h with
  | nil => rfl
  | cons e l ih =>
    rw [inputs, Runs.collect_cons, List.singleton_append, ← inputs, List.foldl_cons, List.map_cons,
      List.foldl_cons, ih]
    congr 1
    obtain ⟨elapsed, c⟩ := e
    cases c with
    | read packet => rfl
    | write packet => rfl
    | run id reserved => simp only [input]; split_ifs <;> rfl
    | enable => rfl
    | disable => rfl

/-- A FIR is made only after a PLI has been outstanding for the timeout, if and only if the task
never runs when the timeout is over after the last keyframe but not after the first PLI since. -/
theorem firs_justified_iff (now : ℤ) (videoSinkSsrc videoSourceSsrc : UInt32)
    {l : List (After PliPacerCall)} (hl : ∀ e ∈ l, e.call ≠ .disable) :
    Justified kKeyframeTimeout ((init now videoSinkSsrc videoSourceSsrc).log l) ↔
      ∀ before e behind, l = before ++ e :: behind →
        Retries (Runs.final step (init now videoSinkSsrc videoSourceSsrc) before) e →
        ¬(heard now before).Early kKeyframeTimeout
          ((Runs.final step (init now videoSinkSsrc videoSourceSsrc) before).now + e.elapsed) := by
  have hinit := inPhase_init now videoSinkSsrc videoSourceSsrc
  obtain ⟨-, -, -, hlog⟩ := hinit.run_eq l
  have hmachine := @justified_iff kMinPLIPeriod kKeyframeTimeout 3 now (by decide) (by decide)
    ((init now videoSinkSsrc videoSourceSsrc).inputs l)
    ((forall_inputs_ne fun _ _ => input_eq_disable).mpr hl)
  rw [← hlog]
  refine hmachine.trans ⟨fun h before e behind hl hretries => ?_, fun h b x c hbc hdue => ?_⟩
  · obtain ⟨phase, hphase, hfinal, -⟩ := hinit.run_eq before
    subst hl
    have hearly := h _ _ _ (inputs_cut _ before behind e)
    dsimp only at hearly
    rw [hear_inputs, ← view_init now videoSinkSsrc videoSourceSsrc, hfinal] at hearly
    exact hearly ((hphase.due_iff e).mpr hretries)
  · obtain ⟨before, e, behind, hl, rfl, rfl, rfl⟩ := inputs_eq_append_cons.mp hbc
    obtain ⟨phase, hphase, hfinal, -⟩ := hinit.run_eq before
    rw [hear_inputs]
    rw [← view_init now videoSinkSsrc videoSourceSsrc, hfinal] at hdue ⊢
    exact h before e behind hl ((hphase.due_iff e).mp hdue)

/-- A PLI when the last keyframe is long ago. -/
def earlyRun : List (After PliPacerCall) :=
  [⟨20000000000, .write (RtpUtils.createPLI 1 2)⟩, ⟨200000000, .run 1 fun _ => (0, 0, 0)⟩]

/-- Where no FIR is made the task does not run early. -/
theorem firs_justified_sampleRun : Justified kKeyframeTimeout ((init 0 2 1).log sampleRun) ∧
    ∀ before e behind, sampleRun = before ++ e :: behind →
      Retries (Runs.final step (init 0 2 1) before) e →
      ¬(heard 0 before).Early kKeyframeTimeout
        ((Runs.final step (init 0 2 1) before).now + e.elapsed) := by
  have hlog : (init 0 2 1).log sampleRun =
      [] ++ [.request 0] ++ [.request 200000000] ++ [.answer 250000000] := by decide
  have hjustified : Justified kKeyframeTimeout ((init 0 2 1).log sampleRun) := by
    rw [hlog, justified_note (by simp), justified_note (by simp), justified_note (by simp)]
    exact each_nil
  exact ⟨hjustified, (firs_justified_iff 0 2 1 (l := sampleRun) (by simp [sampleRun])).mp hjustified⟩

/-- The first repetition of the PLI makes FIRs. -/
theorem not_firs_justified : ¬∀ (now : ℤ) (videoSinkSsrc videoSourceSsrc : UInt32)
    (l : List (After PliPacerCall)), (∀ e ∈ l, e.call ≠ .disable) →
    Justified kKeyframeTimeout ((init now videoSinkSsrc videoSourceSsrc).log l) := by
  intro h
  have hlog : (init 0 2 1).log earlyRun =
      [.request 20000000000] ++ List.replicate 3 (.alarm 20200000000) := by decide
  have hjustified := h 0 2 1 earlyRun (by simp [earlyRun])
  rw [hlog, justified_alarms (by decide)] at hjustified
  obtain ⟨-, t, ht, hle⟩ := hjustified
  rcases outstanding_concat.mp (show Outstanding ([] ++ [_]) t from ht) with ht | ⟨ht, -⟩
  · rw [← Note.request.inj ht] at hle
    exact absurd hle (by decide)
  · exact not_outstanding_nil ht

end KkLicode.Rtp.PliPacer
