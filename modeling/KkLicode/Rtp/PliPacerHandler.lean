import KkLicode.Base.Pacing
import KkLicode.Rtp.KeyframeRequests
import KkLicode.Thread.Worker

/-! `PliPacerHandler`, with the worker that runs its task and the clock. Of the
worker only the tasks of this handler matter. What the handler does is compared
with the machine of `Pacing`, which knows nothing of tasks and references. -/

namespace KkLicode.Rtp

open Base Base.Pacing Thread

/-- In nanoseconds, as all times here. -/
def kMinPLIPeriod : ℤ := 200000000

def kKeyframeTimeout : ℤ := 10000000000

structure PliPacerHandler where
  enabled : Bool := true
  timeLastKeyframe : ℤ
  waitingForKeyframe : Bool := false
  scheduledPli : ℕ
  videoSinkSsrc : UInt32
  videoSourceSsrc : UInt32
  firSeqNumber : UInt8 := 0

/-- The bytes of a new FIR that are not set, by its sequence number. -/
abbrev Reserved := UInt8 → UInt8 × UInt8 × UInt8

/-- The handler at work. -/
structure PliPacer where
  handler : PliPacerHandler
  worker : Worker
  now : ℤ

inductive PliPacerCall where
  | read (packet : MediaPacket)
  | write (packet : MediaPacket)
  /-- The worker gets to the task with this reference. -/
  | run (id : ℕ) (reserved : Reserved)
  | enable
  | disable

namespace PliPacer

variable (s : PliPacer)

/-- The handler after its construction. -/
def init (now : ℤ) (videoSinkSsrc videoSourceSsrc : UInt32) : PliPacer where
  handler :=
    { timeLastKeyframe := now, scheduledPli := (Worker.newReference {}).2
      videoSinkSsrc := videoSinkSsrc, videoSourceSsrc := videoSourceSsrc }
  worker := (Worker.newReference {}).1
  now := now

def read (packet : MediaPacket) : PliPacer × List (Fired MediaPacket) :=
  let s :=
    if s.handler.enabled && packet.isKeyframe then
      let (worker, id) := (s.worker.unschedule s.handler.scheduledPli).newReference
      { s with
        handler :=
          { s.handler with
            timeLastKeyframe := s.now, waitingForKeyframe := false, scheduledPli := id }
        worker := worker }
    else s
  (s, [.read packet])

def scheduleNextPLI : PliPacer :=
  if !s.handler.waitingForKeyframe || !s.handler.enabled then s
  else
    let (worker, id) := s.worker.scheduleFromNow s.now kMinPLIPeriod
    { s with handler := { s.handler with scheduledPli := id }, worker := worker }

def sendPLI : PliPacer × List (Fired MediaPacket) :=
  (s.scheduleNextPLI,
    [.write .own (RtpUtils.createPLI s.handler.videoSourceSsrc s.handler.videoSinkSsrc)])

def sendFIR (reserved : Reserved) : PliPacer × List (Fired MediaPacket) :=
  let (worker, id) := s.worker.newReference
  let fir := fun n : UInt8 =>
    RtpUtils.createFIR s.handler.videoSourceSsrc s.handler.videoSinkSsrc n (reserved n)
  let n := s.handler.firSeqNumber
  ({ s with
      handler :=
        { s.handler with
          firSeqNumber := n + 3, waitingForKeyframe := false, scheduledPli := id }
      worker := worker },
    [.write .own (fir n), .write .own (fir (n + 1)), .write .own (fir (n + 2))])

/-- The task that `scheduleNextPLI` schedules. -/
def retry (reserved : Reserved) : PliPacer × List (Fired MediaPacket) :=
  if s.now - s.handler.timeLastKeyframe ≥ kKeyframeTimeout then s.sendFIR reserved else s.sendPLI

/-- The worker leaves out a task that was cancelled. -/
def run (id : ℕ) (reserved : Reserved) : PliPacer × List (Fired MediaPacket) :=
  if s.worker.Ready s.now id then
    let cancelled := s.worker.isCancelled id
    let s := { s with worker := s.worker.take id }
    if cancelled then (s, []) else s.retry reserved
  else (s, [])

def write (packet : MediaPacket) : PliPacer × List (Fired MediaPacket) :=
  if s.handler.enabled && RtpUtils.isPLI packet.toRtcpBuffer then
    if s.handler.waitingForKeyframe then (s, [])
    else
      let s := { s with handler := { s.handler with waitingForKeyframe := true } }
      (s.scheduleNextPLI, [.write .source packet])
  else (s, [.write .source packet])

def call : PliPacerCall → PliPacer × List (Fired MediaPacket)
  | .read packet => s.read packet
  | .write packet => s.write packet
  | .run id reserved => s.run id reserved
  | .enable => ({ s with handler := { s.handler with enabled := true } }, [])
  | .disable => ({ s with handler := { s.handler with enabled := false } }, [])

def pass (elapsed : ℕ) : PliPacer := { s with now := s.now + elapsed }

def step (e : After PliPacerCall) : PliPacer × List (Fired MediaPacket) :=
  (s.pass e.elapsed).call e.call

/-! ### Against the machine -/

/-- The handler waits for nothing, or for its task, or for a task that will not run; there is no
other task. -/
structure InPhase (phase : Phase) : Prop where
  id : ∀ task, s.worker.Live task → task.id = s.handler.scheduledPli
  waiting : ∀ task, s.worker.Live task → s.handler.waitingForKeyframe = true
  idle : phase = .idle ↔ s.handler.waitingForKeyframe = false
  retrying : ∀ due, phase = .retrying due ↔ s.worker.Live ⟨s.handler.scheduledPli, due⟩

/-- What the machine of `Pacing` knows of the handler. -/
def view (phase : Phase) : Repeater where
  enabled := s.handler.enabled
  phase := phase
  lastAnswer := s.handler.timeLastKeyframe
  now := s.now

/-- The keyframes that were read, the PLIs that were written and the FIRs that were made. -/
def notes (time : ℤ) : List (Fired MediaPacket) → List Note :=
  List.filterMap fun
    | .read packet => if packet.isKeyframe then some (.answer time) else none
    | .write origin packet =>
      if RtpUtils.isPLI packet.toRtcpBuffer then some (.request time)
      else if origin = .own ∧ RtpUtils.isFIR packet.toRtcpBuffer = true then some (.alarm time)
      else none

/-- What a call is to the machine. -/
def input : PliPacerCall → Input
  | .read packet => if packet.isKeyframe then .answer else .other
  | .write packet => if RtpUtils.isPLI packet.toRtcpBuffer then .request else .other
  | .run id _ =>
    if id = s.handler.scheduledPli ∧ s.worker.isCancelled id = false then .retry else .other
  | .enable => .enable
  | .disable => .disable

/-- The handler is left where the machine is, and they did the same. -/
def Agrees (time : ℤ) (r : Repeater × List Note) (out : PliPacer × List (Fired MediaPacket)) : Prop :=
  ∃ phase, out.1.InPhase phase ∧ r = (out.1.view phase, notes time out.2)

variable {s} {phase : Phase}

theorem inPhase_idle (hnone : ∀ task, ¬s.worker.Live task)
    (hwaiting : s.handler.waitingForKeyframe = false) : s.InPhase .idle where
  id task h := absurd h (hnone task)
  waiting task h := absurd h (hnone task)
  idle := by simp [hwaiting]
  retrying due := iff_of_false (by simp) (hnone _)

theorem inPhase_stalled (hnone : ∀ task, ¬s.worker.Live task)
    (hwaiting : s.handler.waitingForKeyframe = true) : s.InPhase .stalled where
  id task h := absurd h (hnone task)
  waiting task h := absurd h (hnone task)
  idle := by simp [hwaiting]
  retrying due := iff_of_false (by simp) (hnone _)

theorem inPhase_init (now : ℤ) (videoSinkSsrc videoSourceSsrc : UInt32) :
    (init now videoSinkSsrc videoSourceSsrc).InPhase .idle :=
  inPhase_idle (fun _ h => absurd (Worker.live_newReference.mp h).1 List.not_mem_nil) rfl

/-- A handler that waits for a keyframe without a task schedules one, if it is enabled. -/
theorem inPhase_scheduleNextPLI (hnone : ∀ task, ¬s.worker.Live task)
    (hwaiting : s.handler.waitingForKeyframe = true) :
    s.scheduleNextPLI.InPhase
        (if s.handler.enabled then .retrying (s.now + kMinPLIPeriod) else .stalled) ∧
      ∀ phase, s.scheduleNextPLI.view phase = s.view phase := by
  cases hon : s.handler.enabled with
  | false =>
    rw [scheduleNextPLI, hon, Bool.not_false, Bool.or_true]
    exact ⟨inPhase_stalled hnone hwaiting, fun _ => rfl⟩
  | true =>
    have hlive : ∀ task, (s.worker.scheduleFromNow s.now kMinPLIPeriod).1.Live task ↔
        task = ⟨s.worker.references, s.now + kMinPLIPeriod⟩ := by
      intro task
      rw [Worker.live_scheduleFromNow]
      exact or_iff_left (hnone task)
    rw [scheduleNextPLI, hwaiting, hon]
    refine ⟨?_, fun _ => by simp [view, hon]⟩
    exact
      { id := fun task h => by rw [(hlive task).mp h]; rfl
        waiting := fun task h => hwaiting
        idle := by simp [hwaiting]
        retrying := fun due => by
          refine Iff.trans ?_ (hlive _).symm
          simp [eq_comm] }

theorem InPhase.read (h : s.InPhase phase) (packet : MediaPacket) :
    Agrees s.now ((s.view phase).call kMinPLIPeriod kKeyframeTimeout 3 (s.input (.read packet)))
      (s.read packet) := by
  cases hkey : packet.isKeyframe with
  | false =>
    simp only [PliPacer.read, input, hkey, Bool.and_false, Bool.false_eq_true, if_false,
      Repeater.call]
    exact ⟨phase, h, by simp [notes, hkey]⟩
  | true =>
    have hinput : s.input (.read packet) = .answer := if_pos hkey
    rw [hinput, PliPacer.read, hkey, Bool.and_true]
    by_cases hon : s.handler.enabled = true
    · have hnone : ∀ task,
          ¬((s.worker.unschedule s.handler.scheduledPli).newReference.1).Live task := by
        intro task htask
        obtain ⟨hlive, hne⟩ := Worker.live_unschedule.mp (Worker.live_newReference.mp htask)
        exact hne (h.id task hlive)
      rw [Repeater.call_answer_of_on hon, if_pos hon]
      exact ⟨.idle, inPhase_idle hnone rfl, by simp [notes, hkey, view]⟩
    · rw [Repeater.call_answer_of_off (eq_false_of_ne_true hon), if_neg hon]
      exact ⟨phase, h, by simp [notes, hkey, view]⟩

theorem InPhase.write (h : s.InPhase phase) (packet : MediaPacket) :
    Agrees s.now ((s.view phase).call kMinPLIPeriod kKeyframeTimeout 3 (s.input (.write packet)))
      (s.write packet) := by
  cases hpli : RtpUtils.isPLI packet.toRtcpBuffer with
  | false =>
    simp only [PliPacer.write, input, hpli, Bool.and_false, Bool.false_eq_true, if_false,
      Repeater.call]
    exact ⟨phase, h, by simp [notes, hpli]⟩
  | true =>
    have hinput : s.input (.write packet) = .request := if_pos hpli
    rw [hinput, PliPacer.write, hpli, Bool.and_true]
    by_cases hon : s.handler.enabled = true
    · rw [if_pos hon]
      by_cases hwaiting : s.handler.waitingForKeyframe = true
      · have hphase : phase ≠ .idle := fun hidle =>
          Bool.false_ne_true ((h.idle.mp hidle).symm.trans hwaiting)
        rw [Repeater.call_request_of_ne hon hphase, if_pos hwaiting]
        exact ⟨phase, h, rfl⟩
      · have hnone : ∀ task, ¬s.worker.Live task := fun task ht => hwaiting (h.waiting task ht)
        have hphase : phase = .idle := h.idle.mpr (eq_false_of_ne_true hwaiting)
        obtain ⟨hnext, hview⟩ := @inPhase_scheduleNextPLI
          { s with handler := { s.handler with waitingForKeyframe := true } } hnone rfl
        rw [if_pos (show PliPacerHandler.enabled _ = true from hon)] at hnext
        rw [Repeater.call_request_of_idle hon hphase, if_neg hwaiting]
        exact ⟨_, hnext, Prod.ext (hview _).symm (by simp [notes, hpli, view])⟩
    · rw [Repeater.call_request_of_off (eq_false_of_ne_true hon), if_neg hon]
      exact ⟨phase, h, by simp [notes, hpli, view]⟩

/-- The task runs: what it does is what the machine does when it is due. -/
theorem InPhase.retry (h : s.InPhase phase) {due : ℤ}
    (hlive : s.worker.Live ⟨s.handler.scheduledPli, due⟩) (reserved : Reserved) :
    Agrees s.now ((s.view phase).retry kMinPLIPeriod kKeyframeTimeout 3)
      (PliPacer.retry { s with worker := s.worker.take s.handler.scheduledPli } reserved) := by
  have hnone : ∀ task, ¬(s.worker.take s.handler.scheduledPli).Live task := by
    intro task ht
    obtain ⟨hlive, hne⟩ := Worker.live_take.mp ht
    exact hne (h.id task hlive)
  rw [PliPacer.retry, Repeater.retry]
  by_cases htimeout : kKeyframeTimeout ≤ s.now - s.handler.timeLastKeyframe
  · rw [if_pos (show kKeyframeTimeout ≤ (s.view phase).now - (s.view phase).lastAnswer from htimeout),
      if_pos htimeout]
    refine ⟨.idle, inPhase_idle (fun task ht => hnone task (Worker.live_newReference.mp ht)) rfl, ?_⟩
    simp [PliPacer.sendFIR, notes, view, List.replicate]
  · rw [if_neg (show ¬kKeyframeTimeout ≤ (s.view phase).now - (s.view phase).lastAnswer from htimeout),
      if_neg htimeout]
    obtain ⟨hnext, hview⟩ := @inPhase_scheduleNextPLI
      { s with worker := s.worker.take s.handler.scheduledPli } hnone (h.waiting _ hlive)
    exact ⟨_, hnext, Prod.ext (hview _).symm (by simp [sendPLI, notes, view])⟩

/-- A task that is not the live one is left out, and the machine is not called. -/
theorem InPhase.run (h : s.InPhase phase) (id : ℕ) (reserved : Reserved) :
    Agrees s.now
      ((s.view phase).call kMinPLIPeriod kKeyframeTimeout 3 (s.input (.run id reserved)))
      (s.run id reserved) := by
  by_cases hlive : ∃ due, s.worker.Live ⟨id, due⟩
  · obtain ⟨due, hlive⟩ := hlive
    obtain rfl : id = s.handler.scheduledPli := h.id _ hlive
    have hphase : phase = .retrying due := (h.retrying due).mpr hlive
    have hready : s.worker.Ready s.now s.handler.scheduledPli ↔ due ≤ s.now := by
      constructor
      · rintro ⟨task, hmem, hid, hdue⟩
        have := (show s.worker.Live task from ⟨hmem, by rw [hid]; exact hlive.2⟩).eq hlive hid
        rwa [this] at hdue
      · exact fun hdue => ⟨_, hlive.1, rfl, hdue⟩
    have hinput : s.input (.run s.handler.scheduledPli reserved) = .retry :=
      if_pos ⟨rfl, hlive.2⟩
    rw [hinput, PliPacer.run]
    by_cases hdue : due ≤ s.now
    · rw [Repeater.call_retry_of_le hphase hdue, if_pos (hready.mpr hdue), hlive.2]
      exact h.retry hlive reserved
    · rw [Repeater.call_retry_of_lt fun due' hdue' => ?_, if_neg (hready.not.mpr hdue)]
      · exact ⟨phase, h, rfl⟩
      · rw [← Phase.retrying.inj (hphase.symm.trans hdue')]
        exact Int.not_le.mp hdue
  · have hcancelled : s.worker.Ready s.now id → s.worker.isCancelled id = true := by
      rintro ⟨⟨_, due⟩, hmem, rfl, -⟩
      by_contra hc
      exact hlive ⟨due, hmem, eq_false_of_ne_true hc⟩
    have hcall : (s.view phase).call kMinPLIPeriod kKeyframeTimeout 3 (s.input (.run id reserved)) =
        (s.view phase, []) := by
      rw [input]
      split_ifs with hid
      · refine Repeater.call_retry_of_lt fun due hdue => ?_
        exact absurd ⟨due, hid.1 ▸ (h.retrying due).mp hdue⟩ hlive
      · rfl
    rw [hcall, PliPacer.run]
    split_ifs with hready
    · rw [hcancelled hready]
      refine ⟨phase, ?_, rfl⟩
      have htake : ∀ task, (s.worker.take id).Live task ↔ s.worker.Live task := by
        intro task
        rw [Worker.live_take]
        exact and_iff_left_of_imp fun ht hid => hlive ⟨task.due, hid ▸ ht⟩
      exact
        { id := fun task ht => h.id task ((htake task).mp ht)
          waiting := fun task ht => h.waiting task ((htake task).mp ht)
          idle := h.idle
          retrying := fun due => (h.retrying due).trans (htake _).symm }
    · exact ⟨phase, h, rfl⟩

theorem InPhase.call (h : s.InPhase phase) (c : PliPacerCall) :
    Agrees s.now ((s.view phase).call kMinPLIPeriod kKeyframeTimeout 3 (s.input c)) (s.call c) := by
  cases c with
  | read packet => exact h.read packet
  | write packet => exact h.write packet
  | run id reserved => exact h.run id reserved
  | enable => exact ⟨phase, { h with }, rfl⟩
  | disable => exact ⟨phase, { h with }, rfl⟩

theorem InPhase.pass (h : s.InPhase phase) (elapsed : ℕ) : (s.pass elapsed).InPhase phase :=
  { h with }

/-- The handler does what the machine does. -/
theorem InPhase.step (h : s.InPhase phase) (e : After PliPacerCall) :
    Agrees (s.now + e.elapsed)
      (Pacing.step kMinPLIPeriod kKeyframeTimeout 3 (s.view phase) ⟨e.elapsed, s.input e.call⟩)
      (PliPacer.step s e) :=
  (h.pass e.elapsed).call e.call

/-! ### Runs -/

/-- The calls of a run, as the machine gets them. -/
def inputs (s : PliPacer) (l : List (After PliPacerCall)) : List (After Input) :=
  Runs.collect step (fun s e => [⟨e.elapsed, s.input e.call⟩]) s l

/-- What is noted in the course of a run. -/
def log (s : PliPacer) (l : List (After PliPacerCall)) : List Note :=
  Runs.collect step (fun s e => notes (s.now + e.elapsed) (s.step e).2) s l

theorem InPhase.run_eq (h : s.InPhase phase) (l : List (After PliPacerCall)) :
    ∃ phase', (Runs.final PliPacer.step s l).InPhase phase' ∧
      Runs.final (Pacing.step kMinPLIPeriod kKeyframeTimeout 3) (s.view phase) (s.inputs l) =
        (Runs.final PliPacer.step s l).view phase' ∧
      Pacing.log kMinPLIPeriod kKeyframeTimeout 3 (s.view phase) (s.inputs l) = s.log l := by
  induction l generalizing s phase with
  | nil => exact ⟨phase, h, rfl, rfl⟩
  | cons e l ih =>
    obtain ⟨phase', hphase', heq⟩ := h.step e
    obtain ⟨phase'', hphase'', hfinal, hlog⟩ := ih hphase'
    refine ⟨phase'', hphase'', ?_, ?_⟩
    · rw [inputs, Runs.collect_cons, List.singleton_append, Runs.final_cons, heq]
      exact hfinal
    · rw [inputs, log, Runs.collect_cons, List.singleton_append, Pacing.log, Runs.collect_cons, heq,
        Runs.collect_cons]
      exact congrArg (notes (s.now + e.elapsed) (PliPacer.step s e).2 ++ ·) hlog

end PliPacer

end KkLicode.Rtp
