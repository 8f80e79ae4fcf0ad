import Mathlib.Data.List.Nodup
import Mathlib.Data.Nat.Notation
import Mathlib.Data.Int.Notation
import Mathlib.Logic.Function.Basic

/-! The timers of a worker. A task is scheduled under a reference of its own; it
runs once, at some time when it is due, unless its reference was cancelled before. -/

namespace KkLicode.Thread

/-- A task by its reference, and the time before which it does not run. -/
structure ScheduledTask where
  id : ℕ
  due : ℤ
  deriving DecidableEq, Repr

/-- `Worker`, with the references handed out so far. -/
structure Worker where
  scheduled : List ScheduledTask := []
  isCancelled : ℕ → Bool := fun _ => false
  references : ℕ := 0
  nodup : (scheduled.map (·.id)).Nodup := by simp
  allocated : ∀ task ∈ scheduled, task.id < references := by simp

namespace Worker

variable (w : Worker)

/-- `std::make_shared<ScheduledTaskReference>()`. -/
def newReference : Worker × ℕ :=
  ({ w with
      isCancelled := Function.update w.isCancelled w.references false
      references := w.references + 1
      allocated := fun task h => Nat.lt_succ_of_lt (w.allocated task h) }, w.references)

def scheduleFromNow (now delta : ℤ) : Worker × ℕ :=
  ({ w.newReference.1 with
      scheduled := ⟨w.newReference.2, now + delta⟩ :: w.scheduled
      nodup := List.nodup_cons.mpr ⟨fun h => by
        obtain ⟨task, htask, hid⟩ := List.mem_map.mp h
        exact Nat.ne_of_lt (w.allocated task htask) hid, w.nodup⟩
      allocated := List.forall_mem_cons.mpr
        ⟨Nat.lt_succ_self w.references, w.newReference.1.allocated⟩ }, w.newReference.2)

def unschedule (id : ℕ) : Worker :=
  { w with isCancelled := Function.update w.isCancelled id true }

/-- The task leaves the queue to be run. -/
def take (id : ℕ) : Worker :=
  { w with
      scheduled := w.scheduled.filter (·.id ≠ id)
      nodup := w.nodup.sublist (List.filter_sublist.map _)
      allocated := fun task h => w.allocated task (List.mem_of_mem_filter h) }

/-- The task with this reference may run. -/
def Ready (now : ℤ) (id : ℕ) : Prop := ∃ task ∈ w.scheduled, task.id = id ∧ task.due ≤ now

instance (now : ℤ) (id : ℕ) : Decidable (w.Ready now id) :=
  inferInstanceAs (Decidable (∃ task ∈ w.scheduled, _))

/-- The task is scheduled and not cancelled. -/
def Live (task : ScheduledTask) : Prop := task ∈ w.scheduled ∧ w.isCancelled task.id = false

instance (task : ScheduledTask) : Decidable (w.Live task) := inferInstanceAs (Decidable (_ ∧ _))

variable {w} {task task' : ScheduledTask} {id : ℕ}

theorem Live.eq (h : w.Live task) (h' : w.Live task') (hid : task.id = task'.id) : task = task' :=
  List.inj_on_of_nodup_map w.nodup h.1 h'.1 hid

@[simp] theorem live_newReference : (w.newReference.1).Live task ↔ w.Live task := by
  refine and_congr_right fun htask => ?_
  show Function.update _ _ _ _ = _ ↔ _
  rw [Function.update_of_ne (Nat.ne_of_lt (w.allocated task htask))]

@[simp] theorem newReference_snd : w.newReference.2 = w.references := rfl

@[simp] theorem scheduleFromNow_snd (now delta : ℤ) :
    (w.scheduleFromNow now delta).2 = w.references := rfl

/-- A new task joins those that are there. -/
@[simp] theorem live_scheduleFromNow {now delta : ℤ} :
    ((w.scheduleFromNow now delta).1).Live task ↔
      task = ⟨w.references, now + delta⟩ ∨ w.Live task := by
  constructor
  · rintro ⟨hmem, hc⟩
    rcases List.mem_cons.mp hmem with rfl | hmem
    · exact .inl rfl
    · exact .inr (live_newReference.mp ⟨hmem, hc⟩)
  · rintro (rfl | h)
    · exact ⟨List.mem_cons_self, Function.update_self ..⟩
    · exact ⟨List.mem_cons_of_mem _ h.1, (live_newReference.mpr h).2⟩

/-- A task that is cancelled is not run. -/
@[simp] theorem live_unschedule : (w.unschedule id).Live task ↔ w.Live task ∧ task.id ≠ id := by
  unfold Live unschedule
  by_cases hid : task.id = id
  · simp [hid]
  · simp [hid]

@[simp] theorem live_take : (w.take id).Live task ↔ w.Live task ∧ task.id ≠ id := by
  simp only [Live, take, List.mem_filter, decide_eq_true_eq]
  tauto

end Worker

end KkLicode.Thread
