import Mathlib.Data.List.Induction
import Mathlib.Data.Nat.Notation

/-! Runs of a deterministic machine that answers every input with an output.
A condition on the steps of a run is a predicate on the state before the step
and the input. An invariant kept by every step that meets the condition holds
after every run whose steps all meet it; the second rule also lets the invariant
speak of the inputs and outputs so far. -/

namespace KkLicode.Base.Runs

variable {σ α β : Type*} (f : σ → α → σ × β)

/-- The state after the inputs. -/
def final : σ → List α → σ
  | s, [] => s
  | s, a :: l => final (f s a).1 l

/-- The inputs, each with its output. -/
def trace : σ → List α → List (α × β)
  | _, [] => []
  | s, a :: l => (a, (f s a).2) :: trace (f s a).1 l

/-- Every step of the run meets the condition `good`. -/
def Steps (good : σ → α → Prop) : σ → List α → Prop
  | _, [] => True
  | s, a :: l => good s a ∧ Steps good (f s a).1 l

/-- The sum of a weight over the steps of the run. -/
def total (weight : σ → α → ℕ) : σ → List α → ℕ
  | _, [] => 0
  | s, a :: l => weight s a + total weight (f s a).1 l

/-- What the steps of the run say, in order. -/
def collect {γ : Type*} (note : σ → α → List γ) : σ → List α → List γ
  | _, [] => []
  | s, a :: l => note s a ++ collect note (f s a).1 l

instance Steps.decidable (good : σ → α → Prop) [∀ s a, Decidable (good s a)] :
    ∀ s l, Decidable (Steps f good s l)
  | _, [] => isTrue trivial
  | s, a :: l =>
    haveI := Steps.decidable good (f s a).1 l
    inferInstanceAs (Decidable (good s a ∧ Steps f good (f s a).1 l))

@[simp] theorem final_nil (s : σ) : final f s [] = s := rfl

@[simp] theorem final_cons (s : σ) (a : α) (l : List α) :
    final f s (a :: l) = final f (f s a).1 l := rfl

@[simp] theorem trace_nil (s : σ) : trace f s [] = [] := rfl

@[simp] theorem trace_cons (s : σ) (a : α) (l : List α) :
    trace f s (a :: l) = (a, (f s a).2) :: trace f (f s a).1 l := rfl

@[simp] theorem collect_nil {γ : Type*} (note : σ → α → List γ) (s : σ) :
    collect f note s [] = [] := rfl

@[simp] theorem collect_cons {γ : Type*} (note : σ → α → List γ) (s : σ) (a : α) (l : List α) :
    collect f note s (a :: l) = note s a ++ collect f note (f s a).1 l := rfl

theorem final_append (s : σ) (l m : List α) : final f s (l ++ m) = final f (final f s l) m := by
  induction l generalizing s with
  | nil => rfl
  | cons a l ih => exact ih _

theorem trace_append (s : σ) (l m : List α) :
    trace f s (l ++ m) = trace f s l ++ trace f (final f s l) m := by
  induction l generalizing s with
  | nil => rfl
  | cons a l ih => simp [ih]

theorem trace_map_fst (s : σ) (l : List α) : (trace f s l).map (·.1) = l := by
  induction l generalizing s with
  | nil => rfl
  | cons a l ih => simp [ih]

theorem collect_append {γ : Type*} (note : σ → α → List γ) (s : σ) (l m : List α) :
    collect f note s (l ++ m) = collect f note s l ++ collect f note (final f s l) m := by
  induction l generalizing s with
  | nil => rfl
  | cons a l ih => simp [ih]

/-- Every output is that of a state on the way. -/
theorem exists_of_mem_trace {s : σ} {l : List α} {x : α × β} (h : x ∈ trace f s l) :
    ∃ t, x.2 = (f t x.1).2 := by
  induction l generalizing s with
  | nil => cases h
  | cons a l ih =>
    rcases List.mem_cons.mp h with rfl | h
    · exact ⟨s, rfl⟩
    · exact ih h

variable {f} {good : σ → α → Prop}

/-- Every output is that of a state on the way, where an invariant of all steps holds. -/
theorem exists_of_mem_trace_invariant {P : σ → Prop} (hstep : ∀ s a, P s → P (f s a).1) {s : σ}
    {l : List α} (h : P s) {x : α × β} (hx : x ∈ trace f s l) : ∃ t, P t ∧ x.2 = (f t x.1).2 := by
  induction l generalizing s with
  | nil => cases hx
  | cons a l ih =>
    rcases List.mem_cons.mp hx with rfl | hx
    · exact ⟨s, h, rfl⟩
    · exact ih (hstep s a h) hx

@[simp] theorem steps_nil (s : σ) : Steps f good s [] := trivial

theorem steps_true (s : σ) (l : List α) : Steps f (fun _ _ => True) s l := by
  induction l generalizing s with
  | nil => trivial
  | cons a l ih => exact ⟨trivial, ih _⟩

theorem steps_cons {s : σ} {a : α} {l : List α} :
    Steps f good s (a :: l) ↔ good s a ∧ Steps f good (f s a).1 l := Iff.rfl

theorem steps_append {s : σ} {l m : List α} :
    Steps f good s (l ++ m) ↔ Steps f good s l ∧ Steps f good (final f s l) m := by
  induction l generalizing s with
  | nil => simp
  | cons a l ih => simp [steps_cons, ih, and_assoc]

theorem Steps.imp {good' : σ → α → Prop} (h : ∀ s a, good s a → good' s a) {s : σ} {l : List α}
    (hs : Steps f good s l) : Steps f good' s l := by
  induction l generalizing s with
  | nil => trivial
  | cons a l ih => exact ⟨h _ _ hs.1, ih hs.2⟩

/-- A property of runs that every step extends holds of every run. -/
theorem Steps.rec_append {P : List α → Prop} {s : σ} (nil : P [])
    (append : ∀ l a, P l → good (final f s l) a → P (l ++ [a])) {l : List α}
    (hs : Steps f good s l) : P l := by
  induction l using List.reverseRecOn with
  | nil => exact nil
  | append_singleton l a ih =>
    obtain ⟨hl, ha⟩ := steps_append.mp hs
    exact append l a (ih hl) ha.1

/-- The invariant rule. -/
theorem Steps.invariant {P : σ → Prop} (hstep : ∀ s a, P s → good s a → P (f s a).1)
    {s : σ} {l : List α} (hs : Steps f good s l) (h : P s) : P (final f s l) := by
  induction l generalizing s with
  | nil => exact h
  | cons a l ih => exact ih hs.2 (hstep s a h hs.1)

/-- A condition that follows from another one and an invariant holds of all steps, too. -/
theorem Steps.imp_of_invariant {P : σ → Prop} {good' : σ → α → Prop}
    (hstep : ∀ s a, P s → good s a → P (f s a).1) (himp : ∀ s a, P s → good s a → good' s a)
    {s : σ} {l : List α} (h : P s) (hs : Steps f good s l) : Steps f good' s l := by
  induction l generalizing s with
  | nil => trivial
  | cons a l ih => exact ⟨himp s a h hs.1, ih (hstep s a h hs.1) hs.2⟩

/-- Conditions that agree wherever an invariant holds agree on runs that keep it. -/
theorem Steps.iff_of_invariant {P : σ → Prop} {keeps good' : σ → α → Prop}
    (hstep : ∀ s a, P s → keeps s a → P (f s a).1)
    (hiff : ∀ s a, P s → (good s a ↔ good' s a)) {s : σ} {l : List α} (h : P s)
    (hs : Steps f keeps s l) : Steps f good s l ↔ Steps f good' s l := by
  induction l generalizing s with
  | nil => exact Iff.rfl
  | cons a l ih => exact and_congr (hiff s a h) (ih (hstep s a h hs.1) hs.2)

/-- The invariant rule with the history of inputs and outputs. -/
theorem Steps.history {P : List (α × β) → σ → Prop}
    (hstep : ∀ t s a, P t s → good s a → P (t ++ [(a, (f s a).2)]) (f s a).1)
    {t : List (α × β)} {s : σ} {l : List α} (hs : Steps f good s l) (h : P t s) :
    P (t ++ trace f s l) (final f s l) := by
  induction l generalizing s t with
  | nil => simpa using h
  | cons a l ih => simpa using ih hs.2 (hstep t s a h hs.1)

end KkLicode.Base.Runs
