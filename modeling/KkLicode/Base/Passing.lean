import KkLicode.Base.Runs

/-! Machines that are to pass on what they are given. An output may be undefined.
A machine that never makes up anything passes all of its inputs on, whole and in
order, if and only if each step passes its input on. -/

namespace KkLicode.Base.Passing

variable {σ α β : Type*} (f : σ → α → σ × Option (List β)) (given : α → List β)

/-- What is passed on in a run, if all of it is defined. -/
def passed : σ → List α → Option (List β)
  | _, [] => some []
  | s, a :: l => (f s a).2.bind fun out => (passed (f s a).1 l).map (out ++ ·)

/-- All that is given is passed on once, in order. -/
def Transparent (s : σ) (l : List α) : Prop := passed f s l = some (l.flatMap given)

/-- The step passes on what it is given. -/
def Through (s : σ) (a : α) : Prop := (f s a).2 = some (given a)

variable {f given}

theorem passed_cons_eq_some {s : σ} {a : α} {l : List α} {r : List β} :
    passed f s (a :: l) = some r ↔
      ∃ out rest, (f s a).2 = some out ∧ passed f (f s a).1 l = some rest ∧ r = out ++ rest := by
  simp only [passed, Option.bind_eq_some_iff, Option.map_eq_some_iff]
  constructor
  · rintro ⟨out, hout, rest, hrest, rfl⟩
    exact ⟨out, rest, hout, hrest, rfl⟩
  · rintro ⟨out, rest, hout, hrest, rfl⟩
    exact ⟨out, hout, rest, hrest, rfl⟩

section Invariant

variable {P : σ → Prop} {ok : α → Prop} (hkeep : ∀ s a, P s → ok a → P (f s a).1)
  (hless : ∀ s a, P s → ok a → ∀ out, (f s a).2 = some out → out.length ≤ (given a).length)

include hkeep hless

theorem length_passed_le {s : σ} {l : List α} (hs : P s) (hl : ∀ a ∈ l, ok a) {r : List β}
    (h : passed f s l = some r) : r.length ≤ (l.flatMap given).length := by
  induction l generalizing s r with
  | nil =>
    obtain rfl := Option.some.inj h
    exact Nat.le_refl _
  | cons a l ih =>
    obtain ⟨ha, hl⟩ := List.forall_mem_cons.mp hl
    obtain ⟨out, rest, hout, hrest, rfl⟩ := passed_cons_eq_some.mp h
    rw [List.flatMap_cons, List.length_append, List.length_append]
    exact Nat.add_le_add (hless s a hs ha out hout) (ih (hkeep s a hs ha) hl hrest)

/-- Nothing can be made up for later, since no step passes on more than it is given. -/
theorem transparent_iff {s : σ} {l : List α} (hs : P s) (hl : ∀ a ∈ l, ok a) :
    Transparent f given s l ↔ Runs.Steps f (Through f given) s l := by
  induction l generalizing s with
  | nil => exact iff_of_true rfl trivial
  | cons a l ih =>
    obtain ⟨ha, hl⟩ := List.forall_mem_cons.mp hl
    have hs' := hkeep s a hs ha
    rw [Runs.steps_cons, ← ih hs' hl]
    unfold Transparent
    rw [passed_cons_eq_some, List.flatMap_cons]
    constructor
    · rintro ⟨out, rest, hout, hrest, heq⟩
      have hfirst := hless s a hs ha out hout
      have hbehind := length_passed_le hkeep hless hs' hl hrest
      have hlength := congrArg List.length heq
      rw [List.length_append, List.length_append] at hlength
      obtain ⟨hgiven, hall⟩ := List.append_inj heq (by omega)
      exact ⟨by rw [Through, hout, hgiven], by rw [hrest, hall]⟩
    · rintro ⟨hthrough, hrest⟩
      exact ⟨_, _, hthrough, hrest, rfl⟩

end Invariant

end KkLicode.Base.Passing
