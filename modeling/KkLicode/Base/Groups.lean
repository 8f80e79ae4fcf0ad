import Mathlib.Algebra.Order.BigOperators.Group.List
import Mathlib.Algebra.Ring.Nat
import Mathlib.Data.List.Infix

/-! A list of keyed elements, of which those with one key form a group. What comes
before an element in its own group is bounded for every element exactly if every
group is bounded up to its last element. -/

namespace KkLicode.Base.Groups

variable {κ α : Type*} [DecidableEq κ] (weight : α → ℕ) {cap : ℕ} {l : List (κ × α)}

/-- The elements of a group, in order. -/
def group (k : κ) (l : List (κ × α)) : List α := (l.filter (·.1 = k)).map (·.2)

/-- What comes before an element in its own group is within the bound. -/
def Bounded (cap : ℕ) (l : List (κ × α)) : Prop :=
  ∀ before x after, l = before ++ x :: after → ((group x.1 before).map weight).sum ≤ cap

@[simp] theorem group_append (k : κ) (l m : List (κ × α)) :
    group k (l ++ m) = group k l ++ group k m := by
  rw [group, List.filter_append, List.map_append, group, group]

theorem group_cons_self (x : κ × α) (l : List (κ × α)) : group x.1 (x :: l) = x.2 :: group x.1 l := by
  rw [group, List.filter_cons_of_pos (by simp), List.map_cons, group]

/-- A nonempty group is cut before its last element. -/
theorem exists_split {k : κ} {m : List α} {a : α} (h : group k l = m ++ [a]) :
    ∃ before after, l = before ++ (k, a) :: after ∧ group k before = m := by
  obtain ⟨f₁, f₂, hf, rfl, hlast⟩ := List.map_eq_append_iff.mp h
  obtain ⟨x, rfl, rfl⟩ := List.map_eq_singleton_iff.mp hlast
  obtain ⟨l₁, l₂, rfl, rfl, hx⟩ := List.filter_eq_append_iff.mp hf
  obtain ⟨l₃, l₄, rfl, hskip, hkey, -⟩ := List.filter_eq_cons_iff.mp hx
  obtain rfl : x.1 = k := of_decide_eq_true hkey
  refine ⟨l₁ ++ l₃, l₄, by simp, ?_⟩
  have hnone : group x.1 l₃ = [] := by
    rw [group, List.map_eq_nil_iff, List.filter_eq_nil_iff]
    exact hskip
  rw [group_append, hnone, List.append_nil, group]

theorem bounded_iff :
    Bounded weight cap l ↔ ∀ k, ((group k l).dropLast.map weight).sum ≤ cap := by
  constructor
  · intro h k
    rcases List.eq_nil_or_concat (group k l) with hnil | ⟨m, a, hm⟩
    · simp [hnil]
    · rw [List.concat_eq_append] at hm
      obtain ⟨before, after, hl, rfl⟩ := exists_split hm
      rw [hm, List.dropLast_concat]
      exact h before (k, a) after hl
  · rintro h before x after rfl
    refine le_trans ?_ (h x.1)
    rw [group_append, group_cons_self, List.dropLast_append_of_ne_nil (List.cons_ne_nil _ _),
      List.map_append, List.sum_append]
    exact Nat.le_add_right _ _

end KkLicode.Base.Groups
