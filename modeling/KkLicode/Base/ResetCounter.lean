import Mathlib.Algebra.BigOperators.Group.List.Basic
import Mathlib.Algebra.Ring.Nat
import Mathlib.Data.List.Infix

/-! A counter that grows with the elements of a list and starts again behind an
element that ends a stretch. It stays within a bound all the time exactly if no
stretch is too heavy, however long the stretches are. -/

namespace KkLicode.Base.ResetCounter

variable {α : Type*} (weight : α → ℕ) (ends : α → Bool) (cap : ℕ)

/-- The counter after an element. -/
def next (n : ℕ) (a : α) : ℕ := if ends a then 0 else n + weight a

/-- The counter never goes beyond the bound, also not before it starts again. -/
def Within : ℕ → List α → Prop
  | _, [] => True
  | n, a :: l => n + weight a ≤ cap ∧ Within (next weight ends n a) l

def total (l : List α) : ℕ := (l.map weight).sum

variable {weight ends cap} {n : ℕ} {a : α} {l : List α}

theorem total_cons : total weight (a :: l) = weight a + total weight l := List.sum_cons

theorem next_of_ends (h : ends a = true) : next weight ends n a = 0 := if_pos h

theorem next_of_not_ends (h : ends a = false) : next weight ends n a = n + weight a :=
  if_neg (Bool.eq_false_iff.mp h)

/-- The stretch that has begun goes on with the list, the others lie in it. -/
theorem within_iff_stretches : Within weight ends cap n l ↔
    (∀ m q, m ++ [q] <+: l → (∀ p ∈ m, ends p = false) → n + total weight (m ++ [q]) ≤ cap) ∧
      ∀ m q, m ++ [q] <:+: l → (∀ p ∈ m, ends p = false) → total weight (m ++ [q]) ≤ cap := by
  induction l generalizing n with
  | nil => simp [Within]
  | cons a l ih =>
    rw [Within, ih]
    constructor
    · rintro ⟨ha, hfirst, hrest⟩
      have hpre : ∀ m q, m ++ [q] <+: a :: l → (∀ p ∈ m, ends p = false) →
          n + total weight (m ++ [q]) ≤ cap := by
        intro m q hm hends
        cases m with
        | nil =>
          obtain rfl : q = a := List.singleton_prefix_cons_iff.mp hm
          rwa [List.nil_append, total, List.map_singleton, List.sum_singleton]
        | cons b m =>
          obtain ⟨rfl, hml⟩ := List.cons_prefix_cons.mp hm
          obtain ⟨hb, hends⟩ := List.forall_mem_cons.mp hends
          have := hfirst m q hml hends
          rw [next_of_not_ends hb] at this
          rw [List.cons_append, total_cons]
          omega
      refine ⟨hpre, fun m q hm hends => ?_⟩
      rcases List.infix_cons_iff.mp hm with hm | hm
      · exact (Nat.le_add_left _ n).trans (hpre m q hm hends)
      · exact hrest m q hm hends
    · rintro ⟨hfirst, hrest⟩
      have hsub : ∀ m q, m ++ [q] <:+: l → (∀ p ∈ m, ends p = false) →
          total weight (m ++ [q]) ≤ cap :=
        fun m q hm => hrest m q (List.infix_cons_iff.mpr (.inr hm))
      refine ⟨?_, fun m q hm hends => ?_, hsub⟩
      · have := hfirst [] a (List.singleton_prefix_cons_iff.mpr rfl) (by simp)
        rwa [List.nil_append, total, List.map_singleton, List.sum_singleton] at this
      · cases ha : ends a with
        | true =>
          rw [next_of_ends ha, Nat.zero_add]
          exact hsub m q hm.isInfix hends
        | false =>
          have := hfirst (a :: m) q (List.cons_prefix_cons.mpr ⟨rfl, hm⟩)
            (List.forall_mem_cons.mpr ⟨ha, hends⟩)
          rw [List.cons_append, total_cons] at this
          rw [next_of_not_ends ha]
          omega

/-- From zero on, the bound holds exactly if every stretch is within it. -/
theorem within_zero_iff : Within weight ends cap 0 l ↔
    ∀ m q, m ++ [q] <:+: l → (∀ p ∈ m, ends p = false) → total weight (m ++ [q]) ≤ cap := by
  rw [within_iff_stretches]
  refine ⟨And.right, fun h => ⟨fun m q hm hends => ?_, h⟩⟩
  rw [Nat.zero_add]
  exact h m q hm.isInfix hends

end KkLicode.Base.ResetCounter
