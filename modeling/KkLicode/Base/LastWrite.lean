import Mathlib.Data.List.Basic

/-! Lists of writes, each a key and a value. A key has the value of its last write. -/

namespace KkLicode.Base

variable {κ τ : Type*} [DecidableEq κ] {k k' : κ} {v : τ} {l l' : List (κ × τ)}

/-- The value of the last write to a key. -/
def lastWrite (k : κ) : List (κ × τ) → Option τ
  | [] => none
  | x :: l => (lastWrite k l).or (if x.1 = k then some x.2 else none)

@[simp] theorem lastWrite_nil : lastWrite k ([] : List (κ × τ)) = none := rfl

theorem lastWrite_append : lastWrite k (l ++ l') = (lastWrite k l').or (lastWrite k l) := by
  induction l with
  | nil => exact Option.or_none.symm
  | cons x l ih => rw [List.cons_append, lastWrite, lastWrite, ih, Option.or_assoc]

theorem lastWrite_concat : lastWrite k (l ++ [(k', v)]) =
    if k = k' then some v else lastWrite k l := by
  rw [lastWrite_append, lastWrite, lastWrite_nil, Option.none_or]
  by_cases h : k = k'
  · simp [h]
  · simp [h, Ne.symm h]

theorem lastWrite_eq_none_iff : lastWrite k l = none ↔ k ∉ l.map (·.1) := by
  induction l with
  | nil => simp
  | cons x l ih =>
    rw [lastWrite, Option.or_eq_none_iff, ih, List.map_cons, List.mem_cons, not_or, and_comm]
    split_ifs with hx
    · simp [hx]
    · simp [Ne.symm hx]

theorem isSome_lastWrite_iff : (lastWrite k l).isSome ↔ k ∈ l.map (·.1) := by
  rw [← not_iff_not, ← lastWrite_eq_none_iff, Option.not_isSome_iff_eq_none]

/-- The last write to a key has no write to the key behind it. -/
theorem lastWrite_eq_some_iff : lastWrite k l = some v ↔
    ∃ before behind, l = before ++ (k, v) :: behind ∧ k ∉ behind.map (·.1) := by
  constructor
  · intro h
    induction l with
    | nil => cases h
    | cons x l ih =>
      rw [lastWrite, Option.or_eq_some_iff] at h
      rcases h with h | ⟨hn, h⟩
      · obtain ⟨before, behind, rfl, hb⟩ := ih h
        exact ⟨x :: before, behind, rfl, hb⟩
      · split_ifs at h with hx
        refine ⟨[], l, ?_, lastWrite_eq_none_iff.mp hn⟩
        rw [← hx, ← Option.some.inj h]
        rfl
  · rintro ⟨before, behind, rfl, hb⟩
    rw [lastWrite_append, lastWrite, lastWrite_eq_none_iff.mpr hb]
    simp

theorem mem_of_lastWrite (h : lastWrite k l = some v) : (k, v) ∈ l := by
  obtain ⟨before, behind, rfl, -⟩ := lastWrite_eq_some_iff.mp h
  exact List.mem_append_right _ List.mem_cons_self

end KkLicode.Base
