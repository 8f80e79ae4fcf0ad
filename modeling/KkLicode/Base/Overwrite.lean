import Mathlib.Data.List.Induction

/-! Operations of which any two commute, or the second one makes the first one void.
Running a list of them a second time changes nothing, although in between an operation
may undo another one. -/

namespace KkLicode.Base

variable {σ α : Type*}

/-- Every operation is idempotent, and of any two either the order does not matter or
only the second one does. -/
structure Overwrites (apply : σ → α → σ) (good : α → Prop) : Prop where
  idem {v : α} (x : σ) : good v → apply (apply x v) v = apply x v
  pair {v w : α} (x : σ) : good v → good w →
    apply (apply x v) w = apply (apply x w) v ∨ apply (apply x v) w = apply x w

namespace Overwrites

variable {apply : σ → α → σ} {good : α → Prop} {v : α} {l : List α}

/-- In front of other operations, an operation that comes again behind them is void. -/
theorem absorb (h : Overwrites apply good) (hv : good v) (hl : ∀ w ∈ l, good w) (x : σ) :
    apply (l.foldl apply (apply x v)) v = apply (l.foldl apply x) v := by
  induction l generalizing x with
  | nil => exact h.idem x hv
  | cons w l ih =>
    obtain ⟨hw, hl⟩ := List.forall_mem_cons.mp hl
    rw [List.foldl_cons, List.foldl_cons]
    rcases h.pair x hv hw with hcomm | hvoid
    · rw [hcomm, ih hl]
    · rw [hvoid]

theorem foldl_idem (h : Overwrites apply good) (hl : ∀ w ∈ l, good w) (x : σ) :
    l.foldl apply (l.foldl apply x) = l.foldl apply x := by
  induction l using List.reverseRecOn with
  | nil => rfl
  | append_singleton l v ih =>
    have hv : good v := hl v (List.mem_append_right _ List.mem_cons_self)
    have hl : ∀ w ∈ l, good w := fun w hw => hl w (List.mem_append_left _ hw)
    simp only [List.foldl_append, List.foldl_cons, List.foldl_nil]
    rw [h.absorb hv hl, ih hl]

end Overwrites

end KkLicode.Base
