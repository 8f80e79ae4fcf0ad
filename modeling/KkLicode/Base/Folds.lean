import Mathlib.Data.List.ProdSigma

/-! Loops whose body may fail, as folds with an optional state. -/

namespace KkLicode.Base.Folds

variable {σ α β : Type*} {f : σ → α → Option σ} {s s' : σ} {l : List α}

theorem foldlM_cons_eq_some {a : α} : (a :: l).foldlM f s = some s' ↔
    ∃ mid, f s a = some mid ∧ l.foldlM f mid = some s' := by
  rw [List.foldlM_cons, Option.bind_eq_bind, Option.bind_eq_some_iff]

/-- A property that every round keeps holds after the loop. -/
theorem foldlM_invariant (P : σ → Prop) (hstep : ∀ {s s' : σ} (a : α), a ∈ l → f s a = some s' → P s → P s')
    (h : l.foldlM f s = some s') (hs : P s) : P s' := by
  induction l generalizing s with
  | nil => exact Option.some.inj h ▸ hs
  | cons a l ih =>
    obtain ⟨mid, hmid, h⟩ := foldlM_cons_eq_some.mp h
    exact ih (fun b hb => hstep b (List.mem_cons_of_mem _ hb)) h
      (hstep a List.mem_cons_self hmid hs)

/-- A loop with a result has a result of the body for every element. -/
theorem foldlM_defined (h : l.foldlM f s = some s') : ∀ a ∈ l, ∃ t t', f t a = some t' := by
  induction l generalizing s with
  | nil => simp
  | cons a l ih =>
    obtain ⟨mid, hmid, h⟩ := foldlM_cons_eq_some.mp h
    exact List.forall_mem_cons.mpr ⟨⟨s, mid, hmid⟩, ih h⟩

/-- If it depends on the element alone whether the body has a result, the loop has one if the body
has one for every element. -/
theorem foldlM_isSome_iff {P : α → Prop} (h : ∀ s, ∀ a ∈ l, (f s a).isSome ↔ P a) :
    (l.foldlM f s).isSome ↔ ∀ a ∈ l, P a := by
  induction l generalizing s with
  | nil => simp
  | cons a l ih =>
    obtain ⟨ha, hl⟩ := forall_and.mp fun s => List.forall_mem_cons.mp (h s)
    rw [List.forall_mem_cons, ← ha s, Option.isSome_iff_exists, Option.isSome_iff_exists]
    constructor
    · rintro ⟨s', hs'⟩
      obtain ⟨mid, hmid, hs'⟩ := foldlM_cons_eq_some.mp hs'
      exact ⟨⟨mid, hmid⟩, (ih hl).mp (Option.isSome_of_eq_some hs')⟩
    · rintro ⟨⟨mid, hmid⟩, hrest⟩
      obtain ⟨s', hs'⟩ := Option.isSome_iff_exists.mp ((ih (s := mid) hl).mpr hrest)
      exact ⟨s', foldlM_cons_eq_some.mpr ⟨mid, hmid, hs'⟩⟩

/-- A loop whose body leaves the state leaves the state. -/
theorem foldlM_eq_self (h : ∀ a ∈ l, f s a = some s) : l.foldlM f s = some s := by
  induction l with
  | nil => rfl
  | cons a l ih =>
    obtain ⟨ha, hl⟩ := List.forall_mem_cons.mp h
    exact foldlM_cons_eq_some.mpr ⟨s, ha, ih hl⟩

/-- Two nested loops are one loop over the pairs. -/
theorem foldlM_product (g : σ → α × β → Option σ) (l : List α) (l' : List β) (s : σ) :
    (l ×ˢ l').foldlM g s = l.foldlM (fun s a => l'.foldlM (fun s b => g s (a, b)) s) s := by
  induction l generalizing s with
  | nil => rfl
  | cons a l ih =>
    rw [List.product_cons, List.foldlM_append, List.foldlM_map, List.foldlM_cons]
    simp only [ih]

end KkLicode.Base.Folds
