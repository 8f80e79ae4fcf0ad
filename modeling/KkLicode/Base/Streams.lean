import Mathlib.Data.List.Chain

/-! Streams of consecutive numbers. A stream that is written piece by piece is
described by a cursor, the number written last, which is absent before the first
number. A piece continues the cursor when its numbers go on from it one by one. -/

namespace KkLicode.Base.Streams

variable {α : Type*} [Add α] [OfNat α 1]

/-- `x` may be written after the cursor. -/
def Follows (c : Option α) (x : α) : Prop := ∀ p ∈ c, x = p + 1

instance Follows.decidable [DecidableEq α] (c : Option α) (x : α) : Decidable (Follows c x) :=
  inferInstanceAs (Decidable (∀ p ∈ c, x = p + 1))

/-- The numbers go on from the cursor one by one. -/
def ChainFrom : Option α → List α → Prop
  | _, [] => True
  | c, x :: l => Follows c x ∧ ChainFrom (some x) l

/-- Each number is the successor of the one before it. -/
def Consecutive (l : List α) : Prop := l.IsChain (fun x y => y = x + 1)

/-- The cursor after a piece. -/
def cursor (c : Option α) (l : List α) : Option α := l.getLast?.or c

omit [Add α] [OfNat α 1] in
@[simp] theorem cursor_nil (c : Option α) : cursor c [] = c := rfl

omit [Add α] [OfNat α 1] in
theorem cursor_append (c : Option α) (l m : List α) :
    cursor c (l ++ m) = cursor (cursor c l) m := by
  simp only [cursor, List.getLast?_append, Option.or_assoc]

omit [Add α] [OfNat α 1] in
@[simp] theorem cursor_cons (c : Option α) (x : α) (l : List α) :
    cursor c (x :: l) = cursor (some x) l := by
  simpa [cursor] using cursor_append c [x] l

@[simp] theorem follows_none (x : α) : Follows none x := by simp [Follows]

@[simp] theorem follows_some {p x : α} : Follows (some p) x ↔ x = p + 1 := by simp [Follows]

@[simp] theorem chainFrom_nil (c : Option α) : ChainFrom c [] := trivial

@[simp] theorem chainFrom_cons {c : Option α} {x : α} {l : List α} :
    ChainFrom c (x :: l) ↔ Follows c x ∧ ChainFrom (some x) l := Iff.rfl

theorem chainFrom_append {c : Option α} {l m : List α} :
    ChainFrom c (l ++ m) ↔ ChainFrom c l ∧ ChainFrom (cursor c l) m := by
  induction l generalizing c with
  | nil => simp
  | cons x l ih => simp [ih, and_assoc]

theorem chainFrom_some_iff {p : α} {l : List α} :
    ChainFrom (some p) l ↔ Consecutive (p :: l) := by
  induction l generalizing p with
  | nil => simp [Consecutive]
  | cons x l ih => simp [Consecutive, List.isChain_cons_cons, ih]

/-- A stream written from the start is consecutive. -/
theorem chainFrom_none_iff {l : List α} : ChainFrom none l ↔ Consecutive l := by
  cases l with
  | nil => simp [Consecutive]
  | cons x l => simp [chainFrom_some_iff]

end KkLicode.Base.Streams
