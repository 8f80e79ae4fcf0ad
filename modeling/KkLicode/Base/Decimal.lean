import Mathlib.Data.List.Basic
import Mathlib.Data.Nat.Notation

/-! Decimal numbers in text. A number ends where a character comes that is no
digit, so a text of numbers and separators is read back in one way only. -/

namespace KkLicode.Base.Decimal

variable {m n : ℕ} {c : Char} {x y : List Char}

/-- A list up to the first separator, and what is behind it. -/
theorem append_cons_inj {α : Type*} {a : α} {l l' u v : List α} (h : a ∉ l) (h' : a ∉ l') :
    l ++ a :: u = l' ++ a :: v ↔ l = l' ∧ u = v := by
  induction l generalizing l' with
  | nil =>
    cases l' with
    | nil => simp
    | cons b l' =>
      have hb : a ≠ b := fun hb => h' (hb ▸ List.mem_cons_self)
      simp [hb]
  | cons b l ih =>
    have hb : b ≠ a := fun hb => h (hb ▸ List.mem_cons_self)
    cases l' with
    | nil => simp [hb]
    | cons d l' =>
      rw [List.cons_append, List.cons_append, List.cons.injEq, List.cons.injEq,
        ih (fun hl => h (List.mem_cons_of_mem _ hl)) (fun hl => h' (List.mem_cons_of_mem _ hl)), and_assoc]

theorem toDigits_inj : Nat.toDigits 10 m = Nat.toDigits 10 n ↔ m = n := by
  refine ⟨fun h => ?_, fun h => h ▸ rfl⟩
  have hm := Nat.ofDigitChars_ten_toDigits (n := m)
  rw [h, Nat.ofDigitChars_ten_toDigits] at hm
  exact hm.symm

theorem notMem_toDigits (hc : c.isDigit = false) : c ∉ Nat.toDigits 10 n := by
  intro h
  rw [Nat.isDigit_of_mem_toDigits (by decide) (by decide) h] at hc
  cases hc

/-- A number in front of a separator. -/
theorem toDigits_append_cons_inj (hc : c.isDigit = false) :
    Nat.toDigits 10 m ++ c :: x = Nat.toDigits 10 n ++ c :: y ↔ m = n ∧ x = y := by
  rw [append_cons_inj (notMem_toDigits hc) (notMem_toDigits hc), toDigits_inj]

end KkLicode.Base.Decimal
