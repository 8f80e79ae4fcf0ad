import Mathlib.Logic.Function.Basic
import Mathlib.Data.Nat.ModEq
import Mathlib.Tactic.Linarith

/-! A table of numbered items in fewer slots than there are numbers. Items are
written one number after the other, each into the slot of its number, so a slot
holds the last number placed in it. For numbers counted modulo `W` and slots
taken modulo `R`, two numbers less than `R` apart share a slot only when `W` is
not a multiple of `R`, they lie on both sides of a multiple of `W`, and they are
exactly `W % R` apart. -/

namespace KkLicode.Base.SlotRing

section Writing
variable {ι β : Type*} [DecidableEq ι] (slot : ℕ → ι) (item : ℕ → β)

/-- Write the items `a, …, a + n - 1` in this order. -/
def writeRun (buf : ι → β) (a : ℕ) : ℕ → ι → β
  | 0 => buf
  | n + 1 => Function.update (writeRun buf a n) (slot (a + n)) (item (a + n))

@[simp] theorem writeRun_zero (buf : ι → β) (a : ℕ) : writeRun slot item buf a 0 = buf := rfl

theorem writeRun_succ (buf : ι → β) (a n : ℕ) : writeRun slot item buf a (n + 1) =
    Function.update (writeRun slot item buf a n) (slot (a + n)) (item (a + n)) := rfl

/-- The run depends only on the slots and items it writes. -/
theorem writeRun_ext {slot' : ℕ → ι} {item' : ℕ → β} (buf : ι → β) {a b n : ℕ}
    (h : ∀ j < n, slot (a + j) = slot' (b + j) ∧ item (a + j) = item' (b + j)) :
    writeRun slot item buf a n = writeRun slot' item' buf b n := by
  induction n with
  | zero => rfl
  | succ n ih =>
    rw [writeRun_succ, writeRun_succ, (h n (by omega)).1, (h n (by omega)).2,
      ih fun j hj => h j (by omega)]

/-- A slot none of the numbers falls into keeps its item. -/
theorem writeRun_of_ne (buf : ι → β) (a : ℕ) {n : ℕ} {j : ι} (h : ∀ k < n, slot (a + k) ≠ j) :
    writeRun slot item buf a n j = buf j := by
  induction n with
  | zero => rfl
  | succ n ih =>
    rw [writeRun_succ, Function.update_of_ne (h n (by omega)).symm]
    exact ih fun k hk => h k (by omega)

/-- Only the slots that are not written depend on the table before. -/
theorem writeRun_congr {buf buf' : ι → β} (a : ℕ) {n : ℕ} {j : ι}
    (h : (∀ k < n, slot (a + k) ≠ j) → buf j = buf' j) :
    writeRun slot item buf a n j = writeRun slot item buf' a n j := by
  induction n with
  | zero => exact h (by simp)
  | succ n ih =>
    rw [writeRun_succ, writeRun_succ]
    by_cases hj : j = slot (a + n)
    · subst hj; rw [Function.update_self, Function.update_self]
    · rw [Function.update_of_ne hj, Function.update_of_ne hj]
      refine ih fun hk => h fun k hkn => ?_
      rcases Nat.lt_succ_iff_lt_or_eq.mp hkn with hlt | rfl
      · exact hk k hlt
      · exact Ne.symm hj

/-- A number that no later one displaced is found in its slot. -/
theorem writeRun_owner (buf : ι → β) (a : ℕ) {n k : ℕ} (hk : k < n)
    (h : ∀ m < n, k < m → slot (a + m) ≠ slot (a + k)) :
    writeRun slot item buf a n (slot (a + k)) = item (a + k) := by
  induction n with
  | zero => omega
  | succ n ih =>
    rw [writeRun_succ]
    by_cases hkn : k = n
    · subst hkn; rw [Function.update_self]
    · rw [Function.update_of_ne (h n (by omega) (by omega)).symm]
      exact ih (by omega) fun m hm => h m (by omega)

end Writing

section Sharing
variable {W R : ℕ}

/-- Numbers less than `R` apart that share a slot lie on both sides of a
multiple of `W`, `W % R` apart. -/
theorem slot_shared {a b : ℕ} (hab : a < b) (hb : b < a + R) (hRW : R ≤ W)
    (h : a % W % R = b % W % R) : W ≤ a % W + W % R ∧ b = a + W % R := by
  have hR : 0 < R := by omega
  obtain ⟨d, rfl⟩ : ∃ d, b = a + d := ⟨b - a, by omega⟩
  have hdR : d % R = d := Nat.mod_eq_of_lt (by omega)
  have haW : a % W < W := Nat.mod_lt _ (by omega)
  by_cases hw : a % W + d < W
  · -- the same lap: the numbers would be a multiple of `R` apart
    have e : (a + d) % W = a % W + d := by
      rw [Nat.add_mod, Nat.mod_eq_of_lt (show d < W by omega), Nat.mod_eq_of_lt hw]
    rw [e] at h
    have hd : 0 ≡ d [MOD R] := Nat.ModEq.add_left_cancel' (a % W) h
    have : d % R = 0 := hd.symm
    omega
  · have e : (a + d) % W + W = a % W + d := by
      rw [Nat.add_mod, Nat.mod_eq_of_lt (show d < W by omega), Nat.mod_eq_sub_mod (by omega),
        Nat.mod_eq_of_lt (by omega)]
      omega
    have hmod : d ≡ W [MOD R] := by
      have h1 : (a + d) % W + W ≡ a % W + W [MOD R] := Nat.ModEq.add_right _ h.symm
      rw [e] at h1
      exact Nat.ModEq.add_left_cancel' _ h1
    have hd : d = W % R := by rw [← hdR]; exact hmod
    exact ⟨by omega, by omega⟩

end Sharing

end KkLicode.Base.SlotRing
