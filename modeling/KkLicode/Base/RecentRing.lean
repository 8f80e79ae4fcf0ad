import Mathlib.Data.Nat.ModEq
import Mathlib.Logic.Function.Basic

/-! A ring of `n` cells with the values of the last `n` indices. The value of an
index is in the cell of its residue; the ring goes on by writing the value of the
next index over that of the oldest one. -/

namespace KkLicode.Base.RecentRing

variable {α : Type*} {n k : ℕ} {ring : List α} {value : ℕ → α}

/-- The cells of the last `n` indices up to `k` have their values. -/
structure Holds (n : ℕ) (ring : List α) (value : ℕ → α) (k : ℕ) : Prop where
  length : ring.length = n
  cell : ∀ j ≤ k, k < j + n → ring[j % n]? = some (value j)

/-- Two of the last `n` indices are in different cells. -/
theorem mod_ne_mod {i j : ℕ} (h : i < j) (hn : j < i + n) : i % n ≠ j % n := by
  intro heq
  have hdvd := (Nat.modEq_iff_dvd' h.le).mp heq
  exact absurd (Nat.le_of_dvd (by omega) hdvd) (by omega)

theorem Holds.congr (h : Holds n ring value k) {value' : ℕ → α}
    (heq : ∀ j ≤ k, k < j + n → value' j = value j) : Holds n ring value' k where
  length := h.length
  cell j hj hn := (h.cell j hj hn).trans (congrArg some (heq j hj hn).symm)

/-- The value of the newest index changes. -/
theorem Holds.setNewest (h : Holds n ring value k) (hn : 0 < n) (a : α) :
    Holds n (ring.set (k % n) a) (Function.update value k a) k where
  length := (List.length_set ..).trans h.length
  cell j hj hjn := by
    rcases Nat.eq_or_lt_of_le hj with rfl | hlt
    · rw [Function.update_self]
      exact List.getElem?_set_self (by rw [h.length]; exact Nat.mod_lt _ hn)
    · rw [List.getElem?_set_ne (mod_ne_mod hlt hjn).symm, h.cell j hj hjn,
        Function.update_of_ne hlt.ne]

/-- The next index. -/
theorem Holds.next (h : Holds n ring value k) (hn : 0 < n) :
    Holds n (ring.set ((k + 1) % n) (value (k + 1))) value (k + 1) where
  length := (List.length_set ..).trans h.length
  cell j hj hjn := by
    rcases Nat.eq_or_lt_of_le hj with rfl | hlt
    · exact List.getElem?_set_self (by rw [h.length]; exact Nat.mod_lt _ hn)
    · rw [List.getElem?_set_ne (mod_ne_mod hlt hjn).symm, h.cell j (by omega) (by omega)]

/-- A new ring, before anything has a value. -/
theorem Holds.replicate (hn : 0 < n) {z : α} (hz : ∀ j ≤ k, value j = z) :
    Holds n (List.replicate n z) value k where
  length := List.length_replicate
  cell j hj _ := by
    rw [hz j hj, List.getElem?_replicate, if_pos (Nat.mod_lt _ hn)]

end KkLicode.Base.RecentRing
