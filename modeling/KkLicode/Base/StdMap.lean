import Mathlib.Data.List.Pairwise
import Mathlib.Data.List.Sort
import Mathlib.Order.Basic

/-! Ordered maps as lists of pairs with increasing keys. Insertion keeps a key that
is there, as `std::map::insert` does; assignment replaces its value. The lemmas say
what a lookup finds after each operation. -/

namespace KkLicode.Base

instance uint32LinearOrder : LinearOrder UInt32 where
  le_refl := UInt32.le_refl
  le_trans _ _ _ := UInt32.le_trans
  lt_iff_le_not_ge a b := by
    rw [UInt32.not_le, UInt32.le_iff_toNat_le, UInt32.lt_iff_toNat_lt]
    omega
  le_antisymm _ _ := UInt32.le_antisymm
  le_total := UInt32.le_total
  toDecidableLE := inferInstance
  toDecidableLT := inferInstance
  toDecidableEq := inferInstance

variable {κ τ : Type*} [LinearOrder κ]

structure StdMap (κ τ : Type*) [LinearOrder κ] where
  pairs : List (κ × τ)
  sorted : pairs.Pairwise fun x y => x.1 < y.1

namespace StdMap

/-- The value at a key in a list of pairs. -/
def lookup (k : κ) : List (κ × τ) → Option τ
  | [] => none
  | x :: l => if x.1 = k then some x.2 else lookup k l

/-- Put `v` at a new key, or change the value at a key that is there. -/
def place (k : κ) (v : τ) (f : τ → τ) : List (κ × τ) → List (κ × τ)
  | [] => [(k, v)]
  | x :: l =>
    if k < x.1 then (k, v) :: x :: l
    else if x.1 = k then (k, f x.2) :: l
    else x :: place k v f l

theorem mem_place {k : κ} {v : τ} {f : τ → τ} {l : List (κ × τ)} {y : κ × τ}
    (hy : y ∈ place k v f l) : y.1 = k ∨ y ∈ l := by
  induction l with
  | nil => exact .inl (by simpa [place] using congrArg Prod.fst (List.mem_singleton.mp hy))
  | cons x l ih =>
    rw [place] at hy
    split_ifs at hy
    · rcases List.mem_cons.mp hy with rfl | hy
      · exact .inl rfl
      · exact .inr hy
    · rcases List.mem_cons.mp hy with rfl | hy
      · exact .inl rfl
      · exact .inr (List.mem_cons_of_mem _ hy)
    · rcases List.mem_cons.mp hy with rfl | hy
      · exact .inr List.mem_cons_self
      · exact (ih hy).imp_right (List.mem_cons_of_mem _)

theorem sorted_place {l : List (κ × τ)} (h : l.Pairwise fun x y => x.1 < y.1) (k : κ) (v : τ)
    (f : τ → τ) : (place k v f l).Pairwise fun x y => x.1 < y.1 := by
  induction l with
  | nil => exact List.pairwise_singleton _ _
  | cons x l ih =>
    obtain ⟨hx, hl⟩ := List.pairwise_cons.mp h
    rw [place]
    split_ifs with hlt heq
    · exact List.pairwise_cons.mpr ⟨List.forall_mem_cons.mpr ⟨hlt, fun y hy => hlt.trans (hx y hy)⟩, h⟩
    · exact List.pairwise_cons.mpr ⟨heq ▸ hx, hl⟩
    · refine List.pairwise_cons.mpr ⟨fun y hy => ?_, ih hl⟩
      rcases mem_place hy with rfl | hy
      · exact lt_of_le_of_ne (not_lt.mp hlt) heq
      · exact hx y hy

def empty : StdMap κ τ := ⟨[], List.Pairwise.nil⟩

def find (m : StdMap κ τ) (k : κ) : Option τ := lookup k m.pairs

def insert (m : StdMap κ τ) (k : κ) (v : τ) : StdMap κ τ :=
  ⟨place k v id m.pairs, sorted_place m.sorted k v id⟩

def assign (m : StdMap κ τ) (k : κ) (v : τ) : StdMap κ τ :=
  ⟨place k v (fun _ => v) m.pairs, sorted_place m.sorted k v _⟩

def erase (m : StdMap κ τ) (k : κ) : StdMap κ τ :=
  ⟨m.pairs.filter fun x => x.1 ≠ k, m.sorted.filter _⟩

/-- The first pair. -/
def begin (m : StdMap κ τ) : Option (κ × τ) := m.pairs.head?

/-- The first key behind `k`. -/
def next (m : StdMap κ τ) (k : κ) : Option κ := (m.pairs.find? fun x => k < x.1).map (·.1)

theorem lookup_eq_none {l : List (κ × τ)} {k : κ} (h : ∀ x ∈ l, k < x.1) : lookup k l = none := by
  induction l with
  | nil => rfl
  | cons x l ih =>
    obtain ⟨hx, hl⟩ := List.forall_mem_cons.mp h
    rw [lookup, if_neg hx.ne', ih hl]

theorem lookup_place {l : List (κ × τ)} (h : l.Pairwise fun x y => x.1 < y.1) (k k' : κ) (v : τ)
    (f : τ → τ) : lookup k' (place k v f l) =
      if k' = k then some (((lookup k l).map f).getD v) else lookup k' l := by
  induction l with
  | nil => simp [place, lookup, eq_comm]
  | cons x l ih =>
    obtain ⟨hx, hl⟩ := List.pairwise_cons.mp h
    rw [place]
    by_cases hlt : k < x.1
    · -- a key in front of all others is new
      have hn : lookup k (x :: l) = none :=
        lookup_eq_none (List.forall_mem_cons.mpr ⟨hlt, fun y hy => hlt.trans (hx y hy)⟩)
      rw [if_pos hlt, lookup, hn]
      simp [eq_comm]
    · rw [if_neg hlt]
      by_cases heq : x.1 = k
      · rw [if_pos heq, lookup, lookup, lookup, if_pos heq, heq]
        by_cases hk : k = k'
        · simp [hk]
        · simp [hk, Ne.symm hk]
      · rw [if_neg heq, lookup, ih hl, lookup, lookup, if_neg heq]
        by_cases hk : k' = k
        · simp [hk, heq]
        · simp [hk]

theorem lookup_filter (l : List (κ × τ)) (k k' : κ) :
    lookup k' (l.filter fun x => x.1 ≠ k) = if k' = k then none else lookup k' l := by
  induction l with
  | nil => simp [lookup]
  | cons x l ih =>
    rw [List.filter_cons]
    by_cases hx : x.1 = k
    · rw [if_neg (by simpa using hx), ih, lookup]
      by_cases hk : k' = k
      · simp [hk]
      · simp [hk, hx, Ne.symm hk]
    · rw [if_pos (by simpa using hx), lookup, ih, lookup]
      by_cases hk : k' = k
      · simp [hk, hx]
      · simp [hk]

variable (m : StdMap κ τ) (k k' : κ) (v : τ)

@[simp] theorem find_empty : find (empty : StdMap κ τ) k = none := rfl

theorem find_insert : (m.insert k v).find k' =
    if k' = k then some ((m.find k).getD v) else m.find k' := by
  rw [find, insert, lookup_place m.sorted, Option.map_id, id, find, find]

theorem find_insert_eq_some {w : τ} : (m.insert k v).find k' = some w ↔
    m.find k' = some w ∨ (m.find k = none ∧ k' = k ∧ w = v) := by
  rw [find_insert]
  split_ifs with h
  · subst h
    cases m.find k' <;> simp [eq_comm]
  · simp [h]

/-- A key that is inserted has the value behind if it had no other one before. -/
theorem find_insert_self_iff : (m.insert k v).find k = some v ↔ ∀ w ∈ m.find k, w = v := by
  rw [find_insert, if_pos rfl]
  cases m.find k <;> simp

theorem find_assign : (m.assign k v).find k' = if k' = k then some v else m.find k' := by
  rw [find, assign, lookup_place m.sorted, find]
  cases lookup k m.pairs <;> rfl

theorem find_erase : (m.erase k).find k' = if k' = k then none else m.find k' :=
  lookup_filter m.pairs k k'

variable {m k k' v}

theorem mem_pairs_of_find (h : m.find k = some v) : (k, v) ∈ m.pairs := by
  obtain ⟨l, hl⟩ := m
  induction l with
  | nil => simp [find, lookup] at h
  | cons x l ih =>
    rw [find, lookup] at h
    split_ifs at h with hx
    · rw [← hx, ← Option.some.inj h]
      exact List.mem_cons_self
    · exact List.mem_cons_of_mem _ (ih (List.pairwise_cons.mp hl).2 h)

theorem find_of_mem_pairs (h : (k, v) ∈ m.pairs) : m.find k = some v := by
  obtain ⟨l, hl⟩ := m
  induction l with
  | nil => simp at h
  | cons x l ih =>
    obtain ⟨hx, hl⟩ := List.pairwise_cons.mp hl
    rw [find, lookup]
    rcases List.mem_cons.mp h with rfl | h
    · exact if_pos rfl
    · rw [if_neg (hx _ h).ne]
      exact ih hl h

theorem mem_pairs_iff : (k, v) ∈ m.pairs ↔ m.find k = some v :=
  ⟨find_of_mem_pairs, mem_pairs_of_find⟩

/-- A map is what it finds. -/
theorem ext_find {m m' : StdMap κ τ} (h : ∀ k, m.find k = m'.find k) : m = m' := by
  have hpairs : m.pairs = m'.pairs :=
    List.Pairwise.eq_of_mem_iff m.sorted m'.sorted fun x => by
      rw [← Prod.mk.eta (p := x), mem_pairs_iff, mem_pairs_iff, h]
  cases m
  cases m'
  cases hpairs
  rfl

theorem assign_assign (m : StdMap κ τ) (k : κ) (v w : τ) :
    (m.assign k v).assign k w = m.assign k w := by
  refine ext_find fun k' => ?_
  rw [find_assign, find_assign, find_assign]
  split_ifs <;> rfl

theorem assign_comm (m : StdMap κ τ) {k k' : κ} (h : k ≠ k') (v w : τ) :
    (m.assign k v).assign k' w = (m.assign k' w).assign k v := by
  refine ext_find fun i => ?_
  rw [find_assign, find_assign, find_assign, find_assign]
  by_cases hk : i = k
  · subst hk
    simp [h]
  · simp [hk]

/-- A key that is there is not inserted again. -/
theorem insert_of_isSome (h : (m.find k).isSome) (v : τ) : m.insert k v = m := by
  obtain ⟨w, hw⟩ := Option.isSome_iff_exists.mp h
  refine ext_find fun k' => ?_
  rw [find_insert]
  split_ifs with hk
  · rw [hk, hw]
    rfl
  · rfl

/-- The first pair is found under its key. -/
theorem find_begin (h : m.begin = some (k, v)) : m.find k = some v :=
  find_of_mem_pairs (List.mem_of_head? h)

/-- The iterator moves on to a key of the map. -/
theorem find_next (h : m.next k = some k') : k < k' ∧ (m.find k').isSome := by
  obtain ⟨x, hx, rfl⟩ := Option.map_eq_some_iff.mp h
  exact ⟨by simpa using List.find?_some hx,
    Option.isSome_iff_exists.mpr ⟨x.2, find_of_mem_pairs (List.mem_of_find?_eq_some hx)⟩⟩

/-- No key is between a key and the one the iterator moves on to. -/
theorem next_le (hv : m.find k' = some v) (h : k < k') : ∃ j, m.next k = some j ∧ j ≤ k' := by
  have hmem := mem_pairs_of_find hv
  have hsorted := m.sorted
  unfold next
  generalize m.pairs = l at hmem hsorted
  induction l with
  | nil => cases hmem
  | cons x l ih =>
    obtain ⟨hx, hl⟩ := List.pairwise_cons.mp hsorted
    rw [List.find?_cons]
    by_cases hlt : k < x.1
    · refine ⟨x.1, by simp [hlt], ?_⟩
      rcases List.mem_cons.mp hmem with rfl | hmem
      · exact le_rfl
      · exact (hx _ hmem).le
    · rcases List.mem_cons.mp hmem with rfl | hmem
      · exact absurd h hlt
      · simpa [hlt] using ih hmem hl

/-- One pair has the key of a value that is found. -/
theorem countP_key (h : m.find k = some v) (p : τ → Bool) :
    m.pairs.countP (fun x => x.1 = k && p x.2) = if p v then 1 else 0 := by
  obtain ⟨l, hl⟩ := m
  induction l with
  | nil => cases h
  | cons x l ih =>
    obtain ⟨hx, hl⟩ := List.pairwise_cons.mp hl
    rw [find, lookup] at h
    rw [List.countP_cons]
    split_ifs at h with hk
    · -- the keys behind are greater
      have hrest : l.countP (fun x => x.1 = k && p x.2) = 0 :=
        List.countP_eq_zero.mpr fun y hy => by simp [hk ▸ (hx y hy).ne']
      obtain rfl := Option.some.inj h
      simp [hrest, hk]
    · rw [ih hl h]
      simp [hk]

theorem eq_empty (h : m.pairs = []) : m = .empty := by
  cases m
  cases h
  rfl

/-- The first key is in front of all others. -/
theorem begin_le (hv : m.find k = some v) : ∃ x, m.begin = some x ∧ x.1 ≤ k := by
  have hmem := mem_pairs_of_find hv
  have hsorted := m.sorted
  unfold begin
  cases hl : m.pairs with
  | nil => simp [hl] at hmem
  | cons x l =>
    rw [hl] at hmem hsorted
    refine ⟨x, rfl, ?_⟩
    rcases List.mem_cons.mp hmem with rfl | hmem
    · exact le_rfl
    · exact ((List.pairwise_cons.mp hsorted).1 _ hmem).le

/-- A map with one key has one pair at most. -/
theorem length_le_one (h : ∀ k', m.find k' ≠ none → k' = k) : m.pairs.length ≤ 1 := by
  have hkey : ∀ x ∈ m.pairs, x.1 = k := fun x hx => h x.1 (by simp [find_of_mem_pairs hx])
  have hsorted := m.sorted
  match hm : m.pairs with
  | [] => simp
  | [x] => simp
  | x :: y :: l =>
    rw [hm] at hkey hsorted
    have hlt := (List.pairwise_cons.mp hsorted).1 y List.mem_cons_self
    rw [hkey x List.mem_cons_self, hkey y (by simp)] at hlt
    exact absurd hlt (lt_irrefl k)

/-- A map without its first pair is another one. -/
theorem erase_begin_ne (h : m.begin = some (k, v)) : m.erase k ≠ m := by
  intro he
  have hk := find_erase m k k
  rw [he, find_begin h, if_pos rfl] at hk
  cases hk

end StdMap

end KkLicode.Base
