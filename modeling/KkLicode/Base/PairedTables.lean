import Mathlib.Data.List.Infix
import Mathlib.Logic.Function.Basic

/-! Two tables of the same entries. An entry is written into the slot of its first
key in one table and into the slot of its second key in the other, and may be
overwritten in one of them only. The tables agree on the entries that matter as
long as such an entry loses both slots together. -/

namespace KkLicode.Base.PairedTables

variable {ε ι : Type*} [DecidableEq ι]

section Entering
variable (key : ε → ι)

/-- The entry is found in its slot. -/
def Stands (table : ι → ε) (e : ε) : Prop := table (key e) = e

/-- One of the entries takes the slot of `e`. -/
def Takes (l : List ε) (e : ε) : Prop := ∃ x ∈ l, key x = key e

/-- Write the entries in this order. -/
def enter (table : ι → ε) : List ε → ι → ε
  | [] => table
  | e :: l => enter (Function.update table (key e) e) l

instance [DecidableEq ε] (table : ι → ε) (e : ε) : Decidable (Stands key table e) :=
  inferInstanceAs (Decidable (_ = _))

instance (l : List ε) (e : ε) : Decidable (Takes key l e) :=
  inferInstanceAs (Decidable (∃ x ∈ l, key x = key e))

instance decidableForallSuffix (P : ε → List ε → Prop) [∀ e post, Decidable (P e post)] :
    (l : List ε) → Decidable (∀ e post, e :: post <:+ l → P e post)
  | [] => isTrue fun _ _ h => absurd (List.suffix_nil.mp h) (List.cons_ne_nil _ _)
  | x :: l =>
    have := decidableForallSuffix P l
    decidable_of_iff (P x l ∧ ∀ e post, e :: post <:+ l → P e post)
      ⟨fun h e post hp => by
        rcases List.suffix_cons_iff.mp hp with he | hp
        · obtain ⟨rfl, rfl⟩ := List.cons.inj he
          exact h.1
        · exact h.2 e post hp,
      fun h => ⟨h x l List.suffix_rfl, fun e post hp => h e post (hp.trans (List.suffix_cons x l))⟩⟩

variable {key}

theorem enter_append (table : ι → ε) (l m : List ε) :
    enter key table (l ++ m) = enter key (enter key table l) m := by
  induction l generalizing table with
  | nil => rfl
  | cons x l ih => exact ih _

theorem stands_update {table : ι → ε} {x e : ε} :
    Stands key (Function.update table (key x) x) e ↔
      x = e ∨ Stands key table e ∧ key x ≠ key e := by
  rw [Stands, Stands]
  by_cases h : key x = key e
  · rw [← h, Function.update_self]
    simp
  · rw [Function.update_of_ne (Ne.symm h)]
    have hne : x ≠ e := fun he => h (congrArg key he)
    simp [h, hne]

/-- What stands after a list is entered: its entries that no later one of the list takes the slot
of, and what stood before and is not taken. -/
theorem stands_enter {table : ι → ε} {l : List ε} {e : ε} :
    Stands key (enter key table l) e ↔
      (∃ post, e :: post <:+ l ∧ ¬Takes key post e) ∨ Stands key table e ∧ ¬Takes key l e := by
  induction l generalizing table with
  | nil => simp [enter, Takes]
  | cons x l ih =>
    have htakes : Takes key (x :: l) e ↔ key x = key e ∨ Takes key l e := by simp [Takes]
    rw [enter, ih, stands_update, htakes]
    constructor
    · rintro (⟨post, hp, hn⟩ | ⟨rfl | ⟨hs, hx⟩, hn⟩)
      · exact .inl ⟨post, hp.trans (List.suffix_cons x l), hn⟩
      · exact .inl ⟨l, List.suffix_rfl, hn⟩
      · exact .inr ⟨hs, by simp [hx, hn]⟩
    · rintro (⟨post, hp, hn⟩ | ⟨hs, hn⟩)
      · rcases List.suffix_cons_iff.mp hp with he | hp
        · obtain ⟨rfl, rfl⟩ := List.cons.inj he
          exact .inr ⟨.inl rfl, hn⟩
        · exact .inl ⟨post, hp, hn⟩
      · rw [not_or] at hn
        exact .inr ⟨.inr ⟨hs, hn.1⟩, hn.2⟩

end Entering

variable (a b : ε → ι) (A B : ι → ε) (found kept : ε → Prop)

/-- What is found through the second table stands in the first one, and what is kept by the first
one stands in the second one. -/
structure Agree : Prop where
  found : ∀ e, found e → Stands b B e → Stands a A e
  kept : ∀ e, kept e → Stands a A e → Stands b B e

/-- Of a list of entries, one that is to be found or kept loses its slots together. -/
def Together (l : List ε) : Prop :=
  ∀ e post, e :: post <:+ l → (found e → Takes a post e → Takes b post e) ∧
    (kept e → Takes b post e → Takes a post e)

instance [DecidablePred found] [DecidablePred kept] (l : List ε) :
    Decidable (Together a b found kept l) :=
  decidableForallSuffix (fun e post => (found e → Takes a post e → Takes b post e) ∧
    (kept e → Takes b post e → Takes a post e)) l

variable {a b A B found kept} {found' kept' : ε → Prop}

/-- Entries are written into both tables. An entry that was there before, and one that is written
ahead of others, has to lose its slots together. -/
theorem Agree.enter (h : Agree a b A B found kept) {l : List ε}
    (hfound : ∀ e, found' e → Stands b B e → ¬Takes b l e → found e ∧ ¬Takes a l e)
    (hkept : ∀ e, kept' e → Stands a A e → ¬Takes a l e → kept e ∧ ¬Takes b l e)
    (hnew : Together a b found' kept' l) :
    Agree a b (enter a A l) (enter b B l) found' kept' where
  found e he hs := by
    rcases stands_enter.mp hs with ⟨post, hp, hn⟩ | ⟨hs, hn⟩
    · exact stands_enter.mpr (.inl ⟨post, hp, mt ((hnew e post hp).1 he) hn⟩)
    · obtain ⟨hf, hna⟩ := hfound e he hs hn
      exact stands_enter.mpr (.inr ⟨h.found e hf hs, hna⟩)
  kept e he hs := by
    rcases stands_enter.mp hs with ⟨post, hp, hn⟩ | ⟨hs, hn⟩
    · exact stands_enter.mpr (.inl ⟨post, hp, mt ((hnew e post hp).2 he) hn⟩)
    · obtain ⟨hk, hnb⟩ := hkept e he hs hn
      exact stands_enter.mpr (.inr ⟨h.kept e hk hs, hnb⟩)

/-- An entry that stands in both tables is replaced in both by one with the same keys. -/
theorem Agree.replace (h : Agree a b A B found kept) {r r' : ε} (hr : Stands a A r)
    (hr' : Stands b B r) (ha : a r' = a r) (hb : b r' = b r) :
    Agree a b (Function.update A (a r') r') (Function.update B (b r') r') found kept where
  found e he hs := by
    rcases stands_update.mp hs with rfl | ⟨hs, hne⟩
    · exact stands_update.mpr (.inl rfl)
    · refine stands_update.mpr (.inr ⟨h.found e he hs, fun hae => hne ?_⟩)
      have hre : r = e := by
        rw [← show A (a r) = r from hr, ← ha, hae]
        exact h.found e he hs
      rw [hb, hre]
  kept e he hs := by
    rcases stands_update.mp hs with rfl | ⟨hs, hne⟩
    · exact stands_update.mpr (.inl rfl)
    · refine stands_update.mpr (.inr ⟨h.kept e he hs, fun hbe => hne ?_⟩)
      have hre : r = e := by
        rw [← show B (b r) = r from hr', ← hb, hbe]
        exact h.kept e he hs
      rw [ha, hre]

/-- An entry that is not to be found is written into the second table only. -/
theorem Agree.enter_second (h : Agree a b A B found kept) {x : ε} (hx : ¬found x)
    (hne : ∀ e, kept e → Stands a A e → b x ≠ b e) :
    Agree a b A (Function.update B (b x) x) found kept where
  found e he hs := by
    rcases stands_update.mp hs with rfl | ⟨hs, -⟩
    · exact absurd he hx
    · exact h.found e he hs
  kept e he hs := stands_update.mpr (.inr ⟨h.kept e he hs, hne e he hs⟩)

end KkLicode.Base.PairedTables
