import Mathlib.Data.List.Basic
import Mathlib.Data.Set.Insert

/-! Selective repeat over a network that loses, repeats and reorders messages. The
sender gives its items the numbers 0, 1, 2, … and keeps each one until it learns
that the receiver has it. The receiver takes the items in order and keeps the early
ones in a window. It tells how many it has taken, and acknowledges single items.
All is said with natural numbers; what arrives late is bounded by a delay, the
count of items that get a number while a message is on its way. -/

namespace KkLicode.Base.SelectiveRepeat

structure Transfer (α : Type*) where
  /-- The items that have a number, in order. -/
  sent : List α
  /-- The items that the sender keeps, each with its number. -/
  held : Set (ℕ × α)
  /-- How many items the receiver has taken in order. -/
  taken : ℕ
  /-- The items that are at the receiver ahead of their turn. -/
  early : Set (ℕ × α)
  /-- How many items the receiver had taken when it last spoke. -/
  told : ℕ

namespace Transfer

variable {α : Type*} {t : Transfer α} {span wnd delay n u stamp : ℕ} {a : α}

/-- The receiver has the item of a number. -/
def Arrived (t : Transfer α) (n : ℕ) : Prop := n < t.taken ∨ ∃ a, (n, a) ∈ t.early

/-- The numbers that the sender keeps reach back by at most `span`, the early ones of the receiver
lie in a window, and what the sender does not keep any more has arrived. -/
structure Inv (span wnd : ℕ) (t : Transfer α) : Prop where
  held : ∀ p ∈ t.held, t.sent[p.1]? = some p.2 ∧ t.sent.length ≤ p.1 + span
  early : ∀ p ∈ t.early, t.sent[p.1]? = some p.2 ∧ t.taken ≤ p.1 ∧ p.1 < t.taken + wnd
  taken : t.taken ≤ t.sent.length
  told : t.told ≤ t.taken
  kept : ∀ n < t.sent.length, (∀ a, (n, a) ∉ t.held) → t.Arrived n ∧ n < t.told + wnd

theorem inv_empty : Inv span wnd (⟨[], ∅, 0, ∅, 0⟩ : Transfer α) where
  held _ hp := hp.elim
  early _ hp := hp.elim
  taken := Nat.le_refl _
  told := Nat.le_refl _
  kept _ hn := (Nat.not_lt_zero _ hn).elim

theorem Inv.arrived_lt (h : t.Inv span wnd) (hn : t.Arrived n) : n < t.sent.length ∧ n < t.taken + wnd := by
  rcases hn with hn | ⟨a, ha⟩
  · exact ⟨Nat.lt_of_lt_of_le hn h.taken, Nat.lt_of_lt_of_le hn (Nat.le_add_right _ _)⟩
  · obtain ⟨hsent, -, hlt⟩ := h.early _ ha
    exact ⟨(List.getElem?_eq_some_iff.mp hsent).1, hlt⟩

/-- The sender is never farther ahead of what it was told than the two windows. -/
theorem Inv.length_le (h : t.Inv span wnd) : t.sent.length ≤ t.told + wnd + span := by
  by_contra hfar
  have hheld : ∀ a, (t.told + wnd, a) ∉ t.held := fun a ha => by
    have hspan : t.sent.length ≤ t.told + wnd + span := (h.held _ ha).2
    omega
  have := (h.kept (t.told + wnd) (by omega) hheld).2
  omega

/-! ### Steps of the sender -/

/-- The next item gets its number. -/
def number (t : Transfer α) (a : α) : Transfer α :=
  { t with sent := t.sent ++ [a], held := insert (t.sent.length, a) t.held }

theorem Inv.number (h : t.Inv span wnd) (hspan : 0 < span)
    (hroom : ∀ p ∈ t.held, t.sent.length < p.1 + span) (a : α) : (t.number a).Inv span wnd := by
  have hlen : (t.number a).sent.length = t.sent.length + 1 := List.length_append
  have hget : ∀ p : ℕ × α, t.sent[p.1]? = some p.2 → (t.number a).sent[p.1]? = some p.2 := fun p hp => by
    rw [Transfer.number, List.getElem?_append_left (List.getElem?_eq_some_iff.mp hp).1, hp]
  constructor
  · intro p hp
    rcases hp with rfl | hp
    · exact ⟨List.getElem?_concat_length, by omega⟩
    · have := hroom p hp
      exact ⟨hget p (h.held p hp).1, by omega⟩
  · exact fun p hp => ⟨hget p (h.early p hp).1, (h.early p hp).2⟩
  · have := h.taken
    show t.taken ≤ _
    omega
  · exact h.told
  · intro n hn hheld
    have hne : n ≠ t.sent.length := fun heq => hheld a (.inl (by rw [heq]))
    exact h.kept n (by omega) fun b hb => hheld b (.inr hb)

/-- The sender forgets items. -/
def release (t : Transfer α) (held : Set (ℕ × α)) : Transfer α := { t with held := held }

theorem Inv.release (h : t.Inv span wnd) {held : Set (ℕ × α)} (hsub : held ⊆ t.held)
    (hgone : ∀ p ∈ t.held, p ∉ held → t.Arrived p.1 ∧ p.1 < t.told + wnd) :
    (t.release held).Inv span wnd where
  held p hp := h.held p (hsub hp)
  early := h.early
  taken := h.taken
  told := h.told
  kept n hn hheld := by
    by_cases hold : ∃ a, (n, a) ∈ t.held
    · obtain ⟨a, ha⟩ := hold
      exact hgone _ ha (hheld a)
    · exact h.kept n hn (not_exists.mp hold)

/-! ### Steps of the receiver -/

/-- An item arrives ahead of its turn. -/
def put (t : Transfer α) (n : ℕ) (a : α) : Transfer α := { t with early := insert (n, a) t.early }

theorem Arrived.put (h : t.Arrived u) (n : ℕ) (a : α) : (t.put n a).Arrived u :=
  h.imp_right fun ⟨b, hb⟩ => ⟨b, .inr hb⟩

theorem Inv.put (h : t.Inv span wnd) (hsent : t.sent[n]? = some a) (hle : t.taken ≤ n)
    (hlt : n < t.taken + wnd) : (t.put n a).Inv span wnd where
  held := h.held
  early p hp := by
    rcases hp with rfl | hp
    · exact ⟨hsent, hle, hlt⟩
    · exact h.early p hp
  taken := h.taken
  told := h.told
  kept n hn hheld := (h.kept n hn hheld).imp_left fun harr => harr.put _ _

/-- The next item is taken. -/
def take (t : Transfer α) (a : α) : Transfer α :=
  { t with taken := t.taken + 1, early := t.early \ {(t.taken, a)} }

theorem Arrived.take (h : t.Arrived n) (a : α) : (t.take a).Arrived n := by
  rcases h with h | ⟨b, hb⟩
  · exact .inl (Nat.lt_succ_of_lt h)
  · by_cases heq : n = t.taken
    · exact .inl (heq ▸ Nat.lt_succ_self _)
    · exact .inr ⟨b, hb, fun h => heq (congrArg Prod.fst h)⟩

theorem Inv.take (h : t.Inv span wnd) (ha : (t.taken, a) ∈ t.early) : (t.take a).Inv span wnd := by
  have hnext : t.sent[t.taken]? = some a := (h.early _ ha).1
  constructor
  · exact h.held
  · intro p hp
    obtain ⟨hsent, hle, hlt⟩ := h.early p hp.1
    have hne : p.1 ≠ t.taken := fun heq => hp.2 (by
      have hval := hsent
      rw [heq, hnext] at hval
      exact Prod.ext heq (Option.some.inj hval).symm)
    exact ⟨hsent, Nat.lt_of_le_of_ne hle hne.symm, by show p.1 < t.taken + 1 + wnd; omega⟩
  · exact (List.getElem?_eq_some_iff.mp hnext).1
  · exact Nat.le_succ_of_le h.told
  · exact fun n hn hheld => (h.kept n hn hheld).imp_left fun harr => harr.take a

/-- What is taken is the next item of what was sent. -/
theorem Inv.take_sent (h : t.Inv span wnd) (ha : (t.taken, a) ∈ t.early) :
    t.sent.take (t.taken + 1) = t.sent.take t.taken ++ [a] := by
  rw [List.take_add_one, (h.early _ ha).1]
  rfl

/-- The receiver tells how many items it has taken. -/
def tell (t : Transfer α) : Transfer α := { t with told := t.taken }

theorem Inv.tell (h : t.Inv span wnd) : t.tell.Inv span wnd where
  held := h.held
  early := h.early
  taken := h.taken
  told := Nat.le_refl _
  kept n hn hheld :=
    (h.kept n hn hheld).imp_right fun hlt => Nat.lt_of_lt_of_le hlt (Nat.add_le_add_right h.told _)

/-! ### Messages

What is on its way stays true: every step leads to a transfer that extends the last. -/

structure Extends (t t' : Transfer α) : Prop where
  sent : t.sent <+: t'.sent
  told : t.told ≤ t'.told
  taken : t.taken ≤ t'.taken
  arrived : ∀ n, t.Arrived n → t'.Arrived n

theorem Extends.refl (t : Transfer α) : t.Extends t := ⟨List.prefix_refl _, Nat.le_refl _, Nat.le_refl _, fun _ h => h⟩

theorem Extends.trans {t' t'' : Transfer α} (h : t.Extends t') (h' : t'.Extends t'') : t.Extends t'' :=
  ⟨h.sent.trans h'.sent, h.told.trans h'.told, h.taken.trans h'.taken, fun n hn => h'.arrived n (h.arrived n hn)⟩

theorem extends_number (a : α) : t.Extends (t.number a) :=
  ⟨List.prefix_append _ _, Nat.le_refl _, Nat.le_refl _, fun _ h => h⟩

theorem extends_release (held : Set (ℕ × α)) : t.Extends (t.release held) :=
  ⟨List.prefix_refl _, Nat.le_refl _, Nat.le_refl _, fun _ h => h⟩

theorem extends_put (n : ℕ) (a : α) : t.Extends (t.put n a) :=
  ⟨List.prefix_refl _, Nat.le_refl _, Nat.le_refl _, fun _ h => h.put n a⟩

theorem extends_take (a : α) : t.Extends (t.take a) :=
  ⟨List.prefix_refl _, Nat.le_refl _, Nat.le_succ _, fun _ h => h.take a⟩

theorem Inv.extends_tell (h : t.Inv span wnd) : t.Extends t.tell :=
  ⟨List.prefix_refl _, h.told, Nat.le_refl _, fun _ hn => hn⟩

/-- What the sender does leaves the receiver as it is. -/
structure BySender (span wnd : ℕ) (t t' : Transfer α) : Prop where
  mono : t.Extends t'
  inv : t'.Inv span wnd
  taken : t'.taken = t.taken
  early : t'.early = t.early
  told : t'.told = t.told

/-- What the receiver does leaves the sender as it is. -/
structure ByReceiver (span wnd : ℕ) (t t' : Transfer α) : Prop where
  mono : t.Extends t'
  inv : t'.Inv span wnd
  sent : t'.sent = t.sent
  held : t'.held = t.held

theorem BySender.refl (h : t.Inv span wnd) : t.BySender span wnd t := ⟨.refl t, h, rfl, rfl, rfl⟩

theorem BySender.trans {t' t'' : Transfer α} (h : t.BySender span wnd t') (h' : t'.BySender span wnd t'') :
    t.BySender span wnd t'' :=
  ⟨h.mono.trans h'.mono, h'.inv, h'.taken.trans h.taken, h'.early.trans h.early, h'.told.trans h.told⟩

theorem ByReceiver.refl (h : t.Inv span wnd) : t.ByReceiver span wnd t := ⟨.refl t, h, rfl, rfl⟩

theorem ByReceiver.trans {t' t'' : Transfer α} (h : t.ByReceiver span wnd t')
    (h' : t'.ByReceiver span wnd t'') : t.ByReceiver span wnd t'' :=
  ⟨h.mono.trans h'.mono, h'.inv, h'.sent.trans h.sent, h'.held.trans h.held⟩

theorem BySender.number (h : (t.number a).Inv span wnd) : t.BySender span wnd (t.number a) :=
  ⟨extends_number a, h, rfl, rfl, rfl⟩

theorem BySender.release {held : Set (ℕ × α)} (h : (t.release held).Inv span wnd) :
    t.BySender span wnd (t.release held) := ⟨extends_release held, h, rfl, rfl, rfl⟩

theorem ByReceiver.put (h : (t.put n a).Inv span wnd) : t.ByReceiver span wnd (t.put n a) :=
  ⟨extends_put n a, h, rfl, rfl⟩

theorem ByReceiver.take (h : (t.take a).Inv span wnd) : t.ByReceiver span wnd (t.take a) :=
  ⟨extends_take a, h, rfl, rfl⟩

theorem ByReceiver.tell (h : t.Inv span wnd) : t.ByReceiver span wnd t.tell :=
  ⟨h.extends_tell, h.tell, rfl, rfl⟩

/-- What the receiver has taken does not change when the sender goes on. -/
theorem BySender.take_sent {t' : Transfer α} (h : t.BySender span wnd t') (ht : t.Inv span wnd) :
    t'.sent.take t'.taken = t.sent.take t.taken := by
  obtain ⟨rest, hrest⟩ := h.mono.sent
  rw [h.taken, ← hrest, List.take_append_of_le_length ht.taken]

/-- An item that the sender sent when it had given `stamp` numbers. -/
structure Data (span : ℕ) (t : Transfer α) (stamp n : ℕ) (a : α) : Prop where
  item : t.sent[n]? = some a
  reach : stamp ≤ n + span
  lt : n < stamp

/-- What the receiver told when the sender had given `stamp` numbers. -/
structure Una (span wnd : ℕ) (t : Transfer α) (stamp u : ℕ) : Prop where
  told : u ≤ t.told
  reach : stamp ≤ u + wnd + span

/-- An acknowledgement of one item that waits until the receiver speaks. -/
structure Pending (span delay : ℕ) (t : Transfer α) (n : ℕ) : Prop where
  arrived : t.Arrived n
  told : t.told ≤ n + span + delay

/-- An acknowledgement of one item that was sent when the sender had given `stamp` numbers. -/
structure Ack (span wnd delay : ℕ) (t : Transfer α) (stamp n : ℕ) : Prop where
  arrived : t.Arrived n
  told : n < t.told + wnd
  reach : stamp ≤ n + span + delay + wnd + span

section Stays

variable {t' : Transfer α} (h : t.Extends t')

include h

theorem Data.mono (hd : t.Data span stamp n a) : t'.Data span stamp n a where
  item := by
    obtain ⟨rest, hrest⟩ := h.sent
    rw [← hrest, List.getElem?_append_left (List.getElem?_eq_some_iff.mp hd.item).1, hd.item]
  reach := hd.reach
  lt := hd.lt

theorem Una.mono (hu : t.Una span wnd stamp u) : t'.Una span wnd stamp u :=
  ⟨hu.told.trans h.told, hu.reach⟩

theorem Ack.mono (ha : t.Ack span wnd delay stamp n) : t'.Ack span wnd delay stamp n :=
  ⟨h.arrived n ha.arrived, Nat.lt_of_lt_of_le ha.told (Nat.add_le_add_right h.told _), ha.reach⟩

/-- An acknowledgement waits as long as the receiver does not speak. -/
theorem Pending.mono (hp : t.Pending span delay n) (htold : t'.told = t.told) : t'.Pending span delay n :=
  ⟨h.arrived n hp.arrived, htold ▸ hp.told⟩

end Stays

/-- An item that the sender keeps may be sent. -/
theorem Inv.data (h : t.Inv span wnd) (ha : (n, a) ∈ t.held) : t.Data span t.sent.length n a :=
  ⟨(h.held _ ha).1, (h.held _ ha).2, (List.getElem?_eq_some_iff.mp (h.held _ ha).1).1⟩

theorem Inv.una (h : t.Inv span wnd) : t.tell.Una span wnd t.sent.length t.taken :=
  ⟨Nat.le_refl _, h.length_le.trans (Nat.add_le_add_right (Nat.add_le_add_right h.told _) _)⟩

/-- When the receiver speaks, the acknowledgements that wait are sent. -/
theorem Inv.ack (h : t.Inv span wnd) (hp : t.Pending span delay n) :
    t.tell.Ack span wnd delay t.sent.length n := by
  have := h.length_le
  have := hp.told
  exact ⟨hp.arrived, (h.arrived_lt hp.arrived).2, by omega⟩

/-! ### Delivery

A message is delivered while at most `delay` numbers were given since it was sent. -/

/-- Where an item lies that is delivered in time. -/
theorem Inv.data_near (h : t.Inv span wnd) (hd : t.Data span stamp n a)
    (hfresh : t.sent.length ≤ stamp + delay) :
    t.taken ≤ n + span + delay ∧ n < t.taken + wnd + span := by
  have hlen := h.length_le
  have htaken := h.taken
  have htold := h.told
  have hstamp := hd.reach
  have hn := (List.getElem?_eq_some_iff.mp hd.item).1
  omega

/-- An item that was delivered in time and has arrived may be acknowledged. -/
theorem Inv.pending (h : t.Inv span wnd) (hd : t.Data span stamp n a)
    (hfresh : t.sent.length ≤ stamp + delay) (harr : t.Arrived n) : t.Pending span delay n :=
  ⟨harr, h.told.trans (h.data_near hd hfresh).1⟩

theorem Inv.una_near (h : t.Inv span wnd) (hu : t.Una span wnd stamp u)
    (hfresh : t.sent.length ≤ stamp + delay) :
    u ≤ t.sent.length ∧ t.sent.length ≤ u + wnd + span + delay := by
  have htaken := h.taken
  have htold := h.told
  have hle := hu.told
  have hstamp := hu.reach
  omega

theorem Inv.ack_near (h : t.Inv span wnd) (ha : t.Ack span wnd delay stamp n)
    (hfresh : t.sent.length ≤ stamp + delay) :
    n < t.sent.length ∧ t.sent.length ≤ n + span + delay + wnd + span + delay := by
  have hstamp := ha.reach
  exact ⟨(h.arrived_lt ha.arrived).1, by omega⟩

/-- What was told releases what lies before. -/
theorem Inv.release_una (h : t.Inv span wnd) (hu : t.Una span wnd stamp u) {held : Set (ℕ × α)}
    (hsub : held ⊆ t.held) (hgone : ∀ p ∈ t.held, p ∉ held → p.1 < u) : (t.release held).Inv span wnd := by
  have htold := h.told
  have hle := hu.told
  refine h.release hsub fun p hp hnot => ⟨.inl ?_, ?_⟩
  · have := hgone p hp hnot
    omega
  · have := hgone p hp hnot
    omega

/-- The acknowledgement of an item releases it. -/
theorem Inv.release_ack (h : t.Inv span wnd) (ha : t.Ack span wnd delay stamp n) {held : Set (ℕ × α)}
    (hsub : held ⊆ t.held) (hgone : ∀ p ∈ t.held, p ∉ held → p.1 = n) : (t.release held).Inv span wnd :=
  h.release hsub fun p hp hnot => (hgone p hp hnot).symm ▸ ⟨ha.arrived, ha.told⟩

end Transfer

end KkLicode.Base.SelectiveRepeat
