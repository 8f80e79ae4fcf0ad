import Mathlib.Data.List.Chain
import Mathlib.Data.List.Infix
import KkLicode.Base.Runs

/-! Frames put together from the packets of a stream. A frame is a chain of packets
from one that begins a frame to one that ends it. The assembler collects the packets
of one frame at a time; it starts again with every packet that begins a frame and drops
what it has when a packet does not follow, or when it has too much. All it delivers are
frames of the stream, and a frame that it has room for is delivered. -/

namespace KkLicode.Base.Reassembly

open Runs

variable {α : Type*}

/-- How packets make up frames, and which starts of frames there is room for. -/
structure Framing (α : Type*) where
  begins : α → Bool
  ends : α → Bool
  follows : α → α → Bool
  fits : List α → Bool

namespace Framing

variable (f : Framing α)

/-- The next packet of a frame. -/
def Continues (a b : α) : Prop := f.follows a b ∧ ¬ f.ends a ∧ ¬ f.begins b

instance (a b : α) : Decidable (f.Continues a b) := inferInstanceAs (Decidable (_ ∧ _ ∧ _))

structure IsFrame (l : List α) : Prop where
  begins : ∃ a ∈ l.head?, f.begins a
  ends : ∃ a ∈ l.getLast?, f.ends a
  chain : l.IsChain f.Continues

instance (l : List α) : Decidable (f.IsFrame l) :=
  decidable_of_iff
    ((∃ a ∈ l.head?, f.begins a) ∧ (∃ a ∈ l.getLast?, f.ends a) ∧ l.IsChain f.Continues)
    ⟨fun h => ⟨h.1, h.2.1, h.2.2⟩, fun h => ⟨h.begins, h.ends, h.chain⟩⟩

/-- The start of a frame, without its end. -/
structure IsOpen (l : List α) : Prop where
  begins : ∃ a ∈ l.head?, f.begins a
  ends : ∀ a ∈ l.getLast?, ¬ f.ends a
  chain : l.IsChain f.Continues

/-- What is collected with one more packet. -/
def extend (c : List α) (a : α) : List α :=
  if f.begins a then [a]
  else match c.getLast? with
    | none => []
    | some b => if f.follows b a then c ++ [a] else []

/-- What is collected then, and the frame that is delivered. -/
def step (c : List α) (a : α) : List α × List (List α) :=
  if f.extend c a = [] ∨ ¬ f.fits (f.extend c a) then ([], [])
  else if f.ends a then ([], [f.extend c a])
  else (f.extend c a, [])

/-- The frames delivered for the packets. -/
def delivered : List α → List α → List (List α) := collect f.step fun c a => (f.step c a).2

variable {f} {c l : List α} {a : α}

theorem extend_cases (f : Framing α) (c : List α) (a : α) :
    (f.begins a = true ∧ f.extend c a = [a]) ∨
      (f.begins a = false ∧ f.extend c a = []) ∨
      ∃ b ∈ c.getLast?, f.begins a = false ∧ f.follows b a = true ∧ f.extend c a = c ++ [a] := by
  unfold extend
  cases hb : f.begins a with
  | true => exact .inl ⟨rfl, rfl⟩
  | false =>
    cases hc : c.getLast? with
    | none => exact .inr (.inl ⟨rfl, rfl⟩)
    | some b =>
      cases hf : f.follows b a with
      | true => exact .inr (.inr ⟨b, rfl, rfl, hf, if_pos hf⟩)
      | false => exact .inr (.inl ⟨rfl, if_neg (ne_true_of_eq_false hf)⟩)

/-- What is collected is nothing or the start of a frame. -/
def Collected (f : Framing α) (c l : List α) : Prop := c = [] ∨ f.IsOpen c ∧ c <:+ l

/-- One more packet goes on with the frame or begins one. -/
theorem extend_isChain (h : f.Collected c l) (hne : f.extend c a ≠ []) :
    (∃ b ∈ (f.extend c a).head?, f.begins b) ∧ (f.extend c a).getLast? = some a ∧
      (f.extend c a).IsChain f.Continues ∧ f.extend c a <:+ l ++ [a] := by
  rcases extend_cases f c a with ⟨hb, heq⟩ | ⟨-, heq⟩ | ⟨b, hlast, hb, hf, heq⟩
  · rw [heq]
    exact ⟨⟨a, rfl, hb⟩, rfl, List.isChain_singleton a, List.suffix_append l [a]⟩
  · exact absurd heq hne
  · obtain rfl | ⟨hopen, t, rfl⟩ := h
    · cases hlast
    · rw [heq]
      obtain ⟨x, hx, hbegins⟩ := hopen.begins
      refine ⟨⟨x, ?_, hbegins⟩, List.getLast?_concat, ?_, ?_⟩
      · rw [List.head?_append, hx]
        rfl
      · refine List.isChain_append.mpr ⟨hopen.chain, List.isChain_singleton a, ?_⟩
        rintro y hy z ⟨⟩
        obtain rfl := Option.some.inj (hlast.symm.trans hy)
        exact ⟨hf, hopen.ends b hlast, by rw [hb]; exact Bool.false_ne_true⟩
      · exact ⟨t, (List.append_assoc t c [a]).symm⟩

theorem step_collected (h : f.Collected c l) : f.Collected (f.step c a).1 (l ++ [a]) := by
  rw [step]
  split_ifs with hdrop hends
  · exact .inl rfl
  · exact .inl rfl
  · obtain ⟨hb, hlast, hchain, hsuf⟩ := extend_isChain h (not_or.mp hdrop).1
    refine .inr ⟨⟨hb, fun x hx => ?_, hchain⟩, hsuf⟩
    obtain rfl := Option.some.inj (hlast.symm.trans hx)
    exact hends

theorem step_delivered (h : f.Collected c l) {d : List α} (hd : d ∈ (f.step c a).2) :
    f.IsFrame d ∧ d <:+ l ++ [a] := by
  rw [step] at hd
  split_ifs at hd with hdrop hends
  · cases hd
  · obtain ⟨hb, hlast, hchain, hsuf⟩ := extend_isChain h (not_or.mp hdrop).1
    rw [List.mem_singleton.mp hd]
    exact ⟨⟨hb, ⟨a, hlast, hends⟩, hchain⟩, hsuf⟩
  · cases hd

/-- All that is delivered are frames of the stream. -/
theorem isFrame_of_mem_delivered (h : f.Collected c l) {m d : List α}
    (hd : d ∈ f.delivered c m) : f.IsFrame d ∧ d <:+: l ++ m := by
  induction m generalizing c l with
  | nil => cases hd
  | cons a m ih =>
    rcases List.mem_append.mp hd with hd | hd
    · obtain ⟨hframe, hsuf⟩ := step_delivered h hd
      rw [List.append_cons]
      exact ⟨hframe, hsuf.isInfix.trans (List.prefix_append _ m).isInfix⟩
    · rw [List.append_cons]
      exact ih (step_collected h) hd

/-- A part of a frame before its end is the start of a frame. -/
theorem isOpen_of_append (hb : ∃ x ∈ (c ++ [a]).head?, f.begins x)
    (hchain : (c ++ [a]).IsChain f.Continues) (hne : c ≠ []) : f.IsOpen c := by
  obtain ⟨x, hx, hbegins⟩ := hb
  rw [List.head?_append_of_ne_nil c hne] at hx
  obtain ⟨hc, -, hlink⟩ := List.isChain_append.mp hchain
  exact ⟨⟨x, hx, hbegins⟩, fun y hy => (hlink y hy a rfl).2.1, hc⟩

/-- Whatever was collected before, a packet of a frame joins those before it. -/
theorem extend_append (hb : ∃ x ∈ (l ++ [a]).head?, f.begins x)
    (hchain : (l ++ [a]).IsChain f.Continues) (hc : l ≠ [] → c = l) :
    f.extend c a = l ++ [a] := by
  rcases List.eq_nil_or_concat l with rfl | ⟨l', b, rfl⟩
  · obtain ⟨x, ⟨⟩, hbegins⟩ := hb
    exact if_pos hbegins
  · rw [List.concat_eq_append] at hchain hc ⊢
    obtain rfl := hc (by simp)
    obtain ⟨-, -, hlink⟩ := List.isChain_append.mp hchain
    obtain ⟨hf, -, hnot⟩ := hlink b List.getLast?_concat a rfl
    rw [extend, if_neg hnot, List.getLast?_concat]
    exact if_pos hf

/-- The assembler collects the start of a frame. -/
theorem final_isOpen (h : f.IsOpen l) (hfits : ∀ m, m <+: l → f.fits m) (c : List α) :
    final f.step c l = l := by
  induction l using List.reverseRecOn with
  | nil => exact absurd h.begins (by simp)
  | append_singleton l a ih =>
    have hprev : l ≠ [] → final f.step c l = l := fun hne =>
      ih (isOpen_of_append h.begins h.chain hne) fun m hm => hfits m (hm.trans (List.prefix_append ..))
    have hext : f.extend (final f.step c l) a = l ++ [a] := extend_append h.begins h.chain hprev
    have hroom : ¬ (l ++ [a] = [] ∨ ¬ f.fits (l ++ [a])) := by
      simp [hfits _ (List.prefix_refl _)]
    rw [final_append, final_cons, final_nil, step, hext, if_neg hroom,
      if_neg (h.ends a List.getLast?_concat)]

/-- A frame that there is room for is delivered. -/
theorem mem_delivered_of_isFrame (h : f.IsFrame l) (hfits : ∀ m, m <+: l → f.fits m)
    (c : List α) : l ∈ f.delivered c l := by
  rcases List.eq_nil_or_concat l with rfl | ⟨l, a, rfl⟩
  · exact absurd h.begins (by simp)
  · rw [List.concat_eq_append] at *
    have hprev : l ≠ [] → final f.step c l = l := fun hne =>
      final_isOpen (isOpen_of_append h.begins h.chain hne)
        (fun m hm => hfits m (hm.trans (List.prefix_append ..))) c
    have hext : f.extend (final f.step c l) a = l ++ [a] := extend_append h.begins h.chain hprev
    have hroom : ¬ (l ++ [a] = [] ∨ ¬ f.fits (l ++ [a])) := by
      simp [hfits _ (List.prefix_refl _)]
    obtain ⟨x, hx, hends⟩ := h.ends
    obtain rfl := Option.some.inj (List.getLast?_concat.symm.trans hx)
    rw [delivered, collect_append, collect_cons, collect_nil, step, hext, if_neg hroom, if_pos hends]
    exact List.mem_append_right _ (List.mem_singleton_self _)

end Framing

end KkLicode.Base.Reassembly
