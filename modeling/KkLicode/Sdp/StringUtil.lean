import Mathlib.Algebra.Group.Nat.Defs
import Mathlib.Data.List.Infix
import Mathlib.Data.List.TakeWhile
import Mathlib.Data.Nat.Notation

/-! The text functions the session descriptions are read with. A `std::string` is a
list of characters. `splitOneOf` splits at every character of a set, at most
`maxSplits` times where that is not 0; what is behind the last split is a piece
only if it is not empty. -/

namespace KkLicode.Sdp

/-- A `std::string`. -/
abbrev Text := List Char

/-- What `splitOneOf` pushes for `remaining` after `splits` splits. The characters of
`remaining` that are already known not to split it are in `piece`. -/
def splitFrom (delims : Text) (maxSplits : ℕ) : ℕ → Text → Text → List Text
  | _, piece, [] => if piece = [] then [] else [piece]
  | splits, piece, c :: remaining =>
    if (maxSplits = 0 ∨ splits < maxSplits) ∧ c ∈ delims then
      piece :: splitFrom delims maxSplits (splits + 1) [] remaining
    else splitFrom delims maxSplits splits (piece ++ [c]) remaining

def splitOneOf (str delims : Text) (maxSplits : ℕ) : List Text :=
  splitFrom delims maxSplits 0 [] str

/-- The lines that `std::getline` reads: an empty one at the end is none. -/
def getlines (str : Text) : List Text := splitOneOf str ['\n'] 0

/-- `std::string::find` finds it. -/
abbrev Text.Has (line marker : Text) : Prop := marker <:+: line

/-- The text up to the first zero character, which is what `c_str` shows. -/
def Text.cStr (s : Text) : Text := s.takeWhile (· ≠ '\x00')

/-- `pop_back`, which an empty text does not have. -/
def Text.popBack (s : Text) : Option Text := if s = [] then none else some s.dropLast

def isspace (c : Char) : Bool := c ∈ [' ', '\t', '\n', '\x0b', '\x0c', '\r']

/-- The sign and the digits at the front, if there is a digit. -/
def leadingNumber (s : Text) : Option (Bool × ℕ) :=
  let s := s.dropWhile isspace
  let digits := (if s.head? ∈ [some '-', some '+'] then s.tail else s).takeWhile Char.isDigit
  if digits = [] then none else some (s.head? = some '-', Nat.ofDigitChars 10 digits 0)

/-- A number as an `unsigned long`: with a minus sign it is taken modulo `2 ^ 64`. -/
def signed (number : Bool × ℕ) : UInt64 :=
  if number.1 then -UInt64.ofNat number.2 else UInt64.ofNat number.2

/-- `strtoul` in base 10: 0 without a digit and the largest number for one out of range. -/
def strtoul (s : Text) : UInt64 :=
  match leadingNumber s with
  | none => 0
  | some number => if number.2 < 2 ^ 64 then signed number else -1

/-- `std::stoul`, which throws where `strtoul` has no number to return. -/
def stoul (s : Text) : Option UInt64 :=
  (leadingNumber s).bind fun number => if number.2 < 2 ^ 64 then some (signed number) else none

/-! ### Splitting -/

/-- None of the characters occurs in the text. -/
def Text.Avoids (s chars : Text) : Prop := ∀ c ∈ s, c ∉ chars

instance (s chars : Text) : Decidable (s.Avoids chars) := s.decidableBAll (· ∉ chars)

variable {delims piece w rest : Text} {maxSplits splits : ℕ} {c : Char}

theorem Text.Avoids.cons_iff : Text.Avoids (c :: w) delims ↔ c ∉ delims ∧ w.Avoids delims :=
  List.forall_mem_cons

theorem Text.Avoids.nil : Text.Avoids [] delims := fun _ h => absurd h List.not_mem_nil

theorem Text.Avoids.append_iff {v : Text} :
    Text.Avoids (v ++ w) delims ↔ v.Avoids delims ∧ w.Avoids delims :=
  List.forall_mem_append

theorem Text.Avoids.mono {chars : Text} (h : w.Avoids delims) (hsub : chars ⊆ delims) :
    w.Avoids chars := fun c hc hmem => h c hc (hsub hmem)

theorem splitFrom_append (hw : w.Avoids delims) :
    splitFrom delims maxSplits splits piece (w ++ rest) =
      splitFrom delims maxSplits splits (piece ++ w) rest := by
  induction w generalizing piece with
  | nil => rw [List.nil_append, List.append_nil]
  | cons c w ih =>
    obtain ⟨hc, hw⟩ := Text.Avoids.cons_iff.mp hw
    rw [List.cons_append, splitFrom, if_neg fun h => hc h.2, ih hw, List.append_assoc]
    rfl

/-- A piece ends at a separator, as long as there are splits left. -/
theorem splitFrom_piece (hw : w.Avoids delims) (hc : c ∈ delims)
    (hs : maxSplits = 0 ∨ splits < maxSplits) :
    splitFrom delims maxSplits splits [] (w ++ c :: rest) =
      w :: splitFrom delims maxSplits (splits + 1) [] rest := by
  rw [splitFrom_append hw, List.nil_append, splitFrom, if_pos ⟨hs, hc⟩]

/-- What is left is one piece if nothing splits it, or if there are no splits left. -/
theorem splitFrom_last (h : w.Avoids delims ∨ maxSplits ≠ 0 ∧ maxSplits ≤ splits) :
    splitFrom delims maxSplits splits piece w = if piece ++ w = [] then [] else [piece ++ w] := by
  induction w generalizing piece with
  | nil => rw [splitFrom, List.append_nil]
  | cons c w ih =>
    have hc : ¬ ((maxSplits = 0 ∨ splits < maxSplits) ∧ c ∈ delims) := by
      rintro ⟨hs, hc⟩
      rcases h with h | h
      · exact (Text.Avoids.cons_iff.mp h).1 hc
      · omega
    rw [splitFrom, if_neg hc, ih (h.imp_left fun h => (Text.Avoids.cons_iff.mp h).2),
      List.append_assoc]
    rfl

theorem splitFrom_last_of_ne_nil (h : w.Avoids delims ∨ maxSplits ≠ 0 ∧ maxSplits ≤ splits)
    (hne : w ≠ []) : splitFrom delims maxSplits splits [] w = [w] := by
  rw [splitFrom_last h, List.nil_append, if_neg hne]

/-- The piece behind the last split is not empty. -/
theorem ne_nil_of_splitFrom {v : Text} (hmax : maxSplits ≠ 0) (hs : splits ≤ maxSplits)
    (h : (splitFrom delims maxSplits splits piece rest)[maxSplits - splits]? = some v) : v ≠ [] := by
  induction rest generalizing splits piece with
  | nil =>
    rw [splitFrom] at h
    split_ifs at h with hp
    · simp at h
    · rw [List.getElem?_singleton] at h
      split_ifs at h
      exact Option.some.inj h ▸ hp
  | cons c rest ih =>
    rw [splitFrom] at h
    split_ifs at h with hc
    · have hlt : splits < maxSplits := hc.1.resolve_left hmax
      rw [show maxSplits - splits = maxSplits - (splits + 1) + 1 by omega,
        List.getElem?_cons_succ] at h
      exact ih hlt h
    · exact ih hs h

theorem length_splitFrom_le (hmax : maxSplits ≠ 0) (hs : splits ≤ maxSplits) :
    (splitFrom delims maxSplits splits piece rest).length ≤ maxSplits - splits + 1 := by
  induction rest generalizing splits piece with
  | nil =>
    rw [splitFrom]
    split_ifs <;> simp
  | cons c rest ih =>
    rw [splitFrom]
    split_ifs with hc
    · have hlt : splits < maxSplits := hc.1.resolve_left hmax
      have hlen : (splitFrom delims maxSplits (splits + 1) [] rest).length ≤
          maxSplits - (splits + 1) + 1 := ih hlt
      rw [List.length_cons]
      omega
    · exact ih hs

/-- The pieces before the last split have no separator. -/
theorem avoids_of_splitFrom {v : Text} {i : ℕ} (hpiece : piece.Avoids delims)
    (hi : maxSplits = 0 ∨ splits + i < maxSplits)
    (h : (splitFrom delims maxSplits splits piece rest)[i]? = some v) : v.Avoids delims := by
  induction rest generalizing piece splits i with
  | nil =>
    rw [splitFrom] at h
    split_ifs at h
    · cases h
    · rw [List.getElem?_singleton] at h
      split_ifs at h
      exact Option.some.inj h ▸ hpiece
  | cons c rest ih =>
    rw [splitFrom] at h
    split_ifs at h with hc
    · cases i with
      | zero => exact Option.some.inj h ▸ hpiece
      | succ i => exact ih .nil (by omega) h
    · refine ih (Text.Avoids.append_iff.mpr ⟨hpiece, Text.Avoids.cons_iff.mpr ⟨?_, .nil⟩⟩) hi h
      exact fun hmem => hc ⟨by omega, hmem⟩

theorem avoids_of_mem_splitOneOf {str v : Text} (h : v ∈ splitOneOf str delims 0) :
    v.Avoids delims := by
  obtain ⟨i, hi⟩ := List.mem_iff_getElem?.mp h
  exact avoids_of_splitFrom .nil (.inl rfl) hi

/-- A piece stands in the text. -/
theorem infix_of_mem_splitFrom {v : Text} (h : v ∈ splitFrom delims maxSplits splits piece rest) :
    v <:+: piece ++ rest := by
  induction rest generalizing piece splits with
  | nil =>
    rw [splitFrom] at h
    split_ifs at h
    · cases h
    · rw [List.mem_singleton.mp h, List.append_nil]
  | cons c rest ih =>
    rw [splitFrom] at h
    split_ifs at h
    · rcases List.mem_cons.mp h with rfl | h
      · exact (List.prefix_append v (c :: rest)).isInfix
      · have hsuffix : rest <:+ piece ++ c :: rest := ⟨piece ++ [c], by simp⟩
        exact (ih h).trans hsuffix.isInfix
    · have hin := ih h
      rwa [List.append_assoc] at hin

/-- A text is one piece, or its first piece ends at a separator. -/
theorem splitFrom_cases :
    splitFrom delims maxSplits splits piece w = (if piece ++ w = [] then [] else [piece ++ w]) ∨
      ∃ first c rest, piece ++ w = first ++ c :: rest ∧
        splitFrom delims maxSplits splits piece w =
          first :: splitFrom delims maxSplits (splits + 1) [] rest := by
  induction w generalizing piece with
  | nil =>
    rw [splitFrom, List.append_nil]
    exact .inl rfl
  | cons c w ih =>
    rw [splitFrom]
    by_cases hc : (maxSplits = 0 ∨ splits < maxSplits) ∧ c ∈ delims
    · rw [if_pos hc]
      exact .inr ⟨piece, c, w, rfl, rfl⟩
    · have h := @ih (piece ++ [c])
      rw [if_neg hc]
      rwa [← List.append_cons] at h

theorem splitFrom_ne_nil (h : piece ≠ [] ∨ rest ≠ []) :
    splitFrom delims maxSplits splits piece rest ≠ [] := by
  induction rest generalizing splits piece with
  | nil =>
    rw [splitFrom, if_neg (h.resolve_right (not_not.mpr rfl))]
    exact List.cons_ne_nil _ _
  | cons c rest ih =>
    rw [splitFrom]
    split_ifs
    · exact List.cons_ne_nil _ _
    · exact ih (.inl (by simp))

/-- A line has no line end. -/
theorem notMem_of_mem_getlines {str line : Text} (h : line ∈ getlines str) : '\n' ∉ line :=
  fun hc => avoids_of_mem_splitOneOf h _ hc List.mem_cons_self

/-- The lines behind a line end are read. -/
theorem mem_splitFrom_append {line : Text} (h : ∀ splits, line ∈ splitFrom ['\n'] 0 splits [] rest)
    (splits : ℕ) (piece w : Text) : line ∈ splitFrom ['\n'] 0 splits piece (w ++ '\n' :: rest) := by
  induction w generalizing splits piece with
  | nil =>
    rw [List.nil_append, splitFrom, if_pos ⟨.inl rfl, List.mem_cons_self⟩]
    exact List.mem_cons_of_mem _ (h _)
  | cons c w ih =>
    rw [List.cons_append, splitFrom]
    split_ifs
    · exact List.mem_cons_of_mem _ (ih _ _)
    · exact ih _ _

/-- A printed line without line ends is read, whatever the other lines are. -/
theorem mem_getlines_flatMap {lines : List Text} {line : Text} (hmem : line ∈ lines)
    (h : '\n' ∉ line) : line ∈ getlines (lines.flatMap (· ++ ['\n'])) := by
  have key (splits : ℕ) : line ∈ splitFrom ['\n'] 0 splits [] (lines.flatMap (· ++ ['\n'])) := by
    induction lines generalizing splits with
    | nil => cases hmem
    | cons first lines ih =>
      rw [List.flatMap_cons, List.append_assoc, List.singleton_append]
      rcases List.mem_cons.mp hmem with rfl | hmem
      · have havoids : line.Avoids ['\n'] := fun c hc hmem =>
          h (by rwa [List.mem_singleton.mp hmem] at hc)
        rw [splitFrom_piece havoids List.mem_cons_self (.inl rfl)]
        exact List.mem_cons_self
      · exact mem_splitFrom_append (ih hmem) splits [] first
  exact key 0

/-- Lines without line ends are read as they were printed. -/
theorem getlines_flatMap {lines : List Text} (h : ∀ line ∈ lines, '\n' ∉ line) :
    getlines (lines.flatMap (· ++ ['\n'])) = lines := by
  have key (splits : ℕ) : splitFrom ['\n'] 0 splits [] (lines.flatMap (· ++ ['\n'])) = lines := by
    induction lines generalizing splits with
    | nil => rfl
    | cons line lines ih =>
      obtain ⟨hline, hlines⟩ := List.forall_mem_cons.mp h
      rw [List.flatMap_cons, List.append_assoc, List.singleton_append,
        splitFrom_piece (fun c hc hmem => hline (by rwa [List.mem_singleton.mp hmem] at hc))
          List.mem_cons_self (.inl rfl), ih hlines]
  exact key 0

/-! ### Numbers -/

theorem isDigit_not_isspace (h : c.isDigit) : isspace c = false := by
  rw [isspace, decide_eq_false_iff_not]
  intro hm
  simp only [List.mem_cons, List.not_mem_nil, or_false] at hm
  rcases hm with rfl | rfl | rfl | rfl | rfl | rfl <;> cases h

theorem takeWhile_isDigit_toDigits (n : ℕ) :
    (Nat.toDigits 10 n).takeWhile Char.isDigit = Nat.toDigits 10 n :=
  List.takeWhile_eq_self_iff.mpr fun _ hc => Nat.isDigit_of_mem_toDigits (by decide) (by decide) hc

theorem leadingNumber_toDigits (n : ℕ) : leadingNumber (Nat.toDigits 10 n) = some (false, n) := by
  obtain ⟨c, digits, hd⟩ := List.exists_cons_of_ne_nil (Nat.toDigits_ne_nil (n := n) (b := 10))
  have hc : c.isDigit := Nat.isDigit_of_mem_toDigits (b := 10) (n := n) (by decide) (by decide)
    (hd ▸ List.mem_cons_self)
  have hsign : c ≠ '-' ∧ c ≠ '+' := by
    constructor <;> rintro rfl <;> cases hc
  have htake := takeWhile_isDigit_toDigits n
  have hvalue := Nat.ofDigitChars_ten_toDigits (n := n)
  rw [hd] at htake hvalue ⊢
  simp [leadingNumber, isDigit_not_isspace hc, hsign, htake, hvalue]

theorem leadingNumber_minus (n : ℕ) :
    leadingNumber ('-' :: Nat.toDigits 10 n) = some (true, n) := by
  have htake := takeWhile_isDigit_toDigits n
  have hvalue := Nat.ofDigitChars_ten_toDigits (n := n)
  simp [leadingNumber, show isspace '-' = false from rfl, htake, hvalue, Nat.toDigits_ne_nil]

end KkLicode.Sdp
