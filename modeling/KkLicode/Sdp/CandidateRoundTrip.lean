import KkLicode.Sdp.PrintedLines

/-! Printing a candidate and reading it again. The line is split at blanks and at colons,
so that the texts of the candidate must have neither: then the pieces are the words that
were printed, and the positions are those of the fields. -/

namespace KkLicode.Sdp

variable {c c' : CandidateInfo} {delims : Text}

/-- Words without separators are the pieces of their line. -/
theorem splitFrom_words (hblank : ' ' ∈ delims) {w : Text} {words : List Text}
    (h : ∀ v ∈ w :: words, v.Avoids delims) (hlast : (w :: words).getLast (List.cons_ne_nil _ _) ≠ [])
    (splits : ℕ) :
    splitFrom delims 0 splits [] (w ++ words.flatMap (' ' :: ·)) = w :: words := by
  obtain ⟨hw, hwords⟩ := List.forall_mem_cons.mp h
  induction words generalizing w splits with
  | nil =>
    rw [List.flatMap_nil, List.append_nil]
    exact splitFrom_last_of_ne_nil (.inl hw) hlast
  | cons v words ih =>
    rw [List.flatMap_cons, List.cons_append, splitFrom_piece hw hblank (.inl rfl),
      ih hwords hlast _ (hwords v List.mem_cons_self) (List.forall_mem_cons.mp hwords).2]

/-! ### Candidates -/

/-- The related address is printed and read. -/
def CandidateInfo.Related (c : CandidateInfo) : Prop := c.hostType = .srflx ∨ c.hostType = .relay

instance (c : CandidateInfo) : Decidable c.Related := inferInstanceAs (Decidable (_ ∨ _))

/-- The values of an `int`. -/
def IsInt (n : ℤ) : Prop := ∃ m : UInt32, toInt m = n

/-- A candidate of UDP whose texts have no blanks. -/
structure CandidateInfo.Udp (c : CandidateInfo) : Prop where
  netProtocol : c.netProtocol = "UDP".toList ∨ c.netProtocol = "udp".toList
  foundation : ' ' ∉ c.foundation
  hostAddress : ' ' ∉ c.hostAddress
  hostPort : IsInt c.hostPort
  rAddress : c.Related → ' ' ∉ c.rAddress
  rPort : c.Related → ∃ port, c.rPort = some port ∧ IsInt port

/-- The texts have no colons. -/
structure CandidateInfo.Colonless (c : CandidateInfo) : Prop where
  foundation : ':' ∉ c.foundation
  hostAddress : ':' ∉ c.hostAddress
  rAddress : c.Related → ':' ∉ c.rAddress

/-- Every field that is printed has the same value, and no other is read. -/
structure CandidateInfo.ReadAs (c c' : CandidateInfo) : Prop where
  foundation : c'.foundation = c.foundation
  componentId : c'.componentId = c.componentId
  netProtocol : c'.netProtocol = c.netProtocol
  priority : c'.priority = c.priority
  hostAddress : c'.hostAddress = c.hostAddress
  hostPort : c'.hostPort = c.hostPort
  hostType : c'.hostType = c.hostType
  related : (c'.rAddress, c'.rPort) = if c.Related then (c.rAddress, c.rPort) else ([], none)

/-- The line of the candidate adds it to the candidates that there are. -/
def CandidateInfo.RoundTrips (c : CandidateInfo) (mtype : MediaType)
    (candidates : List CandidateInfo) : Prop :=
  ∃ line c', stringifyCandidate c = some line ∧
    pushCandidate line mtype candidates = some (candidates ++ [c']) ∧ c.ReadAs c'

/-- The words of the related address. -/
def CandidateInfo.relatedWords (c : CandidateInfo) : List Text :=
  if c.Related then ["raddr".toList, c.rAddress, "rport".toList, showInt (c.rPort.getD 0)] else []

/-- The words of the line behind the foundation. -/
def CandidateInfo.words (c : CandidateInfo) : List Text :=
  [showUnsigned c.componentId, c.netProtocol, showUnsigned c.priority, c.hostAddress,
    showInt c.hostPort, "typ".toList, c.hostType.toText] ++ c.relatedWords ++
      ["generation".toList, "0".toList]

theorem stringifyRelated_eq (h : c.Udp) :
    stringifyRelated c = some (c.relatedWords.flatMap (' ' :: ·)) := by
  rw [stringifyRelated, CandidateInfo.relatedWords]
  by_cases hr : c.Related
  · obtain ⟨port, hport, -⟩ := h.rPort hr
    rw [if_pos hr, if_pos (show c.hostType = .srflx ∨ c.hostType = .relay from hr), hport]
    simp
  · rw [if_neg hr, if_neg (show ¬(c.hostType = .srflx ∨ c.hostType = .relay) from hr)]
    rfl

theorem stringifyCandidate_eq (h : c.Udp) : stringifyCandidate c =
    some ("a=candidate".toList ++ ':' :: (c.foundation ++ c.words.flatMap (' ' :: ·))) := by
  have hcand : Marker.cand = "a=candidate".toList ++ [':'] := rfl
  have htyp : " typ ".toList = ' ' :: ("typ".toList ++ [' ']) := rfl
  have hend : " generation 0".toList = ' ' :: ("generation".toList ++ ' ' :: "0".toList) := rfl
  rw [stringifyCandidate, stringifyRelated_eq h, CandidateInfo.words, hcand, htyp, hend]
  simp only [List.append_assoc, List.cons_append, List.nil_append, List.flatMap_cons,
    List.flatMap_append, List.flatMap_nil, List.append_nil]
  rfl

/-- What the words of a candidate are read as. -/
theorem processCandidate_words (h : c.Udp) (mtype : MediaType) (line : Text) :
    ∃ c', processCandidate ("a=candidate".toList :: c.foundation :: c.words) mtype line =
      some (some c') ∧ c.ReadAs c' := by
  obtain ⟨port, hport⟩ := h.hostPort
  have hprotocol : ¬(c.netProtocol ≠ "UDP".toList ∧ c.netProtocol ≠ "udp".toList) := by
    have := h.netProtocol
    tauto
  have htype : hostTypeOf c.hostType.toText = c.hostType := by cases c.hostType <;> rfl
  have hrelated : relatedAddress ("a=candidate".toList :: c.foundation :: c.words) c.hostType =
      some (if c.Related then (c.rAddress, c.rPort) else ([], none)) := by
    rw [relatedAddress, CandidateInfo.words, CandidateInfo.relatedWords]
    by_cases hr : c.Related
    · obtain ⟨_, hrPort, m, rfl⟩ := h.rPort hr
      rw [if_pos hr, if_pos hr, if_pos (show c.hostType = .srflx ∨ c.hostType = .relay from hr),
        hrPort]
      show some (c.rAddress, some (toInt (strtoul (showInt (toInt m))).toUInt32)) = _
      rw [strtoul_showInt]
    · rw [if_neg hr, if_neg hr, if_neg (show ¬(c.hostType = .srflx ∨ c.hostType = .relay) from hr)]
  have hread : processCandidate ("a=candidate".toList :: c.foundation :: c.words) mtype line =
      some (some {
        priority := c.priority
        componentId := c.componentId
        foundation := c.foundation
        hostAddress := c.hostAddress
        rAddress := (if c.Related then (c.rAddress, c.rPort) else ([], none)).1
        netProtocol := c.netProtocol
        hostType := c.hostType
        mediaType := mtype
        rPort := (if c.Related then (c.rAddress, c.rPort) else ([], none)).2
        hostPort := c.hostPort
        sdp := line }) := by
    rw [processCandidate]
    simp only [CandidateInfo.words, List.cons_append, List.getElem?_cons_succ,
      List.getElem?_cons_zero, Option.bind_eq_bind, Option.bind_some] at hrelated ⊢
    rw [if_neg hprotocol, if_neg (not_not.mpr rfl), htype, hrelated, strtoul_showUnsigned,
      strtoul_showUnsigned, ← hport, strtoul_showInt]
    rfl
  exact ⟨_, hread, rfl, rfl, rfl, rfl, rfl, rfl, rfl, rfl⟩

/-- Whatever is read is a piece of the line. -/
theorem mem_of_processCandidate {pieces : List Text} {mtype : MediaType} {line : Text}
    (h : processCandidate pieces mtype line = some (some c)) :
    c.foundation ∈ pieces ∧ c.hostAddress ∈ pieces ∧ (c.Related → c.rAddress ∈ pieces) := by
  obtain ⟨foundation, hfoundation, h⟩ := Option.bind_eq_some_iff.mp h
  obtain ⟨_, -, h⟩ := Option.bind_eq_some_iff.mp h
  obtain ⟨_, -, h⟩ := Option.bind_eq_some_iff.mp h
  split_ifs at h
  · cases h
  obtain ⟨_, -, h⟩ := Option.bind_eq_some_iff.mp h
  obtain ⟨address, haddress, h⟩ := Option.bind_eq_some_iff.mp h
  obtain ⟨_, -, h⟩ := Option.bind_eq_some_iff.mp h
  obtain ⟨_, -, h⟩ := Option.bind_eq_some_iff.mp h
  split_ifs at h
  · cases h
  obtain ⟨type, -, h⟩ := Option.bind_eq_some_iff.mp h
  obtain ⟨⟨related, port⟩, hrelated, h⟩ := Option.bind_eq_some_iff.mp h
  cases h
  refine ⟨List.mem_of_getElem? hfoundation, List.mem_of_getElem? haddress, fun hr => ?_⟩
  rw [relatedAddress, if_pos (show hostTypeOf type = .srflx ∨ hostTypeOf type = .relay from hr)]
    at hrelated
  obtain ⟨piece, hpiece, hrelated⟩ := Option.bind_eq_some_iff.mp hrelated
  obtain ⟨_, -, hrelated⟩ := Option.bind_eq_some_iff.mp hrelated
  cases hrelated
  exact List.mem_of_getElem? hpiece

theorem avoids_iff {s : Text} : s.Avoids " :".toList ↔ ' ' ∉ s ∧ ':' ∉ s := by
  rw [show " :".toList = [' ', ':'] from rfl]
  constructor
  · exact fun h => ⟨fun hm => h _ hm (by simp), fun hm => h _ hm (by simp)⟩
  · rintro ⟨hblank, hcolon⟩ c hc hmem
    rcases List.mem_cons.mp hmem with rfl | hmem
    · exact hblank hc
    · exact hcolon (List.mem_singleton.mp hmem ▸ hc)

/-- Without colons the pieces of the line are the words. -/
theorem splitOneOf_words (h : c.Udp) (hc : c.Colonless) :
    splitOneOf ("a=candidate".toList ++ ':' :: (c.foundation ++ c.words.flatMap (' ' :: ·)))
      " :".toList 0 = "a=candidate".toList :: c.foundation :: c.words := by
  have hnumber (n : UInt32) : (showUnsigned n).Avoids " :".toList := showUnsigned_avoids n (by decide)
  have hport (n : ℤ) : (showInt n).Avoids " :".toList := showInt_avoids n (by decide) (by decide)
  have hprotocol : c.netProtocol.Avoids " :".toList := by
    rcases h.netProtocol with hp | hp <;> rw [hp] <;> decide
  have htype : c.hostType.toText.Avoids " :".toList := by
    cases c.hostType <;> decide
  have hrelated : ∀ w ∈ c.relatedWords, w.Avoids " :".toList := by
    rw [CandidateInfo.relatedWords]
    split_ifs with hr
    · simp only [List.forall_mem_cons]
      exact ⟨by decide, avoids_iff.mpr ⟨h.rAddress hr, hc.rAddress hr⟩, by decide, hport _, by simp⟩
    · simp
  have hwords : ∀ w ∈ c.foundation :: c.words, w.Avoids " :".toList := by
    rw [CandidateInfo.words]
    simp only [List.forall_mem_cons, List.forall_mem_append]
    exact ⟨avoids_iff.mpr ⟨h.foundation, hc.foundation⟩, ⟨⟨hnumber _, hprotocol, hnumber _,
      avoids_iff.mpr ⟨h.hostAddress, hc.hostAddress⟩, hport _, by decide, htype, by simp⟩, hrelated⟩,
      by decide, by decide, by simp⟩
  have hlast : (c.foundation :: c.words).getLast (List.cons_ne_nil _ _) ≠ [] := by
    simp [CandidateInfo.words]
  rw [splitOneOf, splitFrom_piece (by decide) (by decide) (.inl rfl),
    splitFrom_words (by decide) hwords hlast]

/-- The line of a candidate of UDP without blanks adds the same candidate if and only if no
text of the candidate has a colon. -/
theorem candidate_roundTrips_iff (c : CandidateInfo) (h : c.Udp) (mtype : MediaType)
    (candidates : List CandidateInfo) : c.RoundTrips mtype candidates ↔ c.Colonless := by
  constructor
  · rintro ⟨line, c', -, hpush, hread⟩
    obtain ⟨read, hprocess, heq⟩ := Option.bind_eq_some_iff.mp hpush
    have hread' : read = some c' := by
      have := List.append_cancel_left (Option.some.inj heq)
      cases read with
      | none => cases this
      | some _ => exact congrArg some (List.cons.inj this).1
    subst hread'
    have havoids (w) (hw : w ∈ splitOneOf line " :".toList 0) := avoids_of_mem_splitOneOf hw
    obtain ⟨hfoundation, haddress, hrelated⟩ := mem_of_processCandidate hprocess
    refine ⟨?_, ?_, fun hr => ?_⟩
    · rw [← hread.foundation]
      exact (avoids_iff.mp (havoids _ hfoundation)).2
    · rw [← hread.hostAddress]
      exact (avoids_iff.mp (havoids _ haddress)).2
    · have hr' : c'.Related := by rwa [CandidateInfo.Related, hread.hostType]
      have heq := hread.related
      rw [if_pos hr] at heq
      rw [← (Prod.mk.inj heq).1]
      exact (avoids_iff.mp (havoids _ (hrelated hr'))).2
  · intro hc
    obtain ⟨c', hprocess, hread⟩ := processCandidate_words h mtype
      ("a=candidate".toList ++ ':' :: (c.foundation ++ c.words.flatMap (' ' :: ·)))
    refine ⟨_, c', stringifyCandidate_eq h, ?_, hread⟩
    rw [pushCandidate, splitOneOf_words h hc, hprocess]
    rfl

/-- A reflexive candidate with its related address. -/
def reflexive : CandidateInfo where
  priority := 1694498815
  componentId := 1
  foundation := "4".toList
  hostAddress := "138.4.0.1".toList
  rAddress := "192.168.0.12".toList
  hostPort := 49462
  rPort := some 50483
  netProtocol := "udp".toList
  hostType := .srflx
  mediaType := .video
  sdp := []

theorem candidate_roundTrips_iff_reflexive : reflexive.RoundTrips .video [] :=
  (candidate_roundTrips_iff reflexive
    ⟨.inr rfl, by decide, by decide, ⟨49462, by decide⟩, fun _ => by decide,
      fun _ => ⟨50483, rfl, 50483, by decide⟩⟩ .video []).mpr
    ⟨by decide, by decide, fun _ => by decide⟩

/-- A candidate with an address of IPv6. -/
def ipv6Host : CandidateInfo :=
  { reflexive with hostType := .host, hostAddress := "2001:db8::1".toList }

/-- The colons of an address of IPv6 cut it into pieces. -/
theorem not_candidate_roundTrips : ¬∀ (c : CandidateInfo), c.Udp → c.foundation ≠ [] →
    c.hostAddress ≠ [] → (c.Related → c.rAddress ≠ []) →
      ∀ mtype candidates, c.RoundTrips mtype candidates := by
  intro hall
  have hhost : ¬ipv6Host.Related := by decide
  obtain ⟨line, c', hline, hpush, -⟩ := hall ipv6Host
    ⟨.inr rfl, by decide, by decide, ⟨49462, by decide⟩, fun hr => absurd hr hhost,
      fun hr => absurd hr hhost⟩ (by decide) (by decide) (fun hr => absurd hr hhost) .video []
  have hrun : ((stringifyCandidate ipv6Host).bind (pushCandidate · .video [])).map List.length =
      some 0 := by decide
  rw [hline, Option.bind_some, hpush] at hrun
  cases hrun

end KkLicode.Sdp
