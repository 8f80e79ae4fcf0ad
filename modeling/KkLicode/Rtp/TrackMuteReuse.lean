import Mathlib.Algebra.Order.Group.Unbundled.Int
import KkLicode.Base.Runs
import KkLicode.Rtp.RtpTrackMuteHandler

/-! Whether the mute handler gives one number to two packets. Packets come in any
order, late or more than once, and the track is muted and heard again in between.
The numbers are compared with places: the numbers a handler without wrap would
give. A packet that is late when the track is heard again moves the places back,
and one that is late after that is renumbered by the new offset; without such
packets no place is taken twice. -/

namespace KkLicode.Rtp

open Base Base.Serial

/-- What happens to a track. The packets of the source are counted without wrap, and one that comes
again has its number of before. -/
inductive TrackEvent where
  | packet (i : ℕ)
  | mute (active : Bool)
  deriving DecidableEq, Repr

/-- A track with the packets forwarded so far, the newest first. -/
structure Track where
  info : TrackMuteInfo := {}
  forwarded : List (ℕ × UInt16) := []
  deriving DecidableEq, Repr

def Track.step (s : Track) : TrackEvent → Track
  | .packet i =>
    let (info, sent) := s.info.handlePacket (.ofNat i)
    { info := info
      forwarded := match sent with
        | none => s.forwarded
        | some seqNumber => (i, seqNumber) :: s.forwarded }
  | .mute active => { s with info := s.info.muteTrack active }

/-- In a window of fewer than 2^15 forwarded packets no two packets have one number. -/
def NumbersUnique (forwarded : List (ℕ × UInt16)) : Prop :=
  ∀ window, window <:+: forwarded → window.length < 32768 →
    window.Pairwise fun x y => x.1 ≠ y.1 → x.2 ≠ y.2

/-! ### Places -/

/-- The handler without wrap: the last packet seen, the last place taken, and how many numbers were
cut out. `base` is the last packet that had been seen when the cut changed after a place was taken. -/
structure Places where
  lastSeen : ℤ := -1
  lastPlace : ℤ := 0
  cut : ℤ := 0
  muted : Bool := false
  base : Option ℤ := none
  taken : List (ℕ × ℤ) := []
  deriving DecidableEq, Repr

namespace Places

def step (p : Places) : TrackEvent → Places
  | .packet i =>
    if p.muted then { p with lastSeen := i }
    else { p with lastSeen := i, lastPlace := i - p.cut, taken := (i, i - p.cut) :: p.taken }
  | .mute active =>
    if p.muted = active then p
    else if active then { p with muted := true }
    else { p with
      muted := false
      cut := p.lastSeen - p.lastPlace
      base := if p.lastSeen - p.lastPlace = p.cut ∨ p.taken = [] then p.base else some p.lastSeen }

/-- A packet that is forwarded is newer than the last one seen when the cut changed, and its place
less than a round from the places of the window; when the cut changes, the last place taken is the
highest. -/
def Good (p : Places) : TrackEvent → Prop
  | .packet i => p.muted = false →
    (∀ b ∈ p.base, b < i) ∧ ∀ x ∈ p.taken.take 32766, |i - p.cut - x.2| < 65536
  | .mute active => p.muted = true ∧ active = false ∧ p.lastSeen - p.lastPlace ≠ p.cut →
    ∀ x ∈ p.taken, x.2 ≤ p.lastPlace

instance (p : Places) (e : TrackEvent) : Decidable (p.Good e) :=
  match e with
  | .packet _ => inferInstanceAs (Decidable (_ → _))
  | .mute _ => inferInstanceAs (Decidable (_ → _))

/-- The places taken before the cut changed are behind all that come after. -/
structure Wf (p : Places) : Prop where
  current : ∀ x ∈ p.taken, x.2 = x.1 - p.cut ∨ ∃ b ∈ p.base, x.2 ≤ b - p.cut
  window : ∀ window, window <:+: p.taken → window.length < 32768 →
    window.Pairwise fun x y => x.1 ≠ y.1 → (.ofInt x.2 : UInt16) ≠ .ofInt y.2

variable {p : Places} {i : ℕ}

/-- The place of a new packet is that of no other packet. -/
theorem Wf.eq_of_place (h : p.Wf) (hbase : ∀ b ∈ p.base, b < i) {x : ℕ × ℤ} (hx : x ∈ p.taken)
    (hplace : x.2 = i - p.cut) : x.1 = i := by
  rcases h.current x hx with hcur | ⟨b, hb, hle⟩
  · omega
  · have := hbase b hb
    omega

/-- Places less than a round apart are known by their numbers. -/
theorem eq_of_ofInt_eq {a b : ℤ} (h : (.ofInt a : UInt16) = .ofInt b) (hab : |a - b| < 65536) :
    a = b := by
  have hmod : a % 65536 = b % 65536 := by
    have := congrArg UInt16.toNat h
    simp only [UInt16.ofInt, UInt16.toNat_ofNat'] at this
    omega
  rw [abs_lt] at hab
  omega

/-- A window that ends with a new packet has the newest packets behind it. -/
theorem window_cons {α : Type} {R : α → α → Prop} {l : List α} {a : α} {n : ℕ}
    (hl : ∀ window, window <:+: l → window.length < n + 2 → window.Pairwise R)
    (ha : ∀ x ∈ l.take n, R a x) :
    ∀ window, window <:+: a :: l → window.length < n + 2 → window.Pairwise R := by
  intro window hw hlen
  rcases List.infix_cons_iff.mp hw with hpre | hinf
  · cases window with
    | nil => exact .nil
    | cons b window =>
      obtain ⟨rfl, hbehind⟩ := List.cons_prefix_cons.mp hpre
      rw [List.length_cons] at hlen
      have htake : window = (l.take n).take window.length := by
        rw [List.take_take, Nat.min_eq_left (by omega)]
        exact List.prefix_iff_eq_take.mp hbehind
      refine List.pairwise_cons.mpr ⟨fun x hx => ha x ?_, hl window hbehind.isInfix (by omega)⟩
      rw [htake] at hx
      exact List.mem_of_mem_take hx
  · exact hl window hinf hlen

theorem Wf.start : Wf {} where
  current := by simp
  window window hw _ := by simp [List.infix_nil.mp hw]

theorem Wf.packet (h : p.Wf) (hg : p.Good (.packet i)) : (p.step (.packet i)).Wf := by
  rw [step]
  split_ifs with hm
  · exact ⟨h.current, h.window⟩
  · obtain ⟨hbase, hnear⟩ := hg (Bool.eq_false_iff.mpr hm)
    refine ⟨fun x hx => ?_, window_cons h.window fun x hx hne heq => hne ?_⟩
    · rcases List.mem_cons.mp hx with rfl | hx
      · exact .inl rfl
      · exact h.current x hx
    · have hplace := eq_of_ofInt_eq heq (hnear x hx)
      exact (h.eq_of_place hbase (List.mem_of_mem_take hx) hplace.symm).symm

theorem Wf.mute (h : p.Wf) {active : Bool} (hg : p.Good (.mute active)) : (p.step (.mute active)).Wf := by
  rw [step]
  split_ifs with hm ha hcut
  · exact h
  · exact ⟨h.current, h.window⟩
  · refine ⟨?_, h.window⟩
    rcases hcut with hcut | hnone
    · show ∀ x ∈ p.taken, x.2 = x.1 - (p.lastSeen - p.lastPlace) ∨ _
      rw [hcut]
      exact h.current
    · show ∀ x ∈ p.taken, _
      simp [hnone]
  · refine ⟨fun x hx => .inr ⟨p.lastSeen, rfl, ?_⟩, h.window⟩
    have hhigh := hg ⟨by cases hmuted : p.muted <;> simp_all, by simpa using ha, fun heq => hcut (.inl heq)⟩
    have := hhigh x hx
    show x.2 ≤ p.lastSeen - (p.lastSeen - p.lastPlace)
    omega

theorem Wf.step (h : p.Wf) {e : TrackEvent} (hg : p.Good e) : (p.step e).Wf := by
  cases e with
  | packet i => exact h.packet hg
  | mute active => exact h.mute hg

end Places

/-! ### The handler against the places -/

/-- The fields of the handler are those of the places, modulo 2^16. -/
structure Track.Follows (s : Track) (p : Places) : Prop where
  muted : s.info.muteIsActive = p.muted
  offset : s.info.seqNumOffset = .ofInt p.cut
  original : (.ofInt s.info.lastOriginalSeqNum : UInt16) = .ofInt p.lastSeen
  lastSent : s.info.lastSentSeqNum = .ofInt p.lastPlace
  forwarded : s.forwarded = p.taken.map fun x => (x.1, .ofInt x.2)

namespace Track

theorem Follows.start : Follows {} {} where
  muted := rfl
  offset := rfl
  original := rfl
  lastSent := rfl
  forwarded := rfl

theorem Follows.step {s : Track} {p : Places} (h : s.Follows p) (e : TrackEvent) :
    (s.step e).Follows (p.step e) := by
  cases e with
  | packet i =>
    have hi := ofInt_natCast i
    have hm := h.muted
    unfold Track.step Places.step TrackMuteInfo.handlePacket
    cases hmuted : p.muted with
    | true =>
      rw [hmuted] at hm
      simp only [hm, if_true]
      exact ⟨rfl, h.offset, (ofInt_toNat _).trans hi.symm, h.lastSent, h.forwarded⟩
    | false =>
      rw [hmuted] at hm
      have hsent : (.ofNat i : UInt16) - s.info.seqNumOffset = .ofInt (i - p.cut) := by
        rw [ofInt_sub, hi, h.offset]
      simp only [hm, Bool.false_eq_true, if_false]
      refine ⟨rfl, h.offset, (ofInt_toNat _).trans hi.symm, hsent, ?_⟩
      rw [List.map_cons, hsent, h.forwarded]
  | mute active =>
    have hoffset : UInt16.ofInt (s.info.lastOriginalSeqNum - s.info.lastSentSeqNum.toNat) =
        .ofInt (p.lastSeen - p.lastPlace) := by
      rw [ofInt_sub, ofInt_sub, h.original, ofInt_toNat, h.lastSent]
    unfold Track.step Places.step TrackMuteInfo.muteTrack
    rw [h.muted]
    dsimp only
    split_ifs with hm ha hcut
    · exact h
    · exact ⟨ha, h.offset, h.original, h.lastSent, h.forwarded⟩
    · exact ⟨Bool.eq_false_iff.mpr ha, hoffset, h.original, h.lastSent, h.forwarded⟩
    · exact ⟨Bool.eq_false_iff.mpr ha, hoffset, h.original, h.lastSent, h.forwarded⟩

/-- The track and its places after the events. -/
def run (events : List TrackEvent) : Track :=
  Runs.final (fun s e => (step s e, ())) {} events

theorem follows_run (events : List TrackEvent) :
    (run events).Follows (Runs.final (fun p e => (Places.step p e, ())) {} events) := by
  suffices h : ∀ s p, Follows s p → Follows (Runs.final (fun s e => (step s e, ())) s events)
      (Runs.final (fun p e => (Places.step p e, ())) p events) from h _ _ .start
  induction events with
  | nil => exact fun _ _ h => h
  | cons e events ih => exact fun s p h => ih _ _ (h.step e)

/-- No number is used twice as long as no packet is late where the numbers are cut. -/
theorem forwarded_unique {events : List TrackEvent}
    (h : Runs.Steps (fun p e => (Places.step p e, ())) Places.Good {} events) :
    NumbersUnique (run events).forwarded := by
  have hwf : (Runs.final (fun p e => (Places.step p e, ())) {} events).Wf :=
    h.invariant (fun p e hp hg => hp.step hg) .start
  intro window hw hlen
  rw [(follows_run events).forwarded] at hw
  obtain ⟨places, hplaces, rfl⟩ := List.infix_map_iff.mp hw
  rw [List.length_map] at hlen
  exact List.pairwise_map.mpr (hwf.window places hplaces hlen)

/-- Two packets are lost while the track is muted, and before that a packet comes late. -/
theorem forwarded_unique_late :
    NumbersUnique (run [.packet 1, .packet 3, .packet 2, .packet 4, .mute true, .packet 5, .packet 6,
      .mute false, .packet 7, .packet 9, .packet 8]).forwarded :=
  forwarded_unique (by decide)

/-- A packet comes again before the track is muted, and the numbers go back with it: the new packet 5
is given the number of 3. -/
theorem forwarded_reused :
    (run [.packet 1, .packet 2, .packet 3, .packet 2, .mute true, .packet 4, .mute false,
        .packet 5]).forwarded = [(5, 3), (2, 2), (3, 3), (2, 2), (1, 1)] ∧
      ¬NumbersUnique (run [.packet 1, .packet 2, .packet 3, .packet 2, .mute true, .packet 4,
        .mute false, .packet 5]).forwarded := by
  have hrun : (run [.packet 1, .packet 2, .packet 3, .packet 2, .mute true, .packet 4, .mute false,
      .packet 5]).forwarded = [(5, 3), (2, 2), (3, 3), (2, 2), (1, 1)] := by decide
  refine ⟨hrun, fun h => ?_⟩
  have hall := h _ (List.infix_refl _) (by rw [hrun]; decide)
  rw [hrun] at hall
  exact absurd hall (by decide)

end Track

end KkLicode.Rtp
