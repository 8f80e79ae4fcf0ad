import Mathlib.Data.String.Basic
import Mathlib.Logic.Function.Basic
import KkLicode.Base.Runs
import KkLicode.Base.StdMap

/-! `OneToManyProcessor`: one publisher, whose media goes to the subscribers and who
gets their feedback. A subscriber refers back to the processor, and the processor
refers to the subscriber, so each operation has two things to change. `addSubscriber`
does not reset the one it substitutes, and `removeSubscriber` leaves the reference to
a close that a worker does later, and only for a `WebRtcConnection`. -/

namespace KkLicode.Media

open Base

/-- What a feedback source may refer to. -/
inductive FeedbackSink where
  | processor
  | object (id : ℕ)
  deriving DecidableEq, Repr

/-- A media source or sink. Its feedback source or sink, if it has one, is the object itself. -/
structure Endpoint where
  isWebRtcConnection : Bool := true
  hasFeedbackSource : Bool := true
  hasFeedbackSink : Bool := true
  audioSourceSSRC : UInt32 := 0
  videoSourceSSRC : UInt32 := 0
  audioSinkSSRC : UInt32 := 0
  videoSinkSSRC : UInt32 := 0
  sending : Bool := true
  fbSink : Option FeedbackSink := none
  deriving DecidableEq, Repr

/-- `WebRtcConnection::close`. -/
def Endpoint.close (c : Endpoint) : Endpoint :=
  if !c.sending then c else { c with sending := false, fbSink := none }

def Endpoint.setFeedbackSink (c : Endpoint) (sink : Option FeedbackSink) : Endpoint :=
  { c with fbSink := sink }

structure OneToManyProcessor where
  subscribers : StdMap String ℕ := .empty
  publisher : Option ℕ := none
  feedbackSink : Option ℕ := none

/-- The processor and the objects it deals with. `held` are those that the application refers to;
`tasks` are the connections whose close is queued at their workers. -/
structure Room where
  processor : OneToManyProcessor := {}
  objects : ℕ → Endpoint
  held : ℕ → Bool
  tasks : List ℕ := []

inductive RoomEvent where
  | setPublisher (p : ℕ)
  | addSubscriber (c : ℕ) (peerId : String)
  | removeSubscriber (peerId : String)
  | closeAll
  | task (c : ℕ)
  /-- The application drops its reference. -/
  | release (c : ℕ)
  deriving DecidableEq, Repr

namespace Room

/-- The object is subscribed under some id. -/
def Subscribed (w : Room) (c : ℕ) : Prop := ∃ x ∈ w.processor.subscribers.pairs, x.2 = c

instance (w : Room) (c : ℕ) : Decidable (w.Subscribed c) :=
  inferInstanceAs (Decidable (∃ _ ∈ _, _ = _))

/-- Something other than the map of subscribers refers to the object. -/
def Referred (w : Room) (c : ℕ) : Prop :=
  w.held c = true ∨ c ∈ w.tasks ∨ w.processor.publisher = some c

instance (w : Room) (c : ℕ) : Decidable (w.Referred c) := inferInstanceAs (Decidable (_ ∨ _ ∨ _))

/-- The object was not destroyed. -/
def Alive (w : Room) (c : ℕ) : Prop := w.Referred c ∨ w.Subscribed c

instance (w : Room) (c : ℕ) : Decidable (w.Alive c) := inferInstanceAs (Decidable (_ ∨ _))

def update (w : Room) (c : ℕ) (f : Endpoint → Endpoint) : Room :=
  { w with objects := Function.update w.objects c (f (w.objects c)) }

/-- `deleteAsync`, up to the close that is queued. -/
def deleteAsync (w : Room) (c : ℕ) : Room :=
  if (w.objects c).isWebRtcConnection then { w with tasks := w.tasks ++ [c] } else w

/-- `deleteAsync`, when its end is waited for. -/
def deleteAndWait (w : Room) (c : ℕ) : Room :=
  if (w.objects c).isWebRtcConnection then w.update c .close else w

def setPublisher (w : Room) (p : ℕ) : Room :=
  { w with processor := { w.processor with
      publisher := some p
      feedbackSink := if (w.objects p).hasFeedbackSink then some p else none } }

/-- There is no result without a publisher. -/
def addSubscriber (w : Room) (c : ℕ) (peerId : String) : Option Room := do
  let p ← w.processor.publisher
  let w := w.update c fun s => { s with
    audioSinkSSRC := (w.objects p).audioSourceSSRC, videoSinkSSRC := (w.objects p).videoSourceSSRC }
  let w := if (w.objects c).hasFeedbackSource then
      w.update c (·.setFeedbackSink (some .processor)) else w
  let subscribers := w.processor.subscribers.erase peerId
  return { w with processor := { w.processor with subscribers := subscribers.assign peerId c } }

def removeSubscriber (w : Room) (peerId : String) : Room :=
  match w.processor.subscribers.find peerId with
  | none => w
  | some c =>
    let w := w.deleteAsync c
    { w with processor := { w.processor with subscribers := w.processor.subscribers.erase peerId } }

/-- What `closeAll` does with a subscriber. -/
def closeSubscriber (w : Room) (c : ℕ) : Room :=
  let hasFeedbackSource := (w.objects c).hasFeedbackSource
  let w := w.deleteAndWait c
  if hasFeedbackSource then w.update c (·.setFeedbackSink none) else w

def closeAll (w : Room) : Room :=
  let w := match w.processor.publisher with
    | none => w
    | some p => w.deleteAndWait p
  let w := { w with processor := { w.processor with feedbackSink := none, publisher := none } }
  let w := (w.processor.subscribers.pairs.map Prod.snd).foldl closeSubscriber w
  { w with processor := { w.processor with subscribers := .empty } }

/-- A worker does a close that is queued. -/
def task (w : Room) (c : ℕ) : Room :=
  if c ∈ w.tasks then { w with tasks := w.tasks.erase c }.update c .close else w

/-- An object that is handed over was not destroyed. -/
def step (w : Room) : RoomEvent → Option Room
  | .setPublisher p => if w.Alive p then some (w.setPublisher p) else none
  | .addSubscriber c peerId => if w.Alive c then w.addSubscriber c peerId else none
  | .removeSubscriber peerId => some (w.removeSubscriber peerId)
  | .closeAll => some w.closeAll
  | .task c => some (w.task c)
  | .release c => some { w with held := Function.update w.held c false }

/-! ### Feedback sources and subscribers -/

/-- The feedback sources whose sink is the processor are those of the current subscribers. -/
def Wired (w : Room) : Prop :=
  ∀ c, w.Alive c → (w.objects c).hasFeedbackSource = true →
    ((w.objects c).fbSink = some .processor ↔ w.Subscribed c)

/-- The object is subscribed under another id. -/
def Elsewhere (w : Room) (peerId : String) (c : ℕ) : Prop :=
  ∃ x ∈ (w.processor.subscribers.erase peerId).pairs, x.2 = c

/-- The operation takes no subscriber with a feedback source from its last id, unless it destroys
the object, and no close comes late. -/
def Detaches (w : Room) : RoomEvent → Prop
  | .addSubscriber c peerId => ∀ d ∈ w.processor.subscribers.find peerId, d ≠ c →
      (w.objects d).hasFeedbackSource = true → w.Referred d → w.Elsewhere peerId d
  | .removeSubscriber peerId => ∀ d ∈ w.processor.subscribers.find peerId,
      (w.objects d).hasFeedbackSource = true →
        (w.objects d).isWebRtcConnection = true ∨ w.Referred d → w.Elsewhere peerId d
  | .task c => c ∈ w.tasks → (w.objects c).sending = true →
      (w.objects c).hasFeedbackSource = true → ¬w.Subscribed c
  | _ => True

instance (w : Room) (peerId : String) (c : ℕ) : Decidable (w.Elsewhere peerId c) :=
  inferInstanceAs (Decidable (∃ _ ∈ _, _ = _))

instance (w : Room) : ∀ e, Decidable (w.Detaches e)
  | .addSubscriber _ _ => inferInstanceAs (Decidable (∀ _ ∈ _, _ → _ → _ → _))
  | .removeSubscriber _ => inferInstanceAs (Decidable (∀ _ ∈ _, _ → _ → _))
  | .task _ => inferInstanceAs (Decidable (_ → _ → _ → ¬_))
  | .setPublisher _ | .closeAll | .release _ => isTrue trivial

variable {w w' : Room} {c d : ℕ} {peerId : String} {e : RoomEvent}

theorem subscribed_iff : w.Subscribed c ↔ ∃ q, w.processor.subscribers.find q = some c := by
  constructor
  · rintro ⟨x, hx, rfl⟩
    exact ⟨x.1, StdMap.find_of_mem_pairs hx⟩
  · rintro ⟨q, hq⟩
    exact ⟨(q, c), StdMap.mem_pairs_of_find hq, rfl⟩

theorem elsewhere_iff : w.Elsewhere peerId c ↔
    ∃ q ≠ peerId, w.processor.subscribers.find q = some c := by
  constructor
  · rintro ⟨x, hx, rfl⟩
    have hf := StdMap.find_of_mem_pairs hx
    rw [StdMap.find_erase] at hf
    split_ifs at hf with hq
    exact ⟨x.1, hq, hf⟩
  · rintro ⟨q, hq, hf⟩
    refine ⟨(q, c), StdMap.mem_pairs_of_find ?_, rfl⟩
    rw [StdMap.find_erase, if_neg hq, hf]

/-- A subscriber is subscribed under the id or elsewhere. -/
theorem subscribed_iff_or (peerId : String) : w.Subscribed c ↔
    w.processor.subscribers.find peerId = some c ∨ w.Elsewhere peerId c := by
  rw [subscribed_iff, elsewhere_iff]
  constructor
  · rintro ⟨q, hq⟩
    by_cases hp : q = peerId
    · exact .inl (hp ▸ hq)
    · exact .inr ⟨q, hp, hq⟩
  · rintro (h | ⟨q, -, h⟩)
    · exact ⟨peerId, h⟩
    · exact ⟨q, h⟩

/-- Nothing is out of step when objects are destroyed or other references change. -/
theorem Wired.mono (hw : w.Wired) (hobjects : w'.objects = w.objects)
    (hsubscribers : w'.processor.subscribers = w.processor.subscribers)
    (halive : ∀ c, w'.Alive c → w.Alive c) : w'.Wired := by
  intro c hc hfb
  rw [hobjects] at hfb ⊢
  rw [hw c (halive c hc) hfb, subscribed_iff, subscribed_iff, hsubscribers]

theorem Wired.setPublisher (hw : w.Wired) (hc : w.Alive c) : (w.setPublisher c).Wired := by
  refine hw.mono rfl rfl fun d hd => ?_
  rcases hd with (h | h | h) | h
  · exact .inl (.inl h)
  · exact .inl (.inr (.inl h))
  · exact Option.some.inj h ▸ hc
  · exact .inr h

/-! ### Subscribers that come and go -/

theorem addSubscriber_cases (h : w.addSubscriber c peerId = some w') :
    ∃ s : Endpoint, s.hasFeedbackSource = (w.objects c).hasFeedbackSource ∧
      (s.hasFeedbackSource = true → s.fbSink = some .processor) ∧
      w' = { w with
        objects := Function.update w.objects c s
        processor := { w.processor with
          subscribers := (w.processor.subscribers.erase peerId).assign peerId c } } := by
  obtain ⟨p, -, h⟩ := Option.bind_eq_some_iff.mp h
  have h := (Option.some.inj h).symm
  cases hfb : (w.objects c).hasFeedbackSource with
  | true =>
    refine ⟨{ w.objects c with
      audioSinkSSRC := (w.objects p).audioSourceSSRC, videoSinkSSRC := (w.objects p).videoSourceSSRC
      fbSink := some .processor }, hfb, fun _ => rfl, ?_⟩
    simpa [update, Endpoint.setFeedbackSink, hfb] using h
  | false =>
    refine ⟨{ w.objects c with
      audioSinkSSRC := (w.objects p).audioSourceSSRC, videoSinkSSRC := (w.objects p).videoSourceSSRC },
      hfb, fun hs => ?_, ?_⟩
    · simp [hfb] at hs
    · simpa [update, hfb] using h

theorem Wired.addSubscriber_iff (hw : w.Wired) (hc : w.Alive c)
    (h : w.addSubscriber c peerId = some w') :
    w'.Wired ↔ w.Detaches (.addSubscriber c peerId) := by
  obtain ⟨s, hs, hsink, rfl⟩ := addSubscriber_cases h
  set w' : Room := { w with
    objects := Function.update w.objects c s
    processor := { w.processor with
      subscribers := (w.processor.subscribers.erase peerId).assign peerId c } } with hw'
  have hfind (q : String) : w'.processor.subscribers.find q =
      if q = peerId then some c else w.processor.subscribers.find q := by
    rw [hw', StdMap.find_assign, StdMap.find_erase]
    split_ifs <;> rfl
  have hsub : w'.Subscribed c := subscribed_iff.mpr ⟨peerId, by rw [hfind, if_pos rfl]⟩
  have hother (d : ℕ) (hd : d ≠ c) : w'.Subscribed d ↔ w.Elsewhere peerId d := by
    rw [subscribed_iff, elsewhere_iff]
    refine exists_congr fun q => ?_
    rw [hfind]
    split_ifs with hq
    · simp [hq, hd.symm]
    · simp [hq]
  have hobj (d : ℕ) (hd : d ≠ c) : w'.objects d = w.objects d := Function.update_of_ne hd ..
  constructor
  · intro hwired d hd hdc hfb hr
    have hsubd : w.Subscribed d := subscribed_iff.mpr ⟨peerId, hd⟩
    have hsink : (w'.objects d).fbSink = some .processor := by
      rw [hobj d hdc]
      exact (hw d (.inl hr) hfb).mpr hsubd
    exact (hother d hdc).mp ((hwired d (.inl hr) (by rw [hobj d hdc]; exact hfb)).mp hsink)
  · intro hdet d hd hfb
    by_cases hdc : d = c
    · subst hdc
      have hself : w'.objects d = s := Function.update_self ..
      rw [hself] at hfb ⊢
      exact iff_of_true (hsink hfb) hsub
    · have halive : w.Alive d := hd.imp_right fun h =>
        (subscribed_iff_or peerId).mpr (.inr ((hother d hdc).mp h))
      rw [hobj d hdc] at hfb ⊢
      rw [hw d halive hfb, hother d hdc, subscribed_iff_or peerId, or_iff_right_iff_imp]
      intro hp
      rcases hd with hr | hs
      · exact hdet d hp hdc hfb hr
      · exact (hother d hdc).mp hs

theorem removeSubscriber_of_none (hf : w.processor.subscribers.find peerId = none) :
    w.removeSubscriber peerId = w := by
  simp [removeSubscriber, hf]

/-- The subscriber is still referred to if it has a close to come. -/
theorem removeSubscriber_spec (hf : w.processor.subscribers.find peerId = some c) :
    (w.removeSubscriber peerId).objects = w.objects ∧
    (∀ d, (w.removeSubscriber peerId).Subscribed d ↔ w.Elsewhere peerId d) ∧
    ∀ d, (w.removeSubscriber peerId).Referred d ↔
      (d = c ∧ (w.objects c).isWebRtcConnection = true) ∨ w.Referred d := by
  simp only [removeSubscriber, hf, deleteAsync]
  split_ifs with h
  · refine ⟨rfl, fun d => Iff.rfl, fun d => ?_⟩
    simp only [Referred, List.mem_append, List.mem_singleton, h, and_true]
    tauto
  · refine ⟨rfl, fun d => Iff.rfl, fun d => ?_⟩
    simp [Referred, h]

theorem Wired.removeSubscriber_iff (hw : w.Wired) (peerId : String) :
    (w.removeSubscriber peerId).Wired ↔ w.Detaches (.removeSubscriber peerId) := by
  cases hf : w.processor.subscribers.find peerId with
  | none =>
    rw [removeSubscriber_of_none hf]
    exact iff_of_true hw fun d hd => absurd (hf.symm.trans hd) (by simp)
  | some c =>
    obtain ⟨hobj, hsub, href⟩ := removeSubscriber_spec hf
    have hc : w.Subscribed c := subscribed_iff.mpr ⟨peerId, hf⟩
    constructor
    · intro hwired d hd hfb hr
      obtain rfl : c = d := Option.some.inj (hf.symm.trans hd)
      have hr' : (w.removeSubscriber peerId).Referred c :=
        (href c).mpr (hr.imp_left fun h => ⟨rfl, h⟩)
      refine (hsub c).mp ((hwired c (.inl hr') (by rw [hobj]; exact hfb)).mp ?_)
      rw [hobj]
      exact (hw c (.inr hc) hfb).mpr hc
    · intro hdet d hd hfb
      have halive : w.Alive d := by
        rcases hd with hr | hs
        · rcases (href d).mp hr with ⟨rfl, -⟩ | hr
          · exact .inr hc
          · exact .inl hr
        · exact .inr ((subscribed_iff_or peerId).mpr (.inr ((hsub d).mp hs)))
      rw [hobj] at hfb ⊢
      rw [hw d halive hfb, hsub, subscribed_iff_or peerId, or_iff_right_iff_imp]
      intro hp
      rcases hd with hr | hs
      · refine hdet d hp hfb (((href d).mp hr).imp_left ?_)
        rintro ⟨rfl, h⟩
        exact h
      · exact (hsub d).mp hs

/-! ### Closing -/

/-- What a close leaves of the object. -/
theorem Endpoint.close_spec (s : Endpoint) : s.close.hasFeedbackSource = s.hasFeedbackSource ∧
    s.close.fbSink = if s.sending then none else s.fbSink := by
  unfold Endpoint.close
  cases s.sending with
  | true => exact ⟨rfl, rfl⟩
  | false => exact ⟨rfl, rfl⟩

theorem Wired.task_iff (hw : w.Wired) (c : ℕ) : (w.task c).Wired ↔ w.Detaches (.task c) := by
  by_cases hc : c ∈ w.tasks
  swap
  · rw [task, if_neg hc]
    exact iff_of_true hw fun h => absurd h hc
  rw [task, if_pos hc]
  set w' := { w with tasks := w.tasks.erase c }.update c .close with hw'
  have hsub (d : ℕ) : w'.Subscribed d ↔ w.Subscribed d := Iff.rfl
  have halive (d : ℕ) (hd : w'.Alive d) : w.Alive d := by
    rcases hd with (h | h | h) | h
    · exact .inl (.inl h)
    · exact .inl (.inr (.inl (List.mem_of_mem_erase h)))
    · exact .inl (.inr (.inr h))
    · exact .inr h
  have hself : w'.objects c = (w.objects c).close := Function.update_self ..
  have hobj (d : ℕ) (hd : d ≠ c) : w'.objects d = w.objects d := Function.update_of_ne hd ..
  obtain ⟨hfb', hsink'⟩ := Endpoint.close_spec (w.objects c)
  constructor
  · intro hwired _ hsend hfb hs
    have h := (hwired c (.inr hs) (by rw [hself, hfb']; exact hfb)).mpr hs
    rw [hself, hsink', if_pos hsend] at h
    cases h
  · intro hdet d hd hfb
    by_cases hdc : d = c
    · subst hdc
      rw [hself, hfb'] at hfb
      rw [hself, hsink']
      split_ifs with hsend
      · exact iff_of_false (by simp) (hdet hc hsend hfb)
      · exact hw d (halive d hd) hfb
    · rw [hobj d hdc] at hfb ⊢
      exact hw d (halive d hd) hfb

/-- An object is left as it is but for its sink, which is gone if it is one of those. -/
structure Closes (w w' : Room) (closed : List ℕ) : Prop where
  subscribers : w'.processor.subscribers = w.processor.subscribers
  publisher : ∀ p, w'.processor.publisher = some p → w.processor.publisher = some p
  held : w'.held = w.held
  tasks : w'.tasks = w.tasks
  hasFeedbackSource : ∀ d, (w'.objects d).hasFeedbackSource = (w.objects d).hasFeedbackSource
  sink : ∀ d, (w'.objects d).fbSink = (w.objects d).fbSink ∨ (w'.objects d).fbSink = none
  closed : ∀ d ∈ closed, (w.objects d).hasFeedbackSource = true → (w'.objects d).fbSink = none

theorem Closes.trans {v : Room} {l m : List ℕ} (h : Closes v w l) (h' : Closes w w' m) :
    Closes v w' (l ++ m) where
  subscribers := h'.subscribers.trans h.subscribers
  publisher p hp := h.publisher p (h'.publisher p hp)
  held := h'.held.trans h.held
  tasks := h'.tasks.trans h.tasks
  hasFeedbackSource d := (h'.hasFeedbackSource d).trans (h.hasFeedbackSource d)
  sink d := by
    rcases h'.sink d with h1 | h1
    · rw [h1]
      exact h.sink d
    · exact .inr h1
  closed d hd hfb := by
    rcases List.mem_append.mp hd with hd | hd
    · rcases h'.sink d with h1 | h1
      · rw [h1]
        exact h.closed d hd hfb
      · exact h1
    · exact h'.closed d hd ((h.hasFeedbackSource d).trans hfb)

theorem deleteAndWait_closes (w : Room) (c : ℕ) : Closes w (w.deleteAndWait c) [] := by
  obtain ⟨hfb, hsink⟩ := Endpoint.close_spec (w.objects c)
  unfold deleteAndWait
  split_ifs
  · refine ⟨rfl, fun _ => id, rfl, rfl, fun d => ?_, fun d => ?_, by simp⟩
    · by_cases hd : d = c
      · simp [update, hd, hfb]
      · simp [update, hd]
    · by_cases hd : d = c
      · simp only [update, hd, Function.update_self, hsink]
        split_ifs
        · exact .inr rfl
        · exact .inl rfl
      · simp [update, hd]
  · exact ⟨rfl, fun _ => id, rfl, rfl, fun _ => rfl, fun _ => .inl rfl, by simp⟩

theorem closeSubscriber_closes (w : Room) (c : ℕ) : Closes w (w.closeSubscriber c) [c] := by
  have h := deleteAndWait_closes w c
  have hreset : Closes (w.deleteAndWait c) (w.closeSubscriber c) [c] := by
    simp only [closeSubscriber]
    split_ifs with hfb
    · refine ⟨rfl, fun _ => id, rfl, rfl, fun d => ?_, fun d => ?_, fun d hd _ => ?_⟩
      · by_cases hd : d = c
        · simp [update, hd, Endpoint.setFeedbackSink]
        · simp [update, hd]
      · by_cases hd : d = c
        · exact .inr (by simp [update, hd, Endpoint.setFeedbackSink])
        · exact .inl (by simp [update, hd])
      · rw [List.mem_singleton.mp hd]
        simp [update, Endpoint.setFeedbackSink]
    · refine ⟨rfl, fun _ => id, rfl, rfl, fun _ => rfl, fun _ => .inl rfl, fun d hd hfb' => ?_⟩
      rw [List.mem_singleton.mp hd, h.hasFeedbackSource] at hfb'
      exact absurd hfb' hfb
  exact h.trans hreset

theorem foldl_closes (l : List ℕ) (w : Room) : Closes w (l.foldl closeSubscriber w) l := by
  induction l generalizing w with
  | nil => exact ⟨rfl, fun _ => id, rfl, rfl, fun _ => rfl, fun _ => .inl rfl, by simp⟩
  | cons c l ih => exact (closeSubscriber_closes w c).trans (ih _)

/-- `closeAll` up to the end of its loop. -/
theorem closeAll_closes (w : Room) : ∃ v, Closes w v (w.processor.subscribers.pairs.map Prod.snd) ∧
    v.processor.publisher = none ∧
    w.closeAll = { v with processor := { v.processor with subscribers := .empty } } := by
  set v : Room := match w.processor.publisher with
    | none => w
    | some p => w.deleteAndWait p with hv
  have hpub : Closes w v [] := by
    rw [hv]
    split
    · exact ⟨rfl, fun _ => id, rfl, rfl, fun _ => rfl, fun _ => .inl rfl, by simp⟩
    · exact deleteAndWait_closes w _
  set u : Room := { v with processor := { v.processor with feedbackSink := none, publisher := none } }
    with hu
  have hreset : Closes v u [] :=
    ⟨rfl, by simp [hu], rfl, rfl, fun _ => rfl, fun _ => .inl rfl, by simp⟩
  have hloop := foldl_closes (u.processor.subscribers.pairs.map Prod.snd) u
  have hall := (hpub.trans hreset).trans hloop
  rw [(hpub.trans hreset).subscribers, List.append_nil, List.nil_append] at hall
  refine ⟨(w.processor.subscribers.pairs.map Prod.snd).foldl closeSubscriber u, hall, ?_, ?_⟩
  · rw [(hpub.trans hreset).subscribers] at hloop
    exact Option.eq_none_iff_forall_ne_some.mpr fun p hp => by simpa [hu] using hloop.publisher p hp
  · rw [← (hpub.trans hreset).subscribers]
    rfl

/-- After `closeAll` nothing refers to the processor. -/
theorem Wired.closeAll (hw : w.Wired) : w.closeAll.Wired := by
  obtain ⟨v, hv, hpub, hclose⟩ := closeAll_closes w
  rw [hclose]
  intro d hd hfb
  have hnot : ¬({ v with processor := { v.processor with subscribers := .empty } } : Room).Subscribed d := by
    simp [Subscribed, StdMap.empty]
  have halive : w.Alive d := by
    rcases hd with (h | h | h) | h
    · exact .inl (.inl (by rw [← hv.held]; exact h))
    · exact .inl (.inr (.inl (by rw [← hv.tasks]; exact h)))
    · exact absurd (hpub.symm.trans h) (by simp)
    · exact absurd h hnot
  refine iff_of_false (fun hsink => ?_) hnot
  have hfb' : (w.objects d).hasFeedbackSource = true := (hv.hasFeedbackSource d).symm.trans hfb
  have hsink : (v.objects d).fbSink = some .processor := hsink
  rcases hv.sink d with h | h
  · obtain ⟨x, hx, rfl⟩ := (hw d halive hfb').mp (h.symm.trans hsink)
    have hnone := hv.closed x.2 (List.mem_map_of_mem hx) hfb'
    rw [hsink] at hnone
    cases hnone
  · rw [hsink] at h
    cases h

/-! ### Runs -/

/-- An operation keeps the feedback sources in step with the subscribers if and only if it detaches
the subscribers it takes away. -/
theorem Wired.step_iff (hw : w.Wired) (h : w.step e = some w') : w'.Wired ↔ w.Detaches e := by
  cases e with
  | setPublisher p =>
    obtain ⟨hp, h⟩ := Option.ite_none_right_eq_some.mp h
    exact iff_of_true (Option.some.inj h ▸ hw.setPublisher hp) trivial
  | addSubscriber c peerId =>
    obtain ⟨hc, h⟩ := Option.ite_none_right_eq_some.mp h
    exact hw.addSubscriber_iff hc h
  | removeSubscriber peerId => exact Option.some.inj h ▸ hw.removeSubscriber_iff peerId
  | closeAll => exact iff_of_true (Option.some.inj h ▸ hw.closeAll) trivial
  | task c => exact Option.some.inj h ▸ hw.task_iff c
  | release c =>
    refine iff_of_true (Option.some.inj h ▸ hw.mono rfl rfl fun d hd => ?_) trivial
    rcases hd with (h | h) | h
    · by_cases hdc : d = c
      · subst hdc
        simp at h
      · exact .inl (.inl (by simpa [Function.update_of_ne hdc] using h))
    · exact .inl (.inr h)
    · exact .inr h

/-- A step of a run, which ends where a step has no result. -/
def advance (o : Option Room) (e : RoomEvent) : Option Room × Unit := (o.bind fun w => w.step e, ())

/-- Every feedback source refers to the processor exactly while it is subscribed, in all states of
a run, if and only if every operation of the run detaches the subscribers it takes away. -/
theorem wired_run_iff (hw : w.Wired) (es : List RoomEvent) :
    Runs.Steps advance (fun o e => ∀ w ∈ o, ∀ w' ∈ w.step e, w'.Wired) (some w) es ↔
      Runs.Steps advance (fun o e => ∀ w ∈ o, ∀ w' ∈ w.step e, w.Detaches e) (some w) es := by
  have hstart : ∀ v ∈ some w, v.Wired := fun v hv => Option.some.inj hv ▸ hw
  have hnext (o : Option Room) (e : RoomEvent) (h : ∀ w ∈ o, ∀ w' ∈ w.step e, w'.Wired) :
      ∀ v ∈ (advance o e).1, v.Wired := by
    intro v hv
    obtain ⟨u, hu, hv⟩ := Option.bind_eq_some_iff.mp hv
    exact h u hu v hv
  have hiff (o : Option Room) (e : RoomEvent) (ho : ∀ w ∈ o, w.Wired) :
      (∀ w ∈ o, ∀ w' ∈ w.step e, w'.Wired) ↔ ∀ w ∈ o, ∀ w' ∈ w.step e, w.Detaches e :=
    forall₂_congr fun w hwo => forall₂_congr fun w' hw' => (ho w hwo).step_iff hw'
  exact ⟨Runs.Steps.imp_of_invariant (fun o e _ h => hnext o e h) (fun o e ho h => (hiff o e ho).mp h)
      hstart,
    Runs.Steps.imp_of_invariant (fun o e ho h => hnext o e ((hiff o e ho).mpr h))
      (fun o e ho h => (hiff o e ho).mpr h) hstart⟩

/-- A new processor, with the objects of the application. -/
def start (objects : ℕ → Endpoint) (held : ℕ → Bool) : Room := { objects := objects, held := held }

theorem Wired.start {objects : ℕ → Endpoint} {held : ℕ → Bool}
    (h : ∀ c, (objects c).fbSink ≠ some .processor) : (start objects held).Wired :=
  fun c _ _ => iff_of_false (h c) (by simp [Subscribed, Room.start, StdMap.empty])

/-- A connection is subscribed under two ids and taken from one of them, then all are closed. -/
theorem wired_run_closeAll :
    Runs.Steps advance (fun o e => ∀ w ∈ o, ∀ w' ∈ w.step e, w'.Wired)
      (some (start (fun _ => {}) fun _ => true))
      [.setPublisher 0, .addSubscriber 1 "a", .addSubscriber 1 "b", .addSubscriber 2 "c",
        .removeSubscriber "a", .closeAll, .task 1] :=
  (wired_run_iff (.start (by simp)) _).mpr (by decide)

/-- A connection whose id is given to another one still refers to the processor. -/
theorem not_wired_run : ¬∀ w : Room, w.Wired → ∀ es,
    Runs.Steps advance (fun o e => ∀ w ∈ o, ∀ w' ∈ w.step e, w'.Wired) (some w) es := by
  intro h
  let w : Room := start (fun _ => {}) fun _ => true
  let es : List RoomEvent := [.setPublisher 0, .addSubscriber 1 "a"]
  have hrun := h w (.start (by simp)) (es ++ [.addSubscriber 2 "a"])
  have hstate : ((Runs.final advance (some w) es).any fun v =>
      (v.step (.addSubscriber 2 "a")).any fun w' => w'.Alive 1 ∧
        (w'.objects 1).hasFeedbackSource = true ∧ (w'.objects 1).fbSink = some .processor ∧
        ¬w'.Subscribed 1) = true := by decide
  obtain ⟨v, hv, hstep⟩ := (Option.any_eq_true _ _).mp hstate
  obtain ⟨w', hw', hleft⟩ := (Option.any_eq_true _ _).mp hstep
  obtain ⟨halive, hfb, hsink, hnot⟩ := of_decide_eq_true hleft
  have hwired := (Runs.steps_append.mp hrun).2.1 v hv w' hw'
  exact hnot ((hwired 1 halive hfb).mp hsink)

end Room

end KkLicode.Media
