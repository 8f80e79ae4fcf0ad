import Mathlib.Data.List.Sort
import KkLicode.Base.Double
import KkLicode.Base.Runs
import KkLicode.Base.Serial
import KkLicode.Rtp.DataPacket

/-! `RtpPacketQueue`, the jitter buffer of the recorder. Packets are kept from the
newest to the oldest by a comparison that wraps. As long as the numbers in play
lie in half a lap, the comparison is a linear order there and the search for the
place of a packet is insertion into a sorted list. -/

namespace KkLicode.Rtp

open Base Base.Serial Base.Double

/-- A packet of the queue; `ptr` tells the objects apart. -/
structure QueuedPacket where
  ptr : ℕ
  header : RtpHeader
  payload : List UInt8
  deriving DecidableEq, Repr

structure RtpPacketQueue where
  lastSequenceNumberGiven : ℤ
  timebase : UInt32
  depthInSeconds : ℚ
  maxDepthInSeconds : ℚ
  /-- The newest packet is the first. -/
  queue : List QueuedPacket
  /-- The packets allocated so far. -/
  allocated : ℕ

namespace RtpPacketQueue

def DEFAULT_DEPTH : ℚ := 3
def DEFAULT_MAX : ℚ := 5

/-- The constructor. -/
def new (depthInSeconds maxDepthInSeconds : ℚ) : RtpPacketQueue :=
  let (depth, max) :=
    if maxDepthInSeconds ≤ depthInSeconds then (DEFAULT_DEPTH, DEFAULT_MAX)
    else (depthInSeconds, maxDepthInSeconds)
  { lastSequenceNumberGiven := -1
    timebase := 0
    depthInSeconds := depth
    maxDepthInSeconds := max
    queue := []
    allocated := 0 }

/-- Implements `x < y`, taking into account RTP sequence number wrap. -/
def rtpSequenceLessThan (x y : UInt16) : Bool :=
  let diff : ℤ := y.toNat - x.toNat
  if diff > 0 then diff < 0x8000
  else if diff < 0 then diff < -0x8000
  else false

/-- Without a timebase, or with one packet, the depth is zero. -/
def getDepthInSeconds (q : RtpPacketQueue) : ℚ :=
  match q.queue with
  | newest :: p :: rest =>
    if 0 < q.timebase then
      let oldest := (p :: rest).getLast (by simp)
      toDouble ((newest.header.timestamp - oldest.header.timestamp).toNat / q.timebase.toNat)
    else 0
  | _ => 0

/-- The search for the place of a packet. -/
def insertPacket (packet : QueuedPacket) : List QueuedPacket → List QueuedPacket
  | [] => [packet]
  | p :: rest =>
    if p.header.seqNumber = packet.header.seqNumber then p :: rest
    else if rtpSequenceLessThan p.header.seqNumber packet.header.seqNumber then
      packet :: p :: rest
    else p :: insertPacket packet rest

/-- The loop that enforces the maximal depth; `n` is the number of packets. The oldest
packet of an empty queue is undefined. -/
def discardOldest : ℕ → RtpPacketQueue → Option RtpPacketQueue
  | 0, q => if q.getDepthInSeconds > q.maxDepthInSeconds then none else some q
  | n + 1, q =>
    if q.getDepthInSeconds > q.maxDepthInSeconds then
      discardOldest n { q with queue := q.queue.dropLast }
    else some q

/-- The number is not after the one given out last. -/
def TooLate (q : RtpPacketQueue) (n : UInt16) : Prop :=
  0 ≤ q.lastSequenceNumberGiven ∧
    (rtpSequenceLessThan n (UInt16.ofInt q.lastSequenceNumberGiven) ∨
      (n.toNat : ℤ) = q.lastSequenceNumberGiven)

instance (q : RtpPacketQueue) (n : UInt16) : Decidable (q.TooLate n) :=
  inferInstanceAs (Decidable (_ ∧ _))

/-- The queue with a new packet in its place. -/
def place (q : RtpPacketQueue) (header : RtpHeader) (payload : List UInt8) : RtpPacketQueue :=
  { q with
    queue := insertPacket ⟨q.allocated, header, payload⟩ q.queue
    allocated := q.allocated + 1 }

def pushPacket (q : RtpPacketQueue) (header : RtpHeader) (payload : List UInt8) :
    Option RtpPacketQueue :=
  if q.TooLate header.seqNumber then some q
  else discardOldest (q.place header payload).queue.length (q.place header payload)

def popPacket (q : RtpPacketQueue) (ignoreDepth : Bool) : RtpPacketQueue × Option QueuedPacket :=
  match q.queue.getLast? with
  | some packet =>
    if ignoreDepth ∨ q.getDepthInSeconds > q.depthInSeconds then
      ({ q with
          queue := q.queue.dropLast
          lastSequenceNumberGiven := packet.header.seqNumber.toNat }, some packet)
    else (q, none)
  | none => (q, none)

def setTimebase (q : RtpPacketQueue) (timebase : UInt32) : RtpPacketQueue :=
  { q with timebase := timebase }

def getSize (q : RtpPacketQueue) : ℕ := q.queue.length

def hasData (q : RtpPacketQueue) : Bool := q.getDepthInSeconds > q.depthInSeconds

/-- The calls that change the queue. -/
inductive Call where
  | pushPacket (header : RtpHeader) (payload : List UInt8)
  | popPacket (ignoreDepth : Bool)
  | setTimebase (timebase : UInt32)
  deriving DecidableEq, Repr

/-- A call, with the packet it returns. After undefined behaviour nothing follows. -/
def call : Option RtpPacketQueue → Call → Option RtpPacketQueue × Option QueuedPacket
  | some q, .pushPacket header payload => (q.pushPacket header payload, none)
  | some q, .popPacket ignoreDepth => ((q.popPacket ignoreDepth).1, (q.popPacket ignoreDepth).2)
  | some q, .setTimebase timebase => (q.setTimebase timebase, none)
  | none, _ => (none, none)

/-! ### The comparison -/

theorem rtpSequenceLessThan_iff {x y : UInt16} :
    rtpSequenceLessThan x y ↔ 0 < ahead x y ∧ ahead x y < 0x8000 := by
  have hx := x.toNat_lt
  have hy := y.toNat_lt
  simp only [rtpSequenceLessThan, ahead, UInt16.toNat_sub]
  split_ifs <;> simp <;> omega

/-- In a window of half a lap the numbers compare as their distances from its start. -/
theorem rtpSequenceLessThan_iff_ahead {base x y : UInt16} {width : ℕ} (hw : width < 2 ^ 15)
    (hx : ahead base x < width) (hy : ahead base y < width) :
    rtpSequenceLessThan x y ↔ ahead base x < ahead base y := by
  rw [rtpSequenceLessThan_iff]
  have := ahead_base base x y
  omega

variable {q q' : RtpPacketQueue} {header : RtpHeader} {payload : List UInt8}

/-- The number given out last. -/
def lastGiven (q : RtpPacketQueue) : Option UInt16 :=
  if 0 ≤ q.lastSequenceNumberGiven then some (UInt16.ofInt q.lastSequenceNumberGiven) else none

/-- The numbers that are queued, and the one given out last. -/
def numbers (q : RtpPacketQueue) : List UInt16 :=
  q.queue.map (·.header.seqNumber) ++ q.lastGiven.toList

/-- The new number and those of the queue lie within fewer than `2 ^ 15` consecutive numbers. -/
def Window (q : RtpPacketQueue) (n : UInt16) : Prop :=
  ∃ base : UInt16, ∃ width < 2 ^ 15, ∀ m ∈ n :: q.numbers, ahead base m < width

/-- The number is queued already. -/
def Duplicate (q : RtpPacketQueue) (n : UInt16) : Prop := ∃ p ∈ q.queue, p.header.seqNumber = n

instance (q : RtpPacketQueue) (n : UInt16) : Decidable (q.Duplicate n) :=
  inferInstanceAs (Decidable (∃ _ ∈ _, _))

/-! ### Order -/

/-- The queue is strictly ordered, and all of it comes after what was given out. -/
structure Ordered (q : RtpPacketQueue) : Prop where
  sorted : q.queue.Pairwise fun newer older =>
    rtpSequenceLessThan older.header.seqNumber newer.header.seqNumber
  after : ∀ n ∈ q.lastGiven, ∀ p ∈ q.queue, rtpSequenceLessThan n p.header.seqNumber
  range : q.lastSequenceNumberGiven < 65536

theorem Ordered.congr (h : q.Ordered) (hq : q'.queue <+: q.queue)
    (hl : q'.lastSequenceNumberGiven = q.lastSequenceNumberGiven) : q'.Ordered where
  sorted := h.sorted.sublist hq.sublist
  after n hn p hp := by
    rw [lastGiven, hl] at hn
    exact h.after n hn p (hq.subset hp)
  range := hl ▸ h.range

/-- A number that is not too late comes after the one given out last. -/
theorem Ordered.not_tooLate (h : q.Ordered) {n last : UInt16} (hn : ¬ q.TooLate n)
    (hlast : last ∈ q.lastGiven) (hw : q.Window n) : rtpSequenceLessThan last n := by
  obtain ⟨base, width, hw, hall⟩ := hw
  have hb : ahead base last < width :=
    hall last (List.mem_cons_of_mem _ (List.mem_append_right _ (by simpa using hlast)))
  have hn' := hall n List.mem_cons_self
  rw [lastGiven, Option.mem_def, Option.ite_none_right_eq_some, Option.some.injEq] at hlast
  obtain ⟨hpos, rfl⟩ := hlast
  rw [rtpSequenceLessThan_iff_ahead hw hb hn']
  rw [TooLate, rtpSequenceLessThan_iff_ahead hw hn' hb] at hn
  by_contra hle
  have heq : n = UInt16.ofInt q.lastSequenceNumberGiven := by
    refine eq_of_ahead_eq (c := base) ?_
    by_contra hne
    exact hn ⟨hpos, .inl (by omega)⟩
  have hr := h.range
  refine hn ⟨hpos, .inr ?_⟩
  lift q.lastSequenceNumberGiven to ℕ using hpos with k
  rw [heq]
  simp only [UInt16.ofInt, UInt16.toNat_ofNat']
  omega

section Insert

variable {packet : QueuedPacket} {l : List QueuedPacket} {base : UInt16} {width : ℕ}

/-- A number that is queued is found before the search ends. -/
theorem insertPacket_of_mem (hw : width < 2 ^ 15)
    (hall : ∀ p ∈ packet :: l, ahead base p.header.seqNumber < width)
    (hs : l.Pairwise fun newer older =>
      rtpSequenceLessThan older.header.seqNumber newer.header.seqNumber)
    (hmem : ∃ p ∈ l, p.header.seqNumber = packet.header.seqNumber) : insertPacket packet l = l := by
  induction l with
  | nil => simp at hmem
  | cons p rest ih =>
    rw [List.pairwise_cons] at hs
    by_cases heq : p.header.seqNumber = packet.header.seqNumber
    · rw [insertPacket, if_pos heq]
    · obtain ⟨d, hd, hdn⟩ : ∃ d ∈ rest, d.header.seqNumber = packet.header.seqNumber := by
        simpa [heq] using hmem
      have hle : ¬ rtpSequenceLessThan p.header.seqNumber packet.header.seqNumber := by
        have hlt := hs.1 d hd
        have hp := hall p (by simp)
        have hk := hall packet (by simp)
        rw [hdn, rtpSequenceLessThan_iff_ahead hw hk hp] at hlt
        rw [rtpSequenceLessThan_iff_ahead hw hp hk]
        omega
      rw [insertPacket, if_neg heq, if_neg hle,
        ih (fun x hx => hall x (by simp at hx ⊢; tauto)) hs.2 ⟨d, hd, hdn⟩]

/-- The order of the queue in the window, from the newest. -/
def Newer (base : UInt16) (p p' : QueuedPacket) : Prop :=
  ahead base p'.header.seqNumber ≤ ahead base p.header.seqNumber

instance (base : UInt16) : DecidableRel (Newer base) :=
  fun _ _ => inferInstanceAs (Decidable (_ ≤ _))

instance (base : UInt16) : IsTrans QueuedPacket (Newer base) := ⟨fun _ _ _ h h' => h'.trans h⟩

instance (base : UInt16) : Std.Total (Newer base) := ⟨fun _ _ => le_total _ _⟩

/-- Strictly ordered means ordered without a duplicate. -/
theorem sorted_iff (hw : width < 2 ^ 15) (hall : ∀ p ∈ l, ahead base p.header.seqNumber < width) :
    (l.Pairwise fun newer older =>
      rtpSequenceLessThan older.header.seqNumber newer.header.seqNumber) ↔
      l.Pairwise (Newer base) ∧ (l.map (·.header.seqNumber)).Nodup := by
  rw [List.Nodup, List.pairwise_map, ← List.pairwise_and_iff]
  refine List.Pairwise.iff_of_mem fun {_ p'} hp hp' => ?_
  rw [rtpSequenceLessThan_iff_ahead hw (hall p' hp') (hall _ hp), lt_iff_le_and_ne]
  refine and_congr_right fun _ => not_congr ⟨fun h => (eq_of_ahead_eq h).symm, fun h => ?_⟩
  rw [h]

/-- Any other number is inserted by the order of the window. -/
theorem insertPacket_eq_orderedInsert (hw : width < 2 ^ 15)
    (hall : ∀ p ∈ packet :: l, ahead base p.header.seqNumber < width)
    (hmem : ¬ ∃ p ∈ l, p.header.seqNumber = packet.header.seqNumber) :
    insertPacket packet l = l.orderedInsert (Newer base) packet := by
  induction l with
  | nil => rfl
  | cons p rest ih =>
    obtain ⟨heq, hrest⟩ : p.header.seqNumber ≠ packet.header.seqNumber ∧
        ¬ ∃ p ∈ rest, p.header.seqNumber = packet.header.seqNumber := by simpa using hmem
    have hne : ahead base p.header.seqNumber ≠ ahead base packet.header.seqNumber :=
      fun h => heq (eq_of_ahead_eq h)
    rw [insertPacket, if_neg heq, List.orderedInsert,
      ih (fun x hx => hall x (by simp at hx ⊢; tauto)) hrest]
    have hlt := rtpSequenceLessThan_iff_ahead hw (hall p (by simp)) (hall packet (by simp))
    exact if_congr (hlt.trans (by unfold Newer; omega)) rfl rfl

end Insert

/-- The packets in the window of a push. -/
theorem Window.packets (hw : q.Window header.seqNumber) (payload : List UInt8) :
    ∃ base : UInt16, ∃ width < 2 ^ 15,
      ∀ p ∈ ⟨q.allocated, header, payload⟩ :: q.queue, ahead base p.header.seqNumber < width := by
  obtain ⟨base, width, hw, hall⟩ := hw
  refine ⟨base, width, hw, fun p hp => ?_⟩
  rcases List.mem_cons.mp hp with rfl | hp
  · exact hall _ List.mem_cons_self
  · refine hall _ (List.mem_cons_of_mem _ (List.mem_append_left _ ?_))
    exact List.mem_map_of_mem hp

/-- The new packet is queued unless it is a duplicate. -/
theorem Ordered.place_perm (h : q.Ordered) (hw : q.Window header.seqNumber)
    (payload : List UInt8) :
    (q.place header payload).queue.Perm
      ((if q.Duplicate header.seqNumber then [] else [⟨q.allocated, header, payload⟩]) ++
        q.queue) := by
  obtain ⟨base, width, hw, hall⟩ := hw.packets payload
  split_ifs with hd
  · exact .of_eq (insertPacket_of_mem hw hall h.sorted hd)
  · rw [place, insertPacket_eq_orderedInsert hw hall hd]
    exact List.perm_orderedInsert ..

theorem Ordered.place_sorted (h : q.Ordered) (hw : q.Window header.seqNumber) :
    (q.place header payload).queue.Pairwise fun newer older =>
      rtpSequenceLessThan older.header.seqNumber newer.header.seqNumber := by
  have hperm := h.place_perm hw payload
  obtain ⟨base, width, hw, hall⟩ := hw.packets payload
  by_cases hd : q.Duplicate header.seqNumber
  · have heq : (q.place header payload).queue = q.queue :=
      insertPacket_of_mem hw hall h.sorted hd
    rw [heq]
    exact h.sorted
  rw [if_neg hd] at hperm
  obtain ⟨hsort, hnodup⟩ :=
    (sorted_iff hw fun p hp => hall p (List.mem_cons_of_mem _ hp)).mp h.sorted
  have heq : (q.place header payload).queue = q.queue.orderedInsert (Newer base) _ :=
    insertPacket_eq_orderedInsert hw hall hd
  rw [sorted_iff hw fun p hp => hall p (hperm.mem_iff.mp hp), heq]
  refine ⟨hsort.orderedInsert _ _, ?_⟩
  rw [← heq, (hperm.map _).nodup_iff]
  refine List.nodup_cons.mpr ⟨fun hmem => hd ?_, hnodup⟩
  simpa [Duplicate] using hmem

/-- A packet that is not too late keeps the order. -/
theorem Ordered.place (h : q.Ordered) (hw : q.Window header.seqNumber)
    (hl : ¬ q.TooLate header.seqNumber) (payload : List UInt8) : (q.place header payload).Ordered := by
  refine ⟨h.place_sorted hw, fun n hn p hp => ?_, h.range⟩
  rcases List.mem_append.mp ((h.place_perm hw payload).mem_iff.mp hp) with hp | hp
  · split_ifs at hp with hd
    · cases hp
    · rw [List.mem_singleton] at hp
      subst hp
      exact h.not_tooLate hl hn hw
  · exact h.after n hn p hp

/-! ### The depth -/

/-- What is discarded is the old end of the queue. -/
theorem discardOldest_eq_some {n : ℕ} (h : discardOldest n q = some q') :
    q'.queue <+: q.queue ∧ q' = { q with queue := q'.queue } := by
  induction n generalizing q with
  | zero =>
    rw [discardOldest, Option.ite_none_left_eq_some, Option.some.injEq] at h
    obtain ⟨-, rfl⟩ := h
    exact ⟨List.prefix_refl _, rfl⟩
  | succ n ih =>
    rw [discardOldest] at h
    split_ifs at h with hd
    · obtain ⟨hp, heq⟩ := ih h
      exact ⟨hp.trans (List.dropLast_prefix _), heq⟩
    · obtain rfl := Option.some.inj h
      exact ⟨List.prefix_refl _, rfl⟩

/-- A queue of at most one packet is not discarded from, if the maximum is not negative. -/
theorem discardOldest_ne_none (hmax : 0 ≤ q.maxDepthInSeconds) {n : ℕ}
    (hn : q.queue.length ≤ n) : discardOldest n q ≠ none := by
  induction n generalizing q with
  | zero =>
    have hq : q.queue = [] := List.length_eq_zero_iff.mp (Nat.le_zero.mp hn)
    have hd : ¬ q.getDepthInSeconds > q.maxDepthInSeconds := by
      rw [getDepthInSeconds, hq]
      exact not_lt.mpr hmax
    rw [discardOldest, if_neg hd]
    exact Option.some_ne_none _
  | succ n ih =>
    rw [discardOldest]
    split_ifs
    · refine ih hmax ?_
      rw [List.length_dropLast]
      exact Nat.sub_le_of_le_add hn
    · exact Option.some_ne_none _

end RtpPacketQueue

end KkLicode.Rtp
