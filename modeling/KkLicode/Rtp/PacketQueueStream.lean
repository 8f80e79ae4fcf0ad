import Mathlib.Data.List.Chain
import KkLicode.Rtp.RtpPacketQueue

/-! What becomes of the packets of an `RtpPacketQueue` over a run: those that were
taken in are queued, were given out in order, or were discarded for the depth. -/

namespace KkLicode.Rtp.RtpPacketQueue

open Base Base.Serial

variable {q q' : RtpPacketQueue} {accepted popped dropped : List QueuedPacket}

/-- A push meets its window. -/
def Windowed : Option RtpPacketQueue → Call → Prop
  | some q, .pushPacket header _ => q.Window header.seqNumber
  | _, _ => True

/-- The number of a push. -/
def Call.number : Call → Option UInt16
  | .pushPacket header _ => some header.seqNumber
  | _ => none

theorem windowed_of (base : UInt16) {width : ℕ} (hw : width < 2 ^ 15) {s : Option RtpPacketQueue}
    {c : Call}
    (h : ∀ q ∈ s, (c.number.toList ++ q.numbers).all (ahead base · < width)) : Windowed s c := by
  cases s with
  | none => exact trivial
  | some q =>
    cases c with
    | pushPacket header payload => exact ⟨base, width, hw, by simpa [Call.number] using h q rfl⟩
    | popPacket ignoreDepth => exact trivial
    | setTimebase timebase => exact trivial

/-- The packet of a push that is neither too late nor a duplicate. -/
def acceptedAt : Option RtpPacketQueue → Call → List QueuedPacket
  | some q, .pushPacket header payload =>
    if q.TooLate header.seqNumber ∨ q.Duplicate header.seqNumber then []
    else [⟨q.allocated, header, payload⟩]
  | _, _ => []

/-- The packet given out. -/
def poppedAt (s : Option RtpPacketQueue) (c : Call) : List QueuedPacket := (call s c).2.toList

/-- The packets a push discards for the depth. -/
def droppedAt : Option RtpPacketQueue → Call → List QueuedPacket
  | some q, .pushPacket header payload =>
    if q.TooLate header.seqNumber then []
    else
      match q.pushPacket header payload with
      | some q' => (q.place header payload).queue.drop q'.queue.length
      | none => []
  | _, _ => []

/-- The books of a run: the packets that were taken in, given out and discarded. -/
structure Accounts (accepted popped dropped : List QueuedPacket) (q : RtpPacketQueue) : Prop where
  ordered : q.Ordered
  balance : accepted.Perm (q.queue ++ popped ++ dropped)
  fresh : ∀ p ∈ accepted, p.ptr < q.allocated
  nodup : (accepted.map QueuedPacket.ptr).Nodup
  inOrder : popped.IsChain fun p p' => rtpSequenceLessThan p.header.seqNumber p'.header.seqNumber
  last : ∀ p ∈ popped.getLast?, q.lastGiven = some p.header.seqNumber

theorem Accounts.new (depth max : ℚ) : Accounts [] [] [] (new depth max) where
  ordered := ⟨.nil, by simp [RtpPacketQueue.new], by simp [RtpPacketQueue.new]⟩
  balance := .nil
  fresh := by simp
  nodup := by simp
  inOrder := .nil
  last := by simp

theorem Accounts.pushPacket (h : Accounts accepted popped dropped q) {header : RtpHeader}
    {payload : List UInt8} (hw : q.Window header.seqNumber)
    (hq : q.pushPacket header payload = some q') :
    Accounts (accepted ++ acceptedAt q (.pushPacket header payload)) popped
      (dropped ++ droppedAt q (.pushPacket header payload)) q' := by
  by_cases hl : q.TooLate header.seqNumber
  · rw [RtpPacketQueue.pushPacket, if_pos hl, Option.some.injEq] at hq
    subst hq
    simpa [acceptedAt, droppedAt, hl] using h
  have hdrop : droppedAt q (.pushPacket header payload) =
      (q.place header payload).queue.drop q'.queue.length := by
    rw [droppedAt, if_neg hl, hq]
  rw [RtpPacketQueue.pushPacket, if_neg hl] at hq
  obtain ⟨hpre, heq⟩ := discardOldest_eq_some hq
  have hord := (h.ordered.place hw hl payload).congr hpre (by rw [heq])
  have hplace := h.ordered.place_perm hw payload
  have hacc : acceptedAt q (.pushPacket header payload) =
      if q.Duplicate header.seqNumber then [] else [⟨q.allocated, header, payload⟩] := by
    rw [acceptedAt]
    exact if_congr (or_iff_right hl) rfl rfl
  rw [← hacc] at hplace
  have halloc : q'.allocated = q.allocated + 1 := by rw [heq]; rfl
  have hnew : ∀ p ∈ acceptedAt q (.pushPacket header payload), p.ptr = q.allocated := by
    rw [hacc]
    split_ifs
    · simp
    · simp
  refine ⟨hord, List.perm_iff_count.mpr fun p => ?_, fun p hp => ?_, ?_, h.inOrder, fun p hp => ?_⟩
  · have hbal := h.balance.count_eq p
    have hcut := congrArg (List.count p) (List.prefix_iff_eq_append.mp hpre)
    have hin := hplace.count_eq p
    rw [← hdrop] at hcut
    simp only [List.count_append] at hbal hcut hin ⊢
    omega
  · rw [halloc]
    rcases List.mem_append.mp hp with hp | hp
    · exact (h.fresh p hp).trans (Nat.lt_succ_self _)
    · rw [hnew p hp]
      exact Nat.lt_succ_self _
  · rw [List.map_append, List.nodup_append]
    refine ⟨h.nodup, ?_, ?_⟩
    · rw [hacc]
      split_ifs
      · exact List.nodup_nil
      · exact List.nodup_singleton _
    · intro n hn m hm
      obtain ⟨p, hp, rfl⟩ := List.mem_map.mp hn
      obtain ⟨p', hp', rfl⟩ := List.mem_map.mp hm
      rw [hnew p' hp']
      exact (h.fresh p hp).ne
  · rw [lastGiven, heq]
    exact h.last p hp

theorem Accounts.popPacket (h : Accounts accepted popped dropped q) (ignoreDepth : Bool) :
    Accounts accepted (popped ++ poppedAt q (.popPacket ignoreDepth)) dropped
      (q.popPacket ignoreDepth).1 := by
  rw [poppedAt, call, RtpPacketQueue.popPacket]
  cases hp : q.queue.getLast? with
  | none => simpa using h
  | some packet =>
    dsimp only
    split_ifs with hgive
    · have hq : q.queue = q.queue.dropLast ++ [packet] :=
        (List.dropLast_append_getLast? packet hp).symm
      have hlast : lastGiven { q with
          queue := q.queue.dropLast
          lastSequenceNumberGiven := packet.header.seqNumber.toNat } =
            some packet.header.seqNumber := by
        rw [lastGiven, if_pos (Int.natCast_nonneg _), ofInt_toNat]
      have hsort := h.ordered.sorted
      rw [hq, List.pairwise_append] at hsort
      refine ⟨⟨hsort.1, fun n hn p hp => ?_, ?_⟩, ?_, h.fresh, h.nodup, ?_, ?_⟩
      · rw [hlast, Option.mem_some_iff] at hn
        subst hn
        exact hsort.2.2 p hp packet List.mem_cons_self
      · have hlt := packet.header.seqNumber.toNat_lt
        show (packet.header.seqNumber.toNat : ℤ) < 65536
        omega
      · refine List.perm_iff_count.mpr fun p => ?_
        have hbal := h.balance.count_eq p
        rw [hq] at hbal
        simp only [List.count_append, Option.toList_some] at hbal ⊢
        omega
      · refine List.isChain_append.mpr ⟨h.inOrder, .singleton _, fun p hp' p' hp'' => ?_⟩
        obtain rfl : packet = p' := by simpa using hp''
        exact h.ordered.after _ (h.last p hp') packet (List.mem_of_getLast? hp)
      · intro p hp'
        rw [Option.toList_some, List.getLast?_append, List.getLast?_singleton, Option.some_or,
          Option.mem_some_iff] at hp'
        rw [hlast, hp']
    · simpa using h

theorem Accounts.setTimebase (h : Accounts accepted popped dropped q) (timebase : UInt32) :
    Accounts accepted popped dropped (q.setTimebase timebase) :=
  ⟨⟨h.ordered.sorted, h.ordered.after, h.ordered.range⟩, h.balance, h.fresh, h.nodup, h.inOrder,
    h.last⟩

/-- After undefined behaviour there is no queue. -/
theorem final_call_none (cs : List Call) : Runs.final call none cs = none := by
  induction cs with
  | nil => rfl
  | cons c cs ih => exact ih

theorem Accounts.call (h : Accounts accepted popped dropped q) {c : Call} (hw : Windowed q c)
    (hq : (RtpPacketQueue.call q c).1 = some q') :
    Accounts (accepted ++ acceptedAt q c) (popped ++ poppedAt q c) (dropped ++ droppedAt q c)
      q' := by
  cases c with
  | pushPacket header payload => simpa [poppedAt, RtpPacketQueue.call] using h.pushPacket hw hq
  | popPacket ignoreDepth =>
    obtain rfl := Option.some.inj hq
    simpa [acceptedAt, droppedAt] using h.popPacket ignoreDepth
  | setTimebase timebase =>
    obtain rfl := Option.some.inj hq
    simpa [acceptedAt, droppedAt, poppedAt, RtpPacketQueue.call] using h.setTimebase timebase

theorem Accounts.run (h : Accounts accepted popped dropped q) {cs : List Call}
    (hw : Runs.Steps RtpPacketQueue.call Windowed (some q) cs)
    (hq : Runs.final RtpPacketQueue.call (some q) cs = some q') :
    Accounts (accepted ++ Runs.collect RtpPacketQueue.call acceptedAt (some q) cs)
      (popped ++ Runs.collect RtpPacketQueue.call poppedAt (some q) cs)
      (dropped ++ Runs.collect RtpPacketQueue.call droppedAt (some q) cs) q' := by
  induction cs generalizing q accepted popped dropped with
  | nil =>
    obtain rfl := Option.some.inj hq
    simpa using h
  | cons c cs ih =>
    rw [Runs.final_cons] at hq
    simp only [Runs.collect_cons, ← List.append_assoc]
    cases hc : (RtpPacketQueue.call (some q) c).1 with
    | none =>
      rw [hc, final_call_none] at hq
      cases hq
    | some q₁ =>
      have hw₁ := hw.2
      rw [hc] at hq hw₁
      exact ih (h.call hw.1 hc) hw₁ hq

/-- A maximal depth that is not negative leaves every call defined. -/
theorem call_ne_none (hmax : 0 ≤ q.maxDepthInSeconds) (c : Call) :
    ∃ q₁, (call (some q) c).1 = some q₁ ∧ q₁.maxDepthInSeconds = q.maxDepthInSeconds := by
  cases c with
  | pushPacket header payload =>
    show ∃ q₁, q.pushPacket header payload = some q₁ ∧ _
    rw [pushPacket]
    split_ifs
    · exact ⟨q, rfl, rfl⟩
    · obtain ⟨q₁, hq₁⟩ := Option.ne_none_iff_exists'.mp
        (discardOldest_ne_none (q := q.place header payload) hmax le_rfl)
      refine ⟨q₁, hq₁, ?_⟩
      rw [(discardOldest_eq_some hq₁).2]
      rfl
  | popPacket ignoreDepth =>
    refine ⟨_, rfl, ?_⟩
    rw [popPacket]
    split <;> [split_ifs; skip] <;> rfl
  | setTimebase timebase => exact ⟨_, rfl, rfl⟩

theorem final_call_ne_none (hmax : 0 ≤ q.maxDepthInSeconds) (cs : List Call) :
    Runs.final call (some q) cs ≠ none := by
  induction cs generalizing q with
  | nil => exact Option.some_ne_none q
  | cons c cs ih =>
    obtain ⟨q₁, hq₁, hm⟩ := call_ne_none hmax c
    rw [Runs.final_cons, hq₁]
    exact ih (hm ▸ hmax)

/-- The queue is ordered, packets are given out in order, and every packet that was neither late,
nor a duplicate, nor discarded for the depth is queued or was given out, once. -/
theorem jitterBuffer (depth max : ℚ) (cs : List Call)
    (hw : Runs.Steps call Windowed (some (new depth max)) cs) :
    (0 ≤ (new depth max).maxDepthInSeconds →
      Runs.final call (some (new depth max)) cs ≠ none) ∧
    ∀ q, Runs.final call (some (new depth max)) cs = some q →
      let accepted := Runs.collect call acceptedAt (some (new depth max)) cs
      let popped := Runs.collect call poppedAt (some (new depth max)) cs
      let dropped := Runs.collect call droppedAt (some (new depth max)) cs
      (q.queue.Pairwise fun newer older =>
        rtpSequenceLessThan older.header.seqNumber newer.header.seqNumber) ∧
      (popped.IsChain fun p p' =>
        rtpSequenceLessThan p.header.seqNumber p'.header.seqNumber) ∧
      (accepted.map QueuedPacket.ptr).Nodup ∧
      accepted.Perm (q.queue ++ popped ++ dropped) ∧
      ∀ p ∈ accepted, p ∉ dropped → (q.queue ++ popped).count p = 1 := by
  refine ⟨fun hmax => final_call_ne_none hmax cs, fun q hq => ?_⟩
  have h := (Accounts.new depth max).run hw hq
  simp only [List.nil_append] at h
  refine ⟨h.ordered.sorted, h.inOrder, h.nodup, h.balance, fun p hp hd => ?_⟩
  have hone := h.balance.count_eq p
  rw [List.count_eq_one_of_mem h.nodup.of_map hp, List.count_append,
    List.count_eq_zero.mpr hd] at hone
  exact hone.symm

/-- Across the wrap, with a duplicate, a late packet and one too deep. -/
theorem jitterBuffer_wrap :
    let cs : List Call := [.setTimebase 1, .pushPacket { seqNumber := 1, timestamp := 2 } [],
      .pushPacket { seqNumber := 65535, timestamp := 0 } [], .popPacket true,
      .pushPacket { seqNumber := 0, timestamp := 1 } [],
      .pushPacket { seqNumber := 0, timestamp := 1 } [],
      .pushPacket { seqNumber := 65535, timestamp := 0 } [], .popPacket false,
      .pushPacket { seqNumber := 2, timestamp := 12 } [], .popPacket false, .popPacket true]
    ∃ q, Runs.final call (some (new 5 10)) cs = some q ∧
      (Runs.collect call poppedAt (some (new 5 10)) cs).map (·.header.seqNumber) =
        [65535, 1, 2] ∧
      ∀ p ∈ Runs.collect call acceptedAt (some (new 5 10)) cs,
        p ∉ Runs.collect call droppedAt (some (new 5 10)) cs →
        (q.queue ++ Runs.collect call poppedAt (some (new 5 10)) cs).count p = 1 := by
  intro cs
  have hw : Runs.Steps call Windowed (some (new 5 10)) cs :=
    Runs.Steps.imp (fun s c => windowed_of 65000 (show 1000 < 2 ^ 15 by decide)) (by decide +kernel)
  obtain ⟨q, hq⟩ := Option.ne_none_iff_exists'.mp ((jitterBuffer 5 10 cs hw).1 (by decide))
  obtain ⟨-, -, -, -, hone⟩ := (jitterBuffer 5 10 cs hw).2 q hq
  exact ⟨q, hq, by decide +kernel, hone⟩

end KkLicode.Rtp.RtpPacketQueue
