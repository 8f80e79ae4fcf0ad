import Mathlib.Data.List.Sort
import KkLicode.Rtp.RtcpPacket
import KkLicode.Rtp.SequenceNumberTranslator

/-! `RtcpNackGenerator`, which asks for the packets a stream skipped over. One
round over the list asks for entries, drops those asked for too often, and leaves
the rest; what the round writes is the list of numbers asked for, in order. -/

namespace KkLicode.Rtp

open Base Base.Serial

structure NackInfo where
  seqNum : UInt16
  retransmits : UInt16 := 0
  sentTime : UInt64 := 0
  deriving DecidableEq, Repr

structure RtcpNackGenerator where
  initialized : Bool := false
  highestSeqNum : UInt16 := 0
  ssrc : UInt32
  nackInfoList : List NackInfo := []
  deriving DecidableEq, Repr

namespace RtcpNackGenerator

def kMaxRetransmits : UInt16 := 2
def kMaxNacks : ℕ := 150
def kMinNackDelayMs : UInt64 := 20

/-- The numbers from `current` on, `n` of them. -/
def pushNacks : ℕ → UInt16 → List NackInfo → List NackInfo
  | 0, _, l => l
  | n + 1, current, l => pushNacks n (current + 1) (l ++ [{ seqNum := current }])

/-- The counter runs from after the highest number up to the new one; what is too much goes from
the end of the list. -/
def addNacks (g : RtcpNackGenerator) (seqNum : UInt16) : RtcpNackGenerator × Bool :=
  let l := pushNacks (seqNum - (g.highestSeqNum + 1)).toNat (g.highestSeqNum + 1) g.nackInfoList
  let l := l.take kMaxNacks
  ({ g with nackInfoList := l }, !l.isEmpty)

def handleRtpPacket (g : RtcpNackGenerator) (packet : DataPacket) : RtcpNackGenerator × Bool :=
  if packet.type ≠ .video then (g, false)
  else
    let seqNum := packet.header.seqNumber
    if packet.header.ssrc ≠ g.ssrc then (g, false)
    else if !g.initialized then ({ g with highestSeqNum := seqNum, initialized := true }, false)
    else if seqNum = g.highestSeqNum then (g, false)
    else if sequenceNumberLessThan seqNum g.highestSeqNum then
      ({ g with nackInfoList := g.nackInfoList.eraseP (·.seqNum = seqNum) }, false)
    else
      let (g, availableNacks) := g.addNacks seqNum
      ({ g with highestSeqNum := seqNum }, availableNacks)

def isTimeToRetransmit (nackInfo : NackInfo) (currentTimeMs : UInt64) : Bool :=
  nackInfo.sentTime = 0 || currentTimeMs - nackInfo.sentTime > kMinNackDelayMs

/-- The entry once it is asked for. -/
def retransmit (nackInfo : NackInfo) (nowMs : UInt64) : NackInfo :=
  { nackInfo with sentTime := nowMs, retransmits := nackInfo.retransmits + 1 }

/-- The inner loop over the entries behind `pid`, with the mask, the entries it went over and those
it left. After an erased entry the index already stands on the next one, which the loop then
steps over; the entry that ends the loop is stepped over by the outer loop. -/
def addBlp (nowMs : UInt64) (pid blp : UInt16) :
    List NackInfo → UInt16 × List NackInfo × List NackInfo
  | [] => (blp, [], [])
  | info :: rest =>
    let distance := info.seqNum - pid - 1
    if distance ≤ 15 then
      if !isTimeToRetransmit info nowMs then
        let (blp, seen, left) := addBlp nowMs pid blp rest
        (blp, info :: seen, left)
      else if info.retransmits ≥ kMaxRetransmits then
        match rest with
        | [] => (blp, [], [])
        | next :: rest =>
          let (blp, seen, left) := addBlp nowMs pid blp rest
          (blp, next :: seen, left)
      else
        let (blp, seen, left) := addBlp nowMs pid (blp ||| 1 <<< distance) rest
        (blp, retransmit info nowMs :: seen, left)
    else (blp, [info], rest)

/-- The outer loop over the entries from the index on; `n` is their number. -/
def addNackBlocks (nowMs : UInt64) : ℕ → List NackInfo → List NackInfo × List NackBlock
  | n + 1, info :: rest =>
    if !isTimeToRetransmit info nowMs then
      let (l, blocks) := addNackBlocks nowMs n rest
      (info :: l, blocks)
    else if info.retransmits ≥ kMaxRetransmits then addNackBlocks nowMs n rest
    else
      let pid := info.seqNum
      let (blp, seen, left) := addBlp nowMs pid 0 rest
      let (l, blocks) := addNackBlocks nowMs n left
      (retransmit info nowMs :: seen ++ l, ⟨pid, blp⟩ :: blocks)
  | _, l => (l, [])

def addNackPacketToRr (g : RtcpNackGenerator) (nowMs : UInt64) (rrPacket : RtcpPacket) :
    RtcpNackGenerator × RtcpPacket × Bool :=
  let (l, nackVector) := addNackBlocks nowMs g.nackInfoList.length g.nackInfoList
  let g := { g with nackInfoList := l }
  if nackVector.isEmpty then (g, rrPacket, false)
  else
    let nackPacket : RtcpHeader :=
      { packettype := RTCP_RTP_Feedback_PT
        ssrc := g.ssrc
        sourceSSRC := g.ssrc
        nacks := nackVector }
    (g, { rrPacket with rest := rrPacket.rest ++ [nackPacket] }, true)

/-- An entry asks for 43 and 45; 44 was asked for just now. -/
example :
    addNackBlocks 50 4 [⟨43, 0, 0⟩, ⟨44, 1, 40⟩, ⟨45, 1, 10⟩, ⟨46, 2, 10⟩] =
      ([⟨43, 1, 50⟩, ⟨44, 1, 40⟩, ⟨45, 2, 50⟩], [⟨43, 2⟩]) := by
  decide

/-! ### One round -/

/-- What a round does to the entries: an entry is kept, dropped after too many requests, or asked
for. The third list is that of the entries asked for. -/
inductive Round (nowMs : UInt64) : List NackInfo → List NackInfo → List NackInfo → Prop
  | nil : Round nowMs [] [] []
  | keep (info : NackInfo) {l l' asked : List NackInfo} :
    Round nowMs l l' asked → Round nowMs (info :: l) (info :: l') asked
  | drop {info : NackInfo} {l l' asked : List NackInfo} :
    kMaxRetransmits ≤ info.retransmits → Round nowMs l l' asked → Round nowMs (info :: l) l' asked
  | ask {info : NackInfo} {l l' asked : List NackInfo} :
    isTimeToRetransmit info nowMs → info.retransmits < kMaxRetransmits → Round nowMs l l' asked →
      Round nowMs (info :: l) (retransmit info nowMs :: l') (info :: asked)

variable {nowMs : UInt64} {pid blp n : UInt16} {l l' m m' asked asked' : List NackInfo}

@[simp] theorem retransmit_seqNum (info : NackInfo) (nowMs : UInt64) :
    (retransmit info nowMs).seqNum = info.seqNum := rfl

theorem Round.refl : ∀ l, Round nowMs l l []
  | [] => .nil
  | info :: l => .keep info (refl l)

theorem Round.append (h : Round nowMs l l' asked) (h' : Round nowMs m m' asked') :
    Round nowMs (l ++ m) (l' ++ m') (asked ++ asked') := by
  induction h with
  | nil => exact h'
  | keep info _ ih => exact .keep info ih
  | drop hr _ ih => exact .drop hr ih
  | ask ht hr _ ih => exact .ask ht hr ih

theorem testBit_or {d : ℕ} (hd : ahead pid n = d + 1) (hle : d ≤ 15) (k : ℕ) :
    (blp ||| 1 <<< (n - pid - 1)).toNat.testBit k = true ↔
      blp.toNat.testBit k = true ∨ k = d := by
  have hdist : (n - pid - 1).toNat = d := by
    have hn := n.toNat_lt
    have hp := pid.toNat_lt
    simp only [ahead, UInt16.toNat_sub, UInt16.reduceToNat] at hd ⊢
    omega
  have hlt : 2 ^ d < 2 ^ 16 := Nat.pow_lt_pow_right (by decide) (by omega)
  rw [UInt16.toNat_or, Nat.testBit_or, UInt16.toNat_shiftLeft, hdist, UInt16.toNat_one,
    Nat.one_shiftLeft, Nat.mod_eq_of_lt (show d < 16 by omega), Nat.mod_eq_of_lt hlt,
    Nat.testBit_two_pow, Bool.or_eq_true, decide_eq_true_eq, @eq_comm _ d]

theorem Round.sublist (h : Round nowMs l l' asked) :
    (l'.map (·.seqNum)).Sublist (l.map (·.seqNum)) := by
  induction h with
  | nil => exact .slnil
  | keep info _ ih => exact ih.cons_cons _
  | drop _ _ ih => exact ih.cons _
  | ask _ _ _ ih => exact ih.cons_cons _

theorem Round.asked_sublist (h : Round nowMs l l' asked) : asked.Sublist l := by
  induction h with
  | nil => exact .slnil
  | keep info _ ih => exact ih.cons _
  | drop _ _ ih => exact ih.cons _
  | ask _ _ _ ih => exact ih.cons_cons _

/-- An entry that is asked for is due and has requests left, and is in the list afterwards. -/
theorem Round.of_mem_asked (h : Round nowMs l l' asked) {info : NackInfo} (hi : info ∈ asked) :
    isTimeToRetransmit info nowMs ∧ info.retransmits < kMaxRetransmits ∧
      retransmit info nowMs ∈ l' := by
  induction h with
  | nil => cases hi
  | keep _ _ ih =>
    obtain ⟨ht, hr, hmem⟩ := ih hi
    exact ⟨ht, hr, List.mem_cons_of_mem _ hmem⟩
  | drop _ _ ih => exact ih hi
  | ask ht hr _ ih =>
    rcases List.mem_cons.mp hi with rfl | hi
    · exact ⟨ht, hr, List.mem_cons_self⟩
    · obtain ⟨ht, hr, hmem⟩ := ih hi
      exact ⟨ht, hr, List.mem_cons_of_mem _ hmem⟩

/-- An entry of the list afterwards was there and not asked for, or is one asked for. -/
theorem Round.of_mem (h : Round nowMs l l' asked) (hn : (l.map (·.seqNum)).Nodup)
    {info : NackInfo} (hi : info ∈ l') :
    (info ∈ l ∧ info.seqNum ∉ asked.map (·.seqNum)) ∨
      ∃ old ∈ asked, info = retransmit old nowMs := by
  induction h with
  | nil => cases hi
  | keep e hr ih =>
    rw [List.map_cons, List.nodup_cons] at hn
    rcases List.mem_cons.mp hi with rfl | hi
    · exact .inl ⟨List.mem_cons_self,
        fun hmem => hn.1 ((hr.asked_sublist.map _).subset hmem)⟩
    · exact (ih hn.2 hi).imp_left fun h => ⟨List.mem_cons_of_mem _ h.1, h.2⟩
  | drop _ _ ih =>
    rw [List.map_cons, List.nodup_cons] at hn
    exact (ih hn.2 hi).imp_left fun h => ⟨List.mem_cons_of_mem _ h.1, h.2⟩
  | @ask e _ _ _ _ _ hr ih =>
    rw [List.map_cons, List.nodup_cons] at hn
    rcases List.mem_cons.mp hi with rfl | hi
    · exact .inr ⟨e, List.mem_cons_self, rfl⟩
    · rcases ih hn.2 hi with ⟨hmem, hnot⟩ | ⟨old, hold, rfl⟩
      · refine .inl ⟨List.mem_cons_of_mem _ hmem, ?_⟩
        rw [List.map_cons, List.mem_cons, not_or]
        exact ⟨fun heq => hn.1 (heq ▸ List.mem_map_of_mem hmem), hnot⟩
      · exact .inr ⟨old, List.mem_cons_of_mem _ hold, rfl⟩

/-- The entries asked for are those whose counter went up. -/
theorem Round.mem_asked_iff (h : Round nowMs l l' asked) (hn : (l.map (·.seqNum)).Nodup) :
    n ∈ asked.map (·.seqNum) ↔ ∃ info ∈ l, ∃ info' ∈ l', info.seqNum = n ∧ info'.seqNum = n ∧
      info'.retransmits = info.retransmits + 1 := by
  constructor
  · intro hmem
    obtain ⟨info, hi, rfl⟩ := List.mem_map.mp hmem
    exact ⟨info, h.asked_sublist.subset hi, _, (h.of_mem_asked hi).2.2, rfl, rfl, rfl⟩
  · rintro ⟨info, hi, info', hi', rfl, hseq, hre⟩
    rcases h.of_mem hn hi' with ⟨hmem, -⟩ | ⟨old, hold, rfl⟩
    · rw [List.inj_on_of_nodup_map hn hmem hi hseq] at hre
      exact absurd hre (by simp)
    · exact List.mem_map.mpr ⟨old, hold, hseq⟩

/-- The bit behind the others adds its number at the end. -/
theorem numbers_or (blp : UInt16) {d : ℕ} (hd : ahead pid n = d + 1) (hle : d ≤ 15)
    (hb : ∀ k, blp.toNat.testBit k = true → k < d) :
    (NackBlock.mk pid (blp ||| 1 <<< (n - pid - 1))).numbers =
      (NackBlock.mk pid blp).numbers ++ [n] := by
  have hfilter : (List.range 16).filter (blp ||| 1 <<< (n - pid - 1)).toNat.testBit =
      (List.range 16).filter blp.toNat.testBit ++ [d] := by
    refine List.Pairwise.eq_of_mem_iff (r := (· < ·)) (List.pairwise_lt_range.filter _) ?_ fun k => ?_
    · rw [List.pairwise_append]
      refine ⟨List.pairwise_lt_range.filter _, List.pairwise_singleton _ _, fun k hk k' hk' => ?_⟩
      rw [List.mem_singleton.mp hk']
      exact hb k (List.mem_filter.mp hk).2
    · rw [List.mem_append, List.mem_filter, List.mem_filter, List.mem_range, List.mem_singleton,
        testBit_or hd hle, and_or_left]
      exact or_congr_right ⟨fun h => h.2, fun h => ⟨by omega, h⟩⟩
  have hn : pid + 1 + UInt16.ofNat d = n := by
    refine eq_of_ahead_eq (c := pid) ?_
    rw [UInt16.add_assoc, UInt16.add_comm 1, ← ofNat_add_one, ahead_add_ofNat, hd]
    omega
  rw [NackBlock.numbers, NackBlock.numbers, hfilter, List.map_append, List.map_singleton, hn,
    List.cons_append]

theorem numbers_zero : (NackBlock.mk pid 0).numbers = [pid] := by simp [NackBlock.numbers]

/-- The inner loop goes over a part of the list, and its mask asks for what it asked for. -/
theorem addBlp_spec (nowMs : UInt64) (pid blp : UInt16) (l : List NackInfo)
    (hpos : ∀ info ∈ l, 0 < ahead pid info.seqNum)
    (hs : l.Pairwise fun a b => ahead pid a.seqNum < ahead pid b.seqNum)
    (hb : ∀ info ∈ l, ∀ k, blp.toNat.testBit k = true → k + 1 < ahead pid info.seqNum) :
    ∃ gone asked, l = gone ++ (addBlp nowMs pid blp l).2.2 ∧
      Round nowMs gone (addBlp nowMs pid blp l).2.1 asked ∧
      (NackBlock.mk pid (addBlp nowMs pid blp l).1).numbers =
        (NackBlock.mk pid blp).numbers ++ asked.map (·.seqNum) := by
  fun_induction addBlp nowMs pid blp l with
  | case1 blp => exact ⟨[], [], rfl, .nil, (List.append_nil _).symm⟩
  | case2 blp info rest distance hd ht blp' seen left heq ih =>
    rw [List.pairwise_cons] at hs
    rw [List.forall_mem_cons] at hpos hb
    obtain ⟨gone, asked, hl, hr, hn⟩ := ih hpos.2 hs.2 hb.2
    rw [heq] at hl hr hn
    exact ⟨info :: gone, asked, congrArg (info :: ·) hl, .keep info hr, hn⟩
  | case3 blp info distance hd ht hre =>
    exact ⟨[info], [], rfl, .drop hre .nil, (List.append_nil _).symm⟩
  | case4 blp info distance hd ht hre next rest blp' seen left heq ih =>
    rw [List.pairwise_cons, List.pairwise_cons] at hs
    rw [List.forall_mem_cons, List.forall_mem_cons] at hpos hb
    obtain ⟨gone, asked, hl, hr, hn⟩ := ih hpos.2.2 hs.2.2 hb.2.2
    rw [heq] at hl hr hn
    exact ⟨info :: next :: gone, asked, congrArg (info :: next :: ·) hl,
      .drop hre (.keep next hr), hn⟩
  | case5 blp info rest distance hd ht hre blp' seen left heq ih =>
    rw [List.pairwise_cons] at hs
    rw [List.forall_mem_cons] at hpos hb
    obtain ⟨d, hahead⟩ : ∃ d, ahead pid info.seqNum = d + 1 :=
      Nat.exists_eq_succ_of_ne_zero hpos.1.ne'
    have hle : d ≤ 15 := by
      have hd := UInt16.le_iff_toNat_le.mp hd
      have hp := pid.toNat_lt
      have hi := info.seqNum.toNat_lt
      simp only [distance, ahead, UInt16.toNat_sub, UInt16.reduceToNat] at hd hahead
      omega
    have hor := numbers_or blp hahead hle fun k hk => by
      have := hb.1 k hk
      omega
    obtain ⟨gone, asked, hl, hr, hn⟩ := ih hpos.2 hs.2 fun e he k hk => by
      rcases (testBit_or hahead hle k).mp hk with hk | rfl
      · exact hb.2 e he k hk
      · exact hahead ▸ hs.1 e he
    rw [heq] at hl hr hn
    refine ⟨info :: gone, info :: asked, congrArg (info :: ·) hl,
      .ask (by simpa using ht) (UInt16.not_le.mp hre) hr, ?_⟩
    rw [hn, hor, List.append_assoc, List.map_cons, List.singleton_append]
  | case6 blp info rest distance hd =>
    exact ⟨[info], [], rfl, .keep info .nil, (List.append_nil _).symm⟩

/-- The blocks of a round ask for what the round asks for, in order. -/
theorem addNackBlocks_spec (nowMs : UInt64) {base : UInt16} (k : ℕ)
    (hs : l.Pairwise fun a b => ahead base a.seqNum < ahead base b.seqNum) :
    ∃ asked, Round nowMs l (addNackBlocks nowMs k l).1 asked ∧
      (addNackBlocks nowMs k l).2.flatMap (·.numbers) = asked.map (·.seqNum) := by
  fun_induction addNackBlocks nowMs k l with
  | case1 k info rest ht l' blocks heq ih =>
    obtain ⟨asked, hr, hn⟩ := ih (List.pairwise_cons.mp hs).2
    rw [heq] at hr hn
    exact ⟨asked, .keep info hr, hn⟩
  | case2 k info rest ht hre ih =>
    obtain ⟨asked, hr, hn⟩ := ih (List.pairwise_cons.mp hs).2
    exact ⟨asked, .drop hre hr, hn⟩
  | case3 k info rest ht hre pid blp seen left heq l' blocks heq' ih =>
    rw [List.pairwise_cons] at hs
    have hbase (e : NackInfo) (he : e ∈ rest) :
        ahead info.seqNum e.seqNum = ahead base e.seqNum - ahead base info.seqNum := by
      have := ahead_base base info.seqNum e.seqNum
      have := ahead_lt base e.seqNum
      have := hs.1 e he
      omega
    obtain ⟨gone, asked, hl, hr, hn⟩ : ∃ gone asked, rest = gone ++ left ∧
        Round nowMs gone seen asked ∧
        (NackBlock.mk pid blp).numbers = pid :: asked.map (·.seqNum) := by
      have hspec := addBlp_spec nowMs pid 0 rest
        (fun e he => ?_) ?_ (by simp)
      · rw [heq, numbers_zero] at hspec
        exact hspec
      · rw [hbase e he]
        exact Nat.sub_pos_of_lt (hs.1 e he)
      · refine hs.2.imp_of_mem fun {a b} ha hb hab => ?_
        rw [hbase a ha, hbase b hb]
        have := hs.1 a ha
        omega
    have hleft := hs.2
    rw [hl] at hleft
    obtain ⟨asked', hr', hn'⟩ := ih (List.pairwise_append.mp hleft).2.1
    rw [heq'] at hr' hn'
    refine ⟨info :: asked ++ asked', ?_, ?_⟩
    · rw [hl]
      exact .ask (by simpa using ht) (UInt16.not_le.mp hre) (hr.append hr')
    · rw [List.flatMap_cons, hn, hn', List.map_append, List.map_cons]
  | case4 => exact ⟨[], .refl _, rfl⟩

/-- The packet gets what the round writes. -/
theorem addNackPacketToRr_eq (g : RtcpNackGenerator) (nowMs : UInt64) (rrPacket : RtcpPacket) :
    (g.addNackPacketToRr nowMs rrPacket).1 =
        { g with nackInfoList := (addNackBlocks nowMs g.nackInfoList.length g.nackInfoList).1 } ∧
      (g.addNackPacketToRr nowMs rrPacket).2.1.nacks =
        rrPacket.nacks ++ (addNackBlocks nowMs g.nackInfoList.length g.nackInfoList).2 := by
  rw [addNackPacketToRr]
  dsimp only
  split_ifs with he
  · rw [List.isEmpty_iff.mp he]
    exact ⟨rfl, (List.append_nil _).symm⟩
  · refine ⟨rfl, ?_⟩
    show nacksOf (_ :: (_ ++ [_])) = nacksOf _ ++ _
    rw [← List.cons_append, nacksOf, List.flatMap_append]
    simp [nacksOf, RtcpPacket.blocks]

/-! ### One packet -/

variable {g : RtcpNackGenerator} {packet : DataPacket}

/-- The packet is one of the stream. -/
def OfStream (g : RtcpNackGenerator) (packet : DataPacket) : Prop :=
  packet.type = .video ∧ packet.header.ssrc = g.ssrc

instance (g : RtcpNackGenerator) (packet : DataPacket) : Decidable (g.OfStream packet) :=
  inferInstanceAs (Decidable (_ ∧ _))

/-- The numbers strictly between two numbers. -/
def between (a b : UInt16) : List UInt16 :=
  (List.range (ahead a b - 1)).map fun k => a + UInt16.ofNat (k + 1)

theorem pushNacks_eq (k : ℕ) (current : UInt16) (l : List NackInfo) :
    pushNacks k current l =
      l ++ (List.range k).map fun i => NackInfo.mk (current + UInt16.ofNat i) 0 0 := by
  induction k generalizing current l with
  | zero => simp [pushNacks]
  | succ k ih =>
    have hmap : (List.range k).map (fun i => NackInfo.mk (current + 1 + UInt16.ofNat i) 0 0) =
        (List.range k).map (fun i => NackInfo.mk (current + UInt16.ofNat (i + 1)) 0 0) := by
      refine List.map_congr_left fun i _ => ?_
      rw [UInt16.add_assoc, UInt16.add_comm 1, ← ofNat_add_one]
    rw [pushNacks, ih, hmap, List.range_succ_eq_map, List.map_cons, List.map_map, List.append_assoc]
    simp [Function.comp_def]

/-- The list after a jump. -/
theorem addNacks_eq (hseq : n ≠ g.highestSeqNum) :
    (g.addNacks n).1 = { g with
      nackInfoList := (g.nackInfoList ++
        (between g.highestSeqNum n).map (NackInfo.mk · 0 0)).take kMaxNacks } := by
  have hpos : 0 < ahead g.highestSeqNum n :=
    Nat.pos_of_ne_zero fun h => hseq (ahead_eq_zero.mp h).symm
  have hcount : (n - (g.highestSeqNum + 1)).toNat = ahead g.highestSeqNum n - 1 := by
    have hn := n.toNat_lt
    have hg := g.highestSeqNum.toNat_lt
    simp only [ahead, UInt16.toNat_sub, UInt16.toNat_add, UInt16.reduceToNat] at hpos ⊢
    omega
  have hnext (i : ℕ) : g.highestSeqNum + 1 + UInt16.ofNat i =
      g.highestSeqNum + UInt16.ofNat (i + 1) := by
    rw [UInt16.add_assoc, UInt16.add_comm 1, ← ofNat_add_one]
  rw [addNacks, pushNacks_eq, hcount, between, List.map_map]
  simp only [hnext]
  rfl

/-- A packet that is not of the stream changes nothing. -/
theorem handleRtpPacket_other (h : ¬ g.OfStream packet) : (g.handleRtpPacket packet).1 = g := by
  rw [OfStream, not_and_or] at h
  rw [handleRtpPacket]
  rcases h with h | h
  · rw [if_pos h]
  · split_ifs <;> rfl

/-- The first packet starts the stream. -/
theorem handleRtpPacket_first (h : g.OfStream packet) (hi : g.initialized = false) :
    (g.handleRtpPacket packet).1 =
      { g with highestSeqNum := packet.header.seqNumber, initialized := true } := by
  rw [handleRtpPacket, if_neg (not_not.mpr h.1)]
  dsimp only
  rw [if_neg (not_not.mpr h.2), hi]
  rfl

/-- A packet near the highest number is the highest again, late, or ahead. -/
theorem handleRtpPacket_next (h : g.OfStream packet) (hi : g.initialized = true) :
    (g.handleRtpPacket packet).1 =
      if packet.header.seqNumber = g.highestSeqNum then g
      else if ahead packet.header.seqNumber g.highestSeqNum ≤ 4095 then
        { g with nackInfoList := g.nackInfoList.eraseP (·.seqNum = packet.header.seqNumber) }
      else { (g.addNacks packet.header.seqNumber).1 with
        highestSeqNum := packet.header.seqNumber } := by
  rw [handleRtpPacket, if_neg (not_not.mpr h.1)]
  dsimp only
  rw [if_neg (not_not.mpr h.2), hi, if_neg (by simp)]
  split_ifs with heq hlate hle hle
  · rfl
  · rfl
  · exact absurd (sequenceNumberLessThan_iff.mp hlate).2 hle
  · refine absurd (sequenceNumberLessThan_iff.mpr ⟨?_, hle⟩) hlate
    exact Nat.pos_of_ne_zero fun h => heq (ahead_eq_zero.mp h)
  · rfl

end RtcpNackGenerator

end KkLicode.Rtp
