import KkLicode.Rtp.NackStream

/-! Which due entries a round of `RtcpNackGenerator` asks for. The two loops share
one index, and step over two kinds of entries without a look at them: the one too
far away for the mask, which ends the inner loop, and the one behind an entry
that the inner loop erases. All others are asked for when they are due. -/

namespace KkLicode.Rtp.RtcpNackGenerator

open Base Base.Serial

/-- Never sent, or last sent long enough ago. -/
def Due (info : NackInfo) (nowMs : UInt64) : Prop :=
  info.sentTime = 0 ∨ info.sentTime.toNat + kMinNackDelayMs.toNat < nowMs.toNat

instance (info : NackInfo) (nowMs : UInt64) : Decidable (Due info nowMs) :=
  inferInstanceAs (Decidable (_ ∨ _))

/-- The loops ask for such an entry when they come to it. -/
def asks (nowMs : UInt64) (info : NackInfo) : Bool :=
  isTimeToRetransmit info nowMs && info.retransmits < kMaxRetransmits

/-- The inner loop behind `pid`: its entries, each with whether the loop decides about it, and the
entries left. -/
def walkBlp (nowMs : UInt64) (pid : UInt16) :
    List NackInfo → List (NackInfo × Bool) × List NackInfo
  | [] => ([], [])
  | info :: rest =>
    if info.seqNum - pid - 1 ≤ 15 then
      if isTimeToRetransmit info nowMs && info.retransmits ≥ kMaxRetransmits then
        match rest with
        | [] => ([(info, true)], [])
        | next :: rest =>
          ((info, true) :: (next, false) :: (walkBlp nowMs pid rest).1, (walkBlp nowMs pid rest).2)
      else ((info, true) :: (walkBlp nowMs pid rest).1, (walkBlp nowMs pid rest).2)
    else ([(info, false)], rest)

/-- Both loops over `n` entries, each with whether they decide about it. -/
def walk (nowMs : UInt64) : ℕ → List NackInfo → List (NackInfo × Bool)
  | n + 1, info :: rest =>
    if asks nowMs info then
      (info, true) ::
        ((walkBlp nowMs info.seqNum rest).1 ++ walk nowMs n (walkBlp nowMs info.seqNum rest).2)
    else (info, true) :: walk nowMs n rest
  | _, _ => []

/-- The loops decide about the entry, or step over it. -/
def Decides (g : RtcpNackGenerator) (nowMs : UInt64) (decided : Bool) (info : NackInfo) : Prop :=
  (info, decided) ∈ walk nowMs g.nackInfoList.length g.nackInfoList

/-- The entries appended to the report ask for every entry that is due and was not asked for too
often. -/
def Complete (g : RtcpNackGenerator) (nowMs : UInt64) (rrPacket : RtcpPacket) : Prop :=
  ∀ info ∈ g.nackInfoList, Due info nowMs → info.retransmits < kMaxRetransmits →
    info.seqNum ∈ (emittedAt g (.rr nowMs rrPacket)).flatMap (·.numbers)

/-- No such entry is stepped over, but for a second entry of the same number. -/
def Regards (g : RtcpNackGenerator) (nowMs : UInt64) : Prop :=
  ∀ info, Decides g nowMs false info → Due info nowMs → info.retransmits < kMaxRetransmits →
    ∃ other, Decides g nowMs true other ∧ asks nowMs other = true ∧ other.seqNum = info.seqNum

variable {nowMs : UInt64} {pid blp n : UInt16} {l : List NackInfo} {info : NackInfo}

/-- A due entry is due for the code. -/
theorem Due.asks (h : Due info nowMs) (hr : info.retransmits < kMaxRetransmits) :
    asks nowMs info = true := by
  have ht : isTimeToRetransmit info nowMs = true := by
    rcases h with h | h
    · simp [isTimeToRetransmit, h]
    · have hk : kMinNackDelayMs.toNat = 20 := rfl
      have hn := nowMs.toNat_lt
      have hlt : kMinNackDelayMs < nowMs - info.sentTime := by
        rw [UInt64.lt_iff_toNat_lt, UInt64.toNat_sub]
        omega
      simp [isTimeToRetransmit, hlt]
  simp [RtcpNackGenerator.asks, ht, hr]

/-! ### The loops -/

/-- A bit within the mask adds its number. -/
theorem mem_numbers_or {m : UInt16} (hd : n - pid - 1 ≤ 15) :
    m ∈ (NackBlock.mk pid (blp ||| 1 <<< (n - pid - 1))).numbers ↔
      m ∈ (NackBlock.mk pid blp).numbers ∨ m = n := by
  obtain ⟨d, hahead, hle⟩ : ∃ d, ahead pid n = d + 1 ∧ d ≤ 15 := by
    have hd := UInt16.le_iff_toNat_le.mp hd
    have hp := pid.toNat_lt
    have hn := n.toNat_lt
    simp only [ahead, UInt16.toNat_sub, UInt16.reduceToNat] at hd ⊢
    exact ⟨(65536 - 1 + (65536 - pid.toNat + n.toNat) % 65536) % 65536, by omega, by omega⟩
  simp only [NackBlock.mem_numbers, testBit_or hahead hle]
  constructor
  · rintro (rfl | ⟨hm, k, hk, hb | rfl⟩)
    · exact .inl (.inl rfl)
    · exact .inl (.inr ⟨hm, k, hk, hb⟩)
    · exact .inr (eq_of_ahead_eq (hk.trans hahead.symm))
  · rintro ((rfl | ⟨hm, k, hk, hb⟩) | rfl)
    · exact .inl rfl
    · exact .inr ⟨hm, k, hk, .inl hb⟩
    · exact .inr ⟨by omega, d, hahead, .inr rfl⟩

theorem walkBlp_kept {rest : List NackInfo} (hd : info.seqNum - pid - 1 ≤ 15)
    (hk : (isTimeToRetransmit info nowMs && info.retransmits ≥ kMaxRetransmits) = false) :
    walkBlp nowMs pid (info :: rest) =
      ((info, true) :: (walkBlp nowMs pid rest).1, (walkBlp nowMs pid rest).2) := by
  rw [walkBlp.eq_def]
  simp only [hd, hk, if_true]
  rfl

theorem walkBlp_far {rest : List NackInfo} (hd : ¬info.seqNum - pid - 1 ≤ 15) :
    walkBlp nowMs pid (info :: rest) = ([(info, false)], rest) := by
  rw [walkBlp.eq_def]
  simp only [hd, if_false]

/-- The walk divides the list. -/
theorem walkBlp_append (nowMs : UInt64) (pid : UInt16) (l : List NackInfo) :
    (walkBlp nowMs pid l).1.map Prod.fst ++ (walkBlp nowMs pid l).2 = l := by
  fun_induction walkBlp nowMs pid l with
  | case1 => rfl
  | case2 => rfl
  | case3 info hd ht next rest ih => simp [ih]
  | case4 info rest hd ht ih => simp [ih]
  | case5 info rest hd => rfl

theorem walk_map_fst {k : ℕ} (hk : l.length ≤ k) : (walk nowMs k l).map Prod.fst = l := by
  fun_induction walk nowMs k l with
  | case1 k info rest ha ih =>
    have hl := walkBlp_append nowMs info.seqNum rest
    have hle : (walkBlp nowMs info.seqNum rest).2.length ≤ k := by
      have := congrArg List.length hl
      simp only [List.length_append, List.length_cons] at this hk
      omega
    simp [ih hle, hl]
  | case2 k info rest ha ih => simp [ih (by simpa using hk)]
  | case3 k l hne =>
    cases k with
    | zero => simpa using hk
    | succ k =>
      cases l with
      | nil => rfl
      | cons info rest => exact absurd rfl (hne k info rest rfl)

/-- The mask asks for the entries the inner loop decides about and asks for. -/
theorem addBlp_walk (nowMs : UInt64) (pid blp : UInt16) (l : List NackInfo) :
    (addBlp nowMs pid blp l).2.2 = (walkBlp nowMs pid l).2 ∧
    ∀ n, n ∈ (NackBlock.mk pid (addBlp nowMs pid blp l).1).numbers ↔
      n ∈ (NackBlock.mk pid blp).numbers ∨
        ∃ e, (e, true) ∈ (walkBlp nowMs pid l).1 ∧ asks nowMs e = true ∧ e.seqNum = n := by
  fun_induction addBlp nowMs pid blp l with
  | case1 blp => simp [walkBlp]
  | case2 blp info rest distance hd ht blp' seen left heq ih =>
    have ht : isTimeToRetransmit info nowMs = false := by simpa using ht
    rw [heq] at ih
    rw [walkBlp_kept hd (by simp [ht])]
    refine ⟨ih.1, fun n => (ih.2 n).trans (or_congr_right ?_)⟩
    simp [asks, ht]
  | case3 blp info distance hd ht hre =>
    have ht : isTimeToRetransmit info nowMs = true := by simpa using ht
    rw [walkBlp, if_pos hd, if_pos (by simp [ht, hre])]
    simp [asks, UInt16.not_lt.mpr hre]
  | case4 blp info distance hd ht hre next rest blp' seen left heq ih =>
    have ht : isTimeToRetransmit info nowMs = true := by simpa using ht
    rw [heq] at ih
    rw [walkBlp, if_pos hd, if_pos (by simp [ht, hre])]
    refine ⟨ih.1, fun n => (ih.2 n).trans (or_congr_right ?_)⟩
    simp [asks, UInt16.not_lt.mpr hre]
  | case5 blp info rest distance hd ht hre blp' seen left heq ih =>
    have ht : isTimeToRetransmit info nowMs = true := by simpa using ht
    rw [heq] at ih
    rw [walkBlp_kept hd (by simp [hre])]
    refine ⟨ih.1, fun n => ?_⟩
    rw [ih.2 n, mem_numbers_or hd, or_assoc]
    refine or_congr_right ?_
    have hr : info.retransmits < kMaxRetransmits := UInt16.not_le.mp hre
    simp [asks, ht, hr, @eq_comm _ n, or_and_right, exists_or]
  | case6 blp info rest distance hd =>
    rw [walkBlp_far hd]
    simp

/-- The blocks ask for the entries the loops decide about and ask for. -/
theorem mem_blocks_iff (nowMs : UInt64) (k : ℕ) (l : List NackInfo) (n : UInt16) :
    n ∈ (addNackBlocks nowMs k l).2.flatMap (·.numbers) ↔
      ∃ e, (e, true) ∈ walk nowMs k l ∧ asks nowMs e = true ∧ e.seqNum = n := by
  fun_induction addNackBlocks nowMs k l with
  | case1 k info rest ht l' blocks heq ih =>
    have ha : asks nowMs info = false := by
      have ht : isTimeToRetransmit info nowMs = false := by simpa using ht
      simp [asks, ht]
    rw [heq] at ih
    rw [ih, walk, if_neg (by simp [ha])]
    simp [ha]
  | case2 k info rest ht hre ih =>
    have ha : asks nowMs info = false := by simp [asks, UInt16.not_lt.mpr hre]
    rw [ih, walk, if_neg (by simp [ha])]
    simp [ha]
  | case3 k info rest ht hre pid blp seen left heq l' blocks heq' ih =>
    have ha : asks nowMs info = true := by
      have ht : isTimeToRetransmit info nowMs = true := by simpa using ht
      have hr : info.retransmits < kMaxRetransmits := UInt16.not_le.mp hre
      simp [asks, ht, hr]
    obtain ⟨hleft, hnum⟩ := addBlp_walk nowMs pid 0 rest
    rw [heq] at hleft hnum
    rw [heq'] at ih
    simp only at hleft
    rw [List.flatMap_cons, List.mem_append, ih, hnum, numbers_zero, walk, if_pos ha, hleft]
    simp [ha, pid, @eq_comm _ n, or_and_right, exists_or, or_assoc]
  | case4 k l hne =>
    rw [walk]
    · simp
    · exact hne

/-! ### Completeness -/

/-- The packet gets the blocks of the round. -/
theorem emittedAt_rr (g : RtcpNackGenerator) (nowMs : UInt64) (rrPacket : RtcpPacket) :
    emittedAt g (.rr nowMs rrPacket) =
      (addNackBlocks nowMs g.nackInfoList.length g.nackInfoList).2 := by
  simp [emittedAt, (addNackPacketToRr_eq g nowMs rrPacket).2]

/-- Every entry is one that the loops decide about or step over. -/
theorem mem_nackInfoList_iff (g : RtcpNackGenerator) (nowMs : UInt64) (info : NackInfo) :
    info ∈ g.nackInfoList ↔ Decides g nowMs true info ∨ Decides g nowMs false info := by
  have hw : (walk nowMs g.nackInfoList.length g.nackInfoList).map Prod.fst = g.nackInfoList :=
    walk_map_fst le_rfl
  conv_lhs => rw [← hw]
  simp only [List.mem_map, Prod.exists, exists_and_right, exists_eq_right, Decides]
  constructor
  · rintro ⟨decided, hd⟩
    cases decided with
    | true => exact .inl hd
    | false => exact .inr hd
  · rintro (hd | hd)
    · exact ⟨true, hd⟩
    · exact ⟨false, hd⟩

/-- A round asks for all it should if and only if its loops step over no entry that is due with
requests left (or ask for another entry of the same number). -/
theorem complete_iff_regards (g : RtcpNackGenerator) (nowMs : UInt64) (rrPacket : RtcpPacket) :
    Complete g nowMs rrPacket ↔ Regards g nowMs := by
  have hmem (n : UInt16) : n ∈ (emittedAt g (.rr nowMs rrPacket)).flatMap (·.numbers) ↔
      ∃ e, Decides g nowMs true e ∧ asks nowMs e = true ∧ e.seqNum = n := by
    rw [emittedAt_rr, mem_blocks_iff]
    rfl
  constructor
  · intro hc info hskip hdue hr
    exact (hmem _).mp (hc info ((mem_nackInfoList_iff g nowMs info).mpr (.inr hskip)) hdue hr)
  · intro hreg info hinfo hdue hr
    rw [hmem]
    rcases (mem_nackInfoList_iff g nowMs info).mp hinfo with hd | hd
    · exact ⟨info, hd, hdue.asks hr, rfl⟩
    · exact hreg info hd hdue hr

/-- Of two fresh entries too far apart for one mask the second is stepped over. -/
theorem not_complete : ¬∀ (g : RtcpNackGenerator) (nowMs : UInt64) (rrPacket : RtcpPacket),
    Complete g nowMs rrPacket := by
  intro h
  have hc := h { ssrc := 1, nackInfoList := [⟨1, 0, 0⟩, ⟨20, 0, 0⟩] } 50 { first := {} } ⟨20, 0, 0⟩
    (by decide) (by decide) (by decide)
  exact absurd hc (by decide)

end KkLicode.Rtp.RtcpNackGenerator
