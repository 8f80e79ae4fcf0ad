import KkLicode.Rtp.RtcpBytes
import KkLicode.Rtp.RtpTrackMuteHandler

/-! `RtpTrackMuteHandler`, read side. Feedback on a track whose numbers were moved
is moved back before it goes to the source. -/

namespace KkLicode.Rtp

open Base.Buffer RtcpHeader

namespace RtpTrackMuteHandler

/-- What `handleFeedback` does with one block. The numbers are compared as ints. -/
def adjustBlock (offset : UInt16) (data : List UInt8) (chead : ℕ) : List UInt8 :=
  if getPacketType data chead = RTCP_Receiver_PT then
    let data :=
      if (getHighestSeqnum data chead).toNat + offset.toNat < (getHighestSeqnum data chead).toNat then
        setSeqnumCycles data chead (getSeqnumCycles data chead + 1)
      else data
    setHighestSeqnum data chead (getHighestSeqnum data chead + offset)
  else if getPacketType data chead = RTCP_RTP_Feedback_PT then
    setNackPid data chead (getNackPid data chead + offset)
  else data

def handleFeedback (info : TrackMuteInfo) (packet : RtcpBuffer) : RtcpBuffer :=
  let offset := info.seqNumOffset
  if offset > 0 then
    { packet with data := forEachBlock (adjustBlock offset) packet.length (packet.length + 1) packet.data 0 }
  else packet

/-- The track a packet is feedback on, by the first block. -/
def feedbackInfo (h : RtpTrackMuteHandler) (ssrc : SinkSSRC) (packet : RtcpBuffer) :
    Option TrackMuteInfo :=
  if ssrc.audio = getSourceSSRC packet.data 0 then some h.audioInfo
  else if ssrc.video = getSourceSSRC packet.data 0 then some h.videoInfo
  else none

/-- `read`, with the packet it passes on. -/
def read (h : RtpTrackMuteHandler) (ssrc : SinkSSRC) (packet : RtcpBuffer) : RtcpBuffer :=
  match h.feedbackInfo ssrc packet with
  | some info => handleFeedback info packet
  | none => packet

end RtpTrackMuteHandler

/-! ### Feedback moved back -/

def ReportBlock.shifted (offset : UInt16) (r : ReportBlock) : ReportBlock :=
  r.withExtended (r.extended + offset.toUInt32)

def NackBlock.shifted (offset : UInt16) (nack : NackBlock) : NackBlock :=
  { nack with pid := nack.pid + offset }

/-- The block with every report and every entry moved by the offset. -/
def Block.shifted (offset : UInt16) : Block → Block
  | .receiverReport first ssrc reports extension =>
    .receiverReport first ssrc (reports.map (·.shifted offset)) extension
  | .nack first ssrc ssrcsource nacks padding =>
    .nack first ssrc ssrcsource (nacks.map (·.shifted offset)) padding
  | .other first packettype words => .other first packettype words

/-- Nothing but the numbers of a report or an entry is changed by the handler, and all of them are.
`size` is the number of bytes from the start of the block to the end of the packet. -/
def Block.Adjusts (offset : UInt16) (size : ℕ) : Block → Prop
  | .receiverReport _ _ [] _ => size ≤ 18
  | .receiverReport _ _ [r] _ => r.highestseqnum.toNat + offset.toNat < 65536
  | .receiverReport _ _ (_ :: _ :: _) _ => False
  | .nack _ _ _ nacks _ => nacks.length = 1
  | .other _ packettype _ => packettype = RTCP_RTP_Feedback_PT → size ≤ 12

/-- Every block is one the handler adjusts. -/
def Adjusts (offset : UInt16) : List Block → Prop
  | [] => True
  | b :: blocks => b.Adjusts offset (compound (b :: blocks)).length ∧ Adjusts offset blocks

namespace ReportBlock

/-- Without a carry only the lower half changes. -/
theorem shifted_of_lt {offset : UInt16} {r : ReportBlock}
    (h : r.highestseqnum.toNat + offset.toNat < 65536) :
    r.shifted offset = { r with highestseqnum := r.highestseqnum + offset } := by
  refine withExtended_eq ?_
  have hc := r.seqnumcycles.toNat_lt
  rw [UInt32.toNat_add, toNat_extended, UInt16.toNat_toUInt32, UInt16.toNat_add]
  omega

/-- With a carry the upper half does. -/
theorem shifted_of_le {offset : UInt16} {r : ReportBlock}
    (h : 65536 ≤ r.highestseqnum.toNat + offset.toNat) :
    r.shifted offset = { r with
      seqnumcycles := r.seqnumcycles + 1, highestseqnum := r.highestseqnum + offset } := by
  refine withExtended_eq ?_
  have hc := r.seqnumcycles.toNat_lt
  have hh := r.highestseqnum.toNat_lt
  have ho := offset.toNat_lt
  have hone : (1 : UInt16).toNat = 1 := rfl
  rw [UInt32.toNat_add, toNat_extended, UInt16.toNat_toUInt32, UInt16.toNat_add, UInt16.toNat_add, hone]
  omega

theorem ssrcsource_shifted (offset : UInt16) (r : ReportBlock) :
    (r.shifted offset).ssrcsource = r.ssrcsource := by
  cases r
  dsimp only
  rfl

theorem highestseqnum_shifted (offset : UInt16) (r : ReportBlock) :
    (r.shifted offset).highestseqnum = r.highestseqnum + offset := by
  rcases Nat.lt_or_ge (r.highestseqnum.toNat + offset.toNat) 65536 with h | h
  · rw [shifted_of_lt h]
  · rw [shifted_of_le h]

end ReportBlock

namespace RtpTrackMuteHandler

/-- The sum of two numbers of sixteen bits, as ints, is never less than one of them. -/
theorem adjustBlock_eq (offset : UInt16) (data : List UInt8) (chead : ℕ) :
    adjustBlock offset data chead =
      if getPacketType data chead = RTCP_Receiver_PT then
        setHighestSeqnum data chead (getHighestSeqnum data chead + offset)
      else if getPacketType data chead = RTCP_RTP_Feedback_PT then
        setNackPid data chead (getNackPid data chead + offset)
      else data := by
  unfold adjustBlock
  simp only [Nat.not_lt.mpr (Nat.le_add_right _ _), if_false]

theorem behind_adjustBlock (offset : UInt16) : Behind (adjustBlock offset) := by
  intro data chead
  rw [adjustBlock_eq]
  split_ifs
  · exact take_setShort (by omega)
  · exact take_setShort (by omega)
  · rfl

theorem adjustBlock_append (offset : UInt16) (before data : List UInt8) :
    adjustBlock offset (before ++ data) before.length = before ++ adjustBlock offset data 0 := by
  rw [adjustBlock_eq, adjustBlock_eq, getPacketType_append]
  split_ifs
  · rw [setHighestSeqnum, getHighestSeqnum, getShort_append_right rfl, setShort_append_right rfl]
    rfl
  · rw [setNackPid, getNackPid, getShort_append_right rfl, setShort_append_right rfl]
    rfl
  · rfl

/-- The first report of a block is moved, without a look at a carry. -/
theorem adjustBlock_report (offset : UInt16) (first : UInt8) (ssrc : UInt32) (r : ReportBlock)
    (reports : List ReportBlock) (extension : List UInt32) (behind : List UInt8) :
    adjustBlock offset
        ((Block.receiverReport first ssrc (r :: reports) extension).bytes ++ behind) 0 =
      (Block.receiverReport first ssrc
        ({ r with highestseqnum := r.highestseqnum + offset } :: reports) extension).bytes ++ behind := by
  have hlen : (Block.receiverReport first ssrc
      ({ r with highestseqnum := r.highestseqnum + offset } :: reports) extension).body.length =
      (Block.receiverReport first ssrc (r :: reports) extension).body.length := by simp [Block.body]
  have hread : getHighestSeqnum
      ((Block.receiverReport first ssrc (r :: reports) extension).bytes ++ behind) 0 =
        r.highestseqnum := short_spec _
  rw [adjustBlock_eq, Block.getPacketType_bytes, hread]
  simp only [Block.bytes, hlen]
  rfl

/-- The first entry of a block is moved. -/
theorem adjustBlock_nack (offset : UInt16) (first : UInt8) (ssrc ssrcsource : UInt32)
    (nack : NackBlock) (nacks : List NackBlock) (padding : List UInt32) (behind : List UInt8) :
    adjustBlock offset
        ((Block.nack first ssrc ssrcsource (nack :: nacks) padding).bytes ++ behind) 0 =
      (Block.nack first ssrc ssrcsource (nack.shifted offset :: nacks) padding).bytes ++ behind := by
  have hlen : (Block.nack first ssrc ssrcsource (nack.shifted offset :: nacks) padding).body.length =
      (Block.nack first ssrc ssrcsource (nack :: nacks) padding).body.length := by simp [Block.body]
  have hread : getNackPid
      ((Block.nack first ssrc ssrcsource (nack :: nacks) padding).bytes ++ behind) 0 = nack.pid :=
    short_spec _
  rw [adjustBlock_eq, Block.getPacketType_bytes, hread]
  simp only [Block.bytes, hlen]
  rfl

end RtpTrackMuteHandler

namespace Block

theorem shifted_zero (b : Block) : b.shifted 0 = b := by
  have hreport (r : ReportBlock) : r.shifted 0 = r := by
    have hlt : r.highestseqnum.toNat + (0 : UInt16).toNat < 65536 := r.highestseqnum.toNat_lt
    rw [ReportBlock.shifted_of_lt hlt, UInt16.add_zero]
  have hnack (nack : NackBlock) : nack.shifted 0 = nack := by
    rw [NackBlock.shifted, UInt16.add_zero]
  cases b with
  | receiverReport first ssrc reports extension => rw [shifted, List.map_id'' hreport]
  | nack first ssrc ssrcsource nacks padding => rw [shifted, List.map_id'' hnack]
  | other first packettype words => rfl

theorem length_body_shifted (offset : UInt16) (b : Block) :
    (b.shifted offset).body.length = b.body.length := by
  cases b <;> simp only [shifted, body, List.length_append, length_flatMap_reports,
    length_flatMap_nacks, List.length_map]

theorem length_bytes_shifted (offset : UInt16) (b : Block) :
    (b.shifted offset).bytes.length = b.bytes.length := by
  rw [length_bytes, length_bytes, length_body_shifted]

/-- The header, and the sources behind it, stay. -/
theorem take_bytes_shifted (offset : UInt16) (b : Block) :
    (b.shifted offset).bytes.take 12 = b.bytes.take 12 := by
  have hsources (ssrc source : UInt32) (l l' : List UInt8) :
      (long ssrc ++ (long source ++ l)).take 8 = (long ssrc ++ (long source ++ l')).take 8 := rfl
  have hbody : (b.shifted offset).body.take 8 = b.body.take 8 := by
    cases b with
    | receiverReport first ssrc reports extension =>
      cases reports with
      | nil => rfl
      | cons r reports =>
        simp only [shifted, body, List.map_cons, List.flatMap_cons, ReportBlock.bytes,
          ReportBlock.ssrcsource_shifted, List.append_assoc]
        exact hsources ssrc r.ssrcsource _ _
    | nack first ssrc ssrcsource nacks padding => exact hsources ssrc ssrcsource _ _
    | other first packettype words => rfl
  have hhead : (b.shifted offset).first = b.first ∧ (b.shifted offset).packettype = b.packettype := by
    cases b <;> exact ⟨rfl, rfl⟩
  rw [bytes, bytes, length_body_shifted, hhead.1, hhead.2]
  exact congrArg (fun l => _ :: _ :: _ :: _ :: l) hbody

end Block

/-- The first twelve bytes from the start of any block stay. -/
theorem take_compound_shifted (offset : UInt16) (blocks : List Block) :
    (compound (blocks.map (·.shifted offset))).take 12 = (compound blocks).take 12 := by
  induction blocks with
  | nil => rfl
  | cons b blocks ih =>
    have hrest (k : ℕ) (hk : k ≤ 12) :
        (compound (blocks.map (·.shifted offset))).take k = (compound blocks).take k := by
      simpa [List.take_take, Nat.min_eq_left hk] using congrArg (List.take k) ih
    rw [List.map_cons, compound_cons, compound_cons, List.take_append, List.take_append,
      Block.take_bytes_shifted, Block.length_bytes_shifted, hrest _ (Nat.sub_le ..)]

namespace RtpTrackMuteHandler

/-- A block that is adjusted becomes what it should. At the end of the packet, what is written may
lie behind it. -/
theorem adjustBlock_settles {offset : UInt16} {b : Block} {blocks : List Block}
    (hwf : b.WellFormed) (hb : b.Adjusts offset (compound (b :: blocks)).length)
    (behind : List UInt8) :
    ∃ behind', adjustBlock offset (b.bytes ++ (compound blocks ++ behind)) 0 =
      (b.shifted offset).bytes ++ (compound blocks ++ behind') := by
  have hloose (i : ℕ) (n : UInt16) (hi : (compound (b :: blocks)).length ≤ i) :
      ∃ behind', setShort (b.bytes ++ (compound blocks ++ behind)) i n =
        b.bytes ++ (compound blocks ++ behind') := by
    obtain ⟨k, rfl⟩ := Nat.exists_eq_add_of_le hi
    refine ⟨setShort behind k n, ?_⟩
    rw [← List.append_assoc, ← compound_cons, setShort_append_right rfl, compound_cons,
      List.append_assoc]
  cases b with
  | receiverReport first ssrc reports extension =>
    rcases reports with _ | ⟨r, _ | ⟨r', reports⟩⟩
    · rw [adjustBlock_eq, Block.getPacketType_bytes]
      exact hloose 18 _ hb
    · refine ⟨behind, ?_⟩
      rw [adjustBlock_report, Block.shifted, List.map_singleton, ReportBlock.shifted_of_lt hb]
    · exact hb.elim
  | nack first ssrc ssrcsource nacks padding =>
    obtain ⟨nack, rfl⟩ := List.length_eq_one_iff.mp hb
    exact ⟨behind, adjustBlock_nack ..⟩
  | other first packettype words =>
    rw [adjustBlock_eq, Block.getPacketType_bytes, Block.packettype, if_neg hwf.2.1]
    split_ifs with htype
    · exact hloose 12 _ (hb htype)
    · exact ⟨behind, rfl⟩

/-- A block that is not adjusted leaves a wrong number, not far behind its end. -/
theorem adjustBlock_misses {offset : UInt16} (ho : offset ≠ 0) {b : Block} {blocks : List Block}
    (hwf : b.WellFormed) (hb : ¬ b.Adjusts offset (compound (b :: blocks)).length)
    (behind : List UInt8) :
    ∃ i, i + 2 ≤ b.bytes.length + 12 ∧ i + 2 ≤ (compound (b :: blocks)).length ∧
      getShort (adjustBlock offset (b.bytes ++ (compound blocks ++ behind)) 0) i ≠
        getShort (compound ((b :: blocks).map (·.shifted offset))) i := by
  have hadd (n : UInt16) : n + offset ≠ n := by simpa using ho
  have hdvd := four_dvd_length_compound (b :: blocks)
  -- a number is changed in a block that should stay, or in one behind it
  have hloose (i : ℕ) (hs : b.shifted offset = b) (hi : i + 2 ≤ b.bytes.length + 12)
      (hi' : i + 2 ≤ (compound (b :: blocks)).length) :
      getShort (setShort (b.bytes ++ (compound blocks ++ behind)) i
          (getShort (b.bytes ++ (compound blocks ++ behind)) i + offset)) i ≠
        getShort (compound ((b :: blocks).map (·.shifted offset))) i := by
    have hstay : (compound ((b :: blocks).map (·.shifted offset))).take (b.bytes.length + 12) =
        (compound (b :: blocks)).take (b.bytes.length + 12) := by
      rw [List.map_cons, hs, compound_cons, compound_cons, List.take_length_add_append,
        List.take_length_add_append, take_compound_shifted]
    rw [← List.append_assoc, ← compound_cons, getShort_setShort (by simp; omega),
      getShort_append_left hi', getShort_congr_take hstay hi]
    exact hadd _
  have hwithin (i : ℕ) (hi : i + 2 ≤ b.bytes.length) :
      i + 2 ≤ b.bytes.length + 12 ∧ i + 2 ≤ (compound (b :: blocks)).length := by
    rw [compound_cons, List.length_append]
    omega
  cases b with
  | receiverReport first ssrc reports extension =>
    rcases reports with _ | ⟨r, _ | ⟨r', reports⟩⟩
    · have hb : ¬ (compound (.receiverReport first ssrc [] extension :: blocks)).length ≤ 18 := hb
      have hi : 18 + 2 ≤ (Block.receiverReport first ssrc [] extension).bytes.length + 12 := by
        simp [Block.length_bytes, Block.body]
      refine ⟨18, hi, by omega, ?_⟩
      rw [adjustBlock_eq, Block.getPacketType_bytes]
      exact hloose 18 rfl hi (by omega)
    · have hle : 65536 ≤ r.highestseqnum.toNat + offset.toNat := Nat.le_of_not_lt hb
      have hread : getShort (adjustBlock offset ((Block.receiverReport first ssrc [r] extension).bytes ++
          (compound blocks ++ behind)) 0) 16 = r.seqnumcycles := by
        rw [adjustBlock_report]
        exact short_spec _
      have hspec : getShort (compound ((Block.receiverReport first ssrc [r] extension :: blocks).map
          (·.shifted offset))) 16 = r.seqnumcycles + 1 := by
        rw [List.map_cons, compound_cons, Block.shifted, List.map_singleton,
          ReportBlock.shifted_of_le hle]
        exact short_spec _
      obtain ⟨hi, hi'⟩ := hwithin 16 (by simp [Block.length_bytes, Block.body]; omega)
      refine ⟨16, hi, hi', ?_⟩
      rw [hread, hspec]
      simp
    · have hread : getShort (adjustBlock offset
          ((Block.receiverReport first ssrc (r :: r' :: reports) extension).bytes ++
            (compound blocks ++ behind)) 0) 42 = r'.highestseqnum := by
        rw [adjustBlock_report]
        exact short_spec _
      have hspec : getShort (compound ((Block.receiverReport first ssrc (r :: r' :: reports) extension ::
          blocks).map (·.shifted offset))) 42 = r'.highestseqnum + offset := by
        rw [List.map_cons, compound_cons, Block.shifted, ← ReportBlock.highestseqnum_shifted]
        exact short_spec _
      obtain ⟨hi, hi'⟩ := hwithin 42 (by simp [Block.length_bytes, Block.body]; omega)
      refine ⟨42, hi, hi', ?_⟩
      rw [hread, hspec]
      exact (hadd _).symm
  | nack first ssrc ssrcsource nacks padding =>
    rcases nacks with _ | ⟨nack, _ | ⟨nack', nacks⟩⟩
    · exact absurd rfl hwf.2.2
    · exact absurd rfl hb
    · have hread : getShort (adjustBlock offset
          ((Block.nack first ssrc ssrcsource (nack :: nack' :: nacks) padding).bytes ++
            (compound blocks ++ behind)) 0) 16 = nack'.pid := by
        rw [adjustBlock_nack]
        exact short_spec _
      have hspec : getShort (compound ((Block.nack first ssrc ssrcsource (nack :: nack' :: nacks) padding ::
          blocks).map (·.shifted offset))) 16 = nack'.pid + offset := by
        rw [List.map_cons, compound_cons, Block.shifted]
        exact short_spec _
      obtain ⟨hi, hi'⟩ := hwithin 16 (by simp [Block.length_bytes, Block.body]; omega)
      refine ⟨16, hi, hi', ?_⟩
      rw [hread, hspec]
      exact (hadd _).symm
  | other first packettype words =>
    obtain ⟨htype, hsize⟩ := Classical.not_imp.mp hb
    have hi : 12 + 2 ≤ (Block.other first packettype words).bytes.length + 12 := by
      rw [Block.length_bytes]
      omega
    refine ⟨12, hi, by omega, ?_⟩
    rw [adjustBlock_eq, Block.getPacketType_bytes, Block.packettype, if_neg hwf.2.1, if_pos htype]
    exact hloose 12 rfl hi (by omega)

/-- The walk over a compound packet moves what it should if and only if it adjusts every block. -/
theorem forEachBlock_shifts_iff {offset : UInt16} (ho : offset ≠ 0) {blocks : List Block}
    (hne : blocks ≠ []) (hwf : ∀ b ∈ blocks, b.WellFormed) {before behind : List UInt8}
    {length fuel : ℕ} (hlen : length = (before ++ compound blocks).length)
    (hfuel : blocks.length ≤ fuel) :
    (forEachBlock (adjustBlock offset) length fuel (before ++ (compound blocks ++ behind))
        before.length).take length = before ++ compound (blocks.map (·.shifted offset)) ↔
      Adjusts offset blocks := by
  -- over the blocks: what lies in front of the first of them is done
  induction blocks generalizing before behind fuel with
  | nil => exact absurd rfl hne
  | cons b blocks ih =>
    obtain ⟨fuel, rfl⟩ : ∃ k, fuel = k + 1 := ⟨fuel - 1, by simp at hfuel; omega⟩
    obtain ⟨hb, hwf⟩ := List.forall_mem_cons.mp hwf
    rw [compound_cons, List.append_assoc, forEachBlock_cons _ hb hlen, adjustBlock_append]
    by_cases hadj : b.Adjusts offset (compound (b :: blocks)).length
    · obtain ⟨behind', hset⟩ := adjustBlock_settles hb hadj behind
      have hlast : (before ++ (b.shifted offset).bytes ++ compound blocks).length = length := by
        simp [hlen, compound_cons, Block.length_bytes_shifted]
      have hcons : before ++ compound ((b :: blocks).map (·.shifted offset)) =
          before ++ (b.shifted offset).bytes ++ compound (blocks.map (·.shifted offset)) := by
        rw [List.map_cons, compound_cons, List.append_assoc]
      rw [hset, ← List.append_assoc, show Adjusts offset (b :: blocks) ↔ Adjusts offset blocks from
        and_iff_right hadj, hcons]
      split_ifs with hnil
      · subst hnil
        rw [← List.append_assoc, List.take_left' hlast]
        simp [compound, Adjusts]
      · have hat : (before ++ b.bytes).length = (before ++ (b.shifted offset).bytes).length := by
          simp [Block.length_bytes_shifted]
        rw [hat]
        exact ih hnil hwf hlast.symm (by simp at hfuel; omega)
    · obtain ⟨i, hi, hi', hmiss⟩ := adjustBlock_misses ho hb hadj behind
      refine iff_of_false (fun heq => ?_) (fun h => hadj h.1)
      have hlt : before.length + i + 2 ≤ length := by
        rw [hlen, List.length_append]
        omega
      have hin : before.length + i + 2 ≤ (before ++ b.bytes).length + 12 := by
        rw [List.length_append]
        omega
      have hne : getShort (before ++ adjustBlock offset (b.bytes ++ (compound blocks ++ behind)) 0)
          (before.length + i) ≠
            getShort (before ++ compound ((b :: blocks).map (·.shifted offset))) (before.length + i) := by
        rwa [getShort_append_right rfl, getShort_append_right rfl]
      split_ifs at heq with hnil
      · exact take_ne_of_getShort_ne hlt hne heq
      · exact (behind_adjustBlock offset).forEachBlock_ne hin hlt hne fuel heq

/-- `read` moves feedback on a track back, and changes nothing else, if and only if the track has no
offset, or every block of the packet is one that is adjusted. -/
theorem read_shifts_iff (h : RtpTrackMuteHandler) (ssrc : SinkSSRC) {packet : RtcpBuffer}
    {blocks : List Block} (hp : packet.Holds blocks) {info : TrackMuteInfo}
    (hinfo : h.feedbackInfo ssrc packet = some info) :
    (h.read ssrc packet).packet = compound (blocks.map (·.shifted info.seqNumOffset)) ↔
      info.seqNumOffset = 0 ∨ Adjusts info.seqNumOffset blocks := by
  have hzero : blocks.map (·.shifted 0) = blocks := List.map_id'' Block.shifted_zero blocks
  rw [read, hinfo]
  simp only [handleFeedback]
  split_ifs with ho
  · have ho : info.seqNumOffset ≠ 0 := by
      intro h0
      simp [h0] at ho
    have := four_mul_length_le blocks
    have hlen := hp.length
    rw [or_iff_right ho, RtcpBuffer.packet, hp.data]
    exact @forEachBlock_shifts_iff _ ho _ hp.some hp.wellFormed [] _ _ _ hlen (by omega)
  · have ho : info.seqNumOffset = 0 := by simpa using ho
    rw [ho, hzero]
    exact iff_of_true hp.packet (Or.inl rfl)

/-- A report and a request for two packets, moved by two. -/
theorem read_shifts_reportAndNack :
    (read ⟨{ seqNumOffset := 2 }, {}⟩ ⟨7, 8⟩
      (.of [.receiverReport 129 1 [⟨7, 0, 3, 100, 0, 0, 0⟩] [], .nack 129 1 7 [⟨100, 1⟩] []])).packet =
    compound (List.map (Block.shifted 2)
      [.receiverReport 129 1 [⟨7, 0, 3, 100, 0, 0, 0⟩] [], .nack 129 1 7 [⟨100, 1⟩] []]) := by
  have hp := @RtcpBuffer.holds_of [.receiverReport 129 1 [⟨7, 0, 3, 100, 0, 0, 0⟩] [],
    .nack 129 1 7 [⟨100, 1⟩] []] (by decide) (by decide)
  have hinfo : feedbackInfo ⟨{ seqNumOffset := 2 }, {}⟩ ⟨7, 8⟩
      (.of [.receiverReport 129 1 [⟨7, 0, 3, 100, 0, 0, 0⟩] [], .nack 129 1 7 [⟨100, 1⟩] []]) =
        some { seqNumOffset := 2 } := by decide
  refine (read_shifts_iff ⟨{ seqNumOffset := 2 }, {}⟩ ⟨7, 8⟩ hp hinfo).mpr (Or.inr ⟨?_, rfl, trivial⟩)
  show 100 + 2 < 65536
  decide

/-- The highest number goes round, and the cycles stay. -/
theorem read_misses_carry :
    (RtcpBuffer.of [.receiverReport 129 1 [⟨7, 0, 3, 65535, 0, 0, 0⟩] []]).Holds
        [.receiverReport 129 1 [⟨7, 0, 3, 65535, 0, 0, 0⟩] []] ∧
      feedbackInfo ⟨{ seqNumOffset := 2 }, {}⟩ ⟨7, 8⟩
        (.of [.receiverReport 129 1 [⟨7, 0, 3, 65535, 0, 0, 0⟩] []]) = some { seqNumOffset := 2 } ∧
      (read ⟨{ seqNumOffset := 2 }, {}⟩ ⟨7, 8⟩
        (.of [.receiverReport 129 1 [⟨7, 0, 3, 65535, 0, 0, 0⟩] []])).packet ≠
          compound (List.map (Block.shifted 2)
            [.receiverReport 129 1 [⟨7, 0, 3, 65535, 0, 0, 0⟩] []]) := by
  refine ⟨RtcpBuffer.holds_of (by decide) (by decide), by decide, ?_⟩
  decide

end RtpTrackMuteHandler

end KkLicode.Rtp
