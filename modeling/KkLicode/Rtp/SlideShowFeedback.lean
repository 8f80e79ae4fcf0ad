import KkLicode.Rtp.RtcpBytes
import KkLicode.Rtp.RtpPaddingRemovalHandler
import KkLicode.Rtp.RtpSlideShowHandler

/-! `RtpSlideShowHandler`, read side. Feedback on the video is translated back to
the numbers of the source before it goes there. -/

namespace KkLicode.Rtp

open Base.Buffer Base.Serial RtcpHeader RtpPaddingRemovalHandler

namespace RtpSlideShowHandler

/-- What `read` does with one block. -/
def reverseBlock (t : SequenceNumberTranslator) (data : List UInt8) (chead : ℕ) : List UInt8 :=
  if getPacketType data chead = RTCP_Receiver_PT then
    let incoming := getHighestSeqnum data chead
    let input := t.reverse incoming
    if input.type ≠ .valid then data
    else
      let data :=
        if sequenceNumberLessThan input.input incoming then
          setSeqnumCycles data chead (getSeqnumCycles data chead - 1)
        else data
      setHighestSeqnum data chead input.input
  else if getPacketType data chead = RTCP_RTP_Feedback_PT then
    let input := t.reverse (getNackPid data chead)
    if input.type = .valid then setNackPid data chead input.input else data
  else data

/-- `read`, with the packet it passes on. -/
def read (h : RtpSlideShowHandler) (ssrc : SinkSSRC) (packet : RtcpBuffer) : RtcpBuffer :=
  if ssrc.video ≠ getSourceSSRC packet.data 0 then packet
  else packet.forEachRRBlock (reverseBlock h.translator)

end RtpSlideShowHandler

/-! ### What becomes of a block -/

variable (t : SequenceNumberTranslator)

def ReportBlock.reversed (r : ReportBlock) : ReportBlock :=
  match image t r.highestseqnum with
  | none => r
  | some input => { r with
      seqnumcycles :=
        if sequenceNumberLessThan input r.highestseqnum then r.seqnumcycles - 1 else r.seqnumcycles
      highestseqnum := input }

/-- The number the source has for a number, or the number itself. -/
def reversedPid (pid : UInt16) : UInt16 := (image t pid).getD pid

def NackBlock.reversed (nack : NackBlock) : NackBlock := { nack with pid := reversedPid t nack.pid }

/-- A word the upper half of which is taken for a packet id. -/
def reversedWord (w : UInt32) : UInt32 :=
  getLong (setShort (long w) 0 (reversedPid t (getShort (long w) 0))) 0

/-- Only the first report and the first entry are looked at. -/
def Block.reversed : Block → Block
  | .receiverReport first ssrc reports extension =>
    .receiverReport first ssrc (reports.modifyHead (·.reversed t)) extension
  | .nack first ssrc ssrcsource nacks padding =>
    .nack first ssrc ssrcsource (nacks.modifyHead (·.reversed t)) padding
  | .other first packettype words =>
    .other first packettype
      (if packettype = RTCP_RTP_Feedback_PT then words.modify 2 (reversedWord t) else words)

/-- The block has what its type stands for: a report, or what follows the sources. -/
def Block.Full : Block → Prop
  | .receiverReport _ _ reports _ => reports ≠ []
  | .nack .. => True
  | .other _ packettype words => packettype = RTCP_RTP_Feedback_PT → 3 ≤ words.length

instance : DecidablePred Block.Full := fun b =>
  match b with
  | .receiverReport _ _ reports _ => inferInstanceAs (Decidable (reports ≠ []))
  | .nack .. => isTrue trivial
  | .other _ packettype words =>
    inferInstanceAs (Decidable (packettype = RTCP_RTP_Feedback_PT → 3 ≤ words.length))

variable {t}

theorem reverse_of_image {n i : UInt16} (h : image t n = some i) :
    (t.reverse n).type = .valid ∧ (t.reverse n).input = i := by
  unfold image at h
  dsimp only at h
  split_ifs at h with hv
  exact ⟨hv, Option.some.inj h⟩

theorem reverse_of_image_none {n : UInt16} (h : image t n = none) : (t.reverse n).type ≠ .valid := by
  unfold image at h
  dsimp only at h
  split_ifs at h with hv
  exact hv

namespace RtpSlideShowHandler

theorem reverseBlock_append (before data : List UInt8) :
    reverseBlock t (before ++ data) before.length = before ++ reverseBlock t data 0 := by
  have hhighest : getHighestSeqnum (before ++ data) before.length = getHighestSeqnum data 0 :=
    getShort_append_right rfl
  have hcycles : getSeqnumCycles (before ++ data) before.length = getSeqnumCycles data 0 :=
    getShort_append_right rfl
  have hpid : getNackPid (before ++ data) before.length = getNackPid data 0 :=
    getShort_append_right rfl
  simp only [reverseBlock, getPacketType_append, hhighest, hcycles, hpid]
  split_ifs
  · rfl
  · rw [setSeqnumCycles, setHighestSeqnum, setShort_append_right rfl, setShort_append_right rfl]
    rfl
  · rw [setHighestSeqnum, setShort_append_right rfl]
    rfl
  · rw [setNackPid, setShort_append_right rfl]
    rfl
  · rfl
  · rfl

end RtpSlideShowHandler

namespace Block

theorem length_body_reversed (b : Block) : (b.reversed t).body.length = b.body.length := by
  cases b <;> simp only [reversed, body, List.length_append, length_flatMap_reports,
    length_flatMap_nacks, length_flatMap_long, List.length_modifyHead]
  split_ifs <;> simp

theorem length_bytes_reversed (b : Block) : (b.reversed t).bytes.length = b.bytes.length := by
  rw [length_bytes, length_bytes, length_body_reversed]

end Block

namespace RtpSlideShowHandler

/-- The block is changed in its place. -/
theorem reverseBlock_bytes {b : Block} (hwf : b.WellFormed) (hb : b.Full) (behind : List UInt8) :
    reverseBlock t (b.bytes ++ behind) 0 = (b.reversed t).bytes ++ behind := by
  have hlen := @Block.length_body_reversed t b
  unfold reverseBlock
  rw [Block.getPacketType_bytes]
  cases b with
  | receiverReport first ssrc reports extension =>
    obtain ⟨r, reports, rfl⟩ := List.exists_cons_of_ne_nil hb
    have hread : getHighestSeqnum
        ((Block.receiverReport first ssrc (r :: reports) extension).bytes ++ behind) 0 =
          r.highestseqnum := short_spec _
    have hcycles : getSeqnumCycles
        ((Block.receiverReport first ssrc (r :: reports) extension).bytes ++ behind) 0 =
          r.seqnumcycles := short_spec _
    rw [Block.packettype, if_pos rfl]
    simp only [hread, hcycles]
    simp only [Block.bytes, hlen]
    simp only [Block.reversed, List.modifyHead_cons, ReportBlock.reversed]
    cases himage : image t r.highestseqnum with
    | none =>
      rw [if_pos (reverse_of_image_none himage)]
    | some input =>
      obtain ⟨hvalid, hinput⟩ := reverse_of_image himage
      rw [if_neg (by simp [hvalid]), hinput]
      dsimp only
      split_ifs <;> rfl
  | nack first ssrc ssrcsource nacks padding =>
    obtain ⟨nack, nacks, rfl⟩ := List.exists_cons_of_ne_nil hwf.2.2
    have hread : getNackPid
        ((Block.nack first ssrc ssrcsource (nack :: nacks) padding).bytes ++ behind) 0 = nack.pid :=
      short_spec _
    rw [Block.packettype, if_neg (by decide), if_pos rfl]
    simp only [hread]
    simp only [Block.bytes, hlen]
    simp only [Block.reversed, List.modifyHead_cons, NackBlock.reversed, reversedPid]
    cases himage : image t nack.pid with
    | none =>
      rw [if_neg (reverse_of_image_none himage)]
      rfl
    | some input =>
      obtain ⟨hvalid, hinput⟩ := reverse_of_image himage
      rw [if_pos hvalid, hinput]
      rfl
  | other first packettype words =>
    rw [Block.packettype, if_neg hwf.2.1]
    by_cases htype : packettype = RTCP_RTP_Feedback_PT
    · obtain ⟨w, w', v, words, rfl⟩ : ∃ w w' v words', words = w :: w' :: v :: words' := by
        rcases words with _ | ⟨w, _ | ⟨w', _ | ⟨v, words⟩⟩⟩
        iterate 3 exact absurd (hb htype) (by simp)
        exact ⟨w, w', v, words, rfl⟩
      have hread : getNackPid ((Block.other first packettype (w :: w' :: v :: words)).bytes ++ behind)
          0 = getShort (long v) 0 := rfl
      rw [if_pos htype, hread]
      simp only [Block.bytes, hlen]
      have hmodify : (w :: w' :: v :: words).modify 2 (reversedWord t) =
          w :: w' :: reversedWord t v :: words := rfl
      have hword : long (reversedWord t v) =
          setShort (long v) 0 (reversedPid t (getShort (long v) 0)) := long_getLong ..
      simp only [Block.reversed, if_pos htype, hmodify, Block.body, List.flatMap_cons, hword,
        reversedPid]
      cases himage : image t (getShort (long v) 0) with
      | none =>
        have hsame : setShort (long v) 0 (getShort (long v) 0) = long v := setShort_getShort ..
        rw [if_neg (reverse_of_image_none himage), Option.getD_none, hsame]
        rfl
      | some input =>
        obtain ⟨hvalid, hinput⟩ := reverse_of_image himage
        rw [if_pos hvalid, hinput]
        rfl
    · simp only [Block.reversed, if_neg htype]

/-- The packet after `read`. -/
theorem read_packet (h : RtpSlideShowHandler) {ssrc : SinkSSRC} {packet : RtcpBuffer}
    {blocks : List Block} (hp : packet.Holds blocks) (hfull : ∀ b ∈ blocks, b.Full)
    (hssrc : ssrc.video = getSourceSSRC packet.data 0)
    (hfeedback : packet.IsFeedback) :
    (h.read ssrc packet).packet = compound (blocks.map (·.reversed h.translator)) := by
  have hlen := hp.length
  have hwalk := @forEachBlock_map (reverseBlock h.translator) _ reverseBlock_append
    Block.length_bytes_reversed blocks hp.some hp.wellFormed
    (fun b hb => reverseBlock_bytes (hp.wellFormed b hb) (hfull b hb)) [] (packet.data.drop packet.length)
    packet.length (packet.length + 1) hlen
    (by have := four_mul_length_le blocks; omega)
  have hsize : (compound (blocks.map (·.reversed h.translator))).length = packet.length :=
    (length_compound_map Block.length_bytes_reversed blocks).trans hlen.symm
  have hdata : forEachBlock (reverseBlock h.translator) packet.length (packet.length + 1) packet.data 0 =
      compound (blocks.map (·.reversed h.translator)) ++ packet.data.drop packet.length :=
    (congrArg (forEachBlock _ _ _ · 0) hp.data).trans hwalk
  rw [read, if_neg (not_not.mpr hssrc), RtcpBuffer.forEachRRBlock, if_pos hfeedback,
    RtcpBuffer.packet, hdata, List.take_left' hsize]

end RtpSlideShowHandler

/-! ### Feedback by the numbers of the source -/

namespace Block

def reports : Block → List ReportBlock
  | .receiverReport _ _ reports _ => reports
  | _ => []

def nacks : Block → List NackBlock
  | .nack _ _ _ nacks _ => nacks
  | _ => []

end Block

/-- The numbers the blocks ask for. -/
def requested (blocks : List Block) : List UInt16 :=
  (blocks.flatMap (·.nacks)).flatMap (·.numbers)

/-- The report says of the source's numbers what the other one says of the receiver's. -/
def ReportBlock.Inverts (t : SequenceNumberTranslator) (r r' : ReportBlock) : Prop :=
  ∀ input, image t r.highestseqnum = some input →
    r'.extended = r.extended + .ofInt (input - r.highestseqnum).toInt16.toInt

/-- The packet says of the source's numbers what the other one says of the receiver's. -/
structure Inverts (t : SequenceNumberTranslator) (blocks blocks' : List Block) : Prop where
  reports : List.Forall₂ (fun b b' => List.Forall₂ (ReportBlock.Inverts t) b.reports b'.reports)
    blocks blocks'
  nacks : ∀ n, n ∈ requested blocks' ↔ Asked t (requested blocks) n

/-! ### When the translation is right -/

/-- `a` is more than 4095 steps, and at most half a round, behind `b`. -/
def FarBehind (a b : UInt16) : Prop := 4096 ≤ ahead a b ∧ ahead a b ≤ 32768

instance (a b : UInt16) : Decidable (FarBehind a b) := inferInstanceAs (Decidable (_ ∧ _))

/-- The handler takes one from the cycles when the image is less than 4096 behind the number, and
else leaves them. That is right if the way to the image leads over the wrap, or is none, in the first
case, and if it does not in the second. -/
def Borrows (input highest : UInt16) : Prop :=
  input = highest ∨ (highest < input ∧ ¬FarBehind input highest) ∨
    (input < highest ∧ FarBehind input highest)

/-- The first report is rewritten, and the others are not. -/
def Block.ReportsFit (t : SequenceNumberTranslator) (b : Block) : Prop :=
  match b.reports with
  | [] => True
  | r :: reports => (∀ input, image t r.highestseqnum = some input → Borrows input r.highestseqnum) ∧
    ∀ r' ∈ reports, ∀ input, image t r'.highestseqnum = some input → input = r'.highestseqnum

/-- The entries of a block, each with the distance by which it is moved. -/
def Block.moves (t : SequenceNumberTranslator) (b : Block) : List (NackBlock × UInt16) :=
  match b.nacks with
  | [] => []
  | entry :: entries => (entry, reversedPid t entry.pid - entry.pid) :: entries.map (·, 0)

/-- An entry that is moved without adding or losing a number. What it would add another entry may
ask for, and what it would lose another entry may be moved to. -/
structure Clean (t : SequenceNumberTranslator) (blocks : List Block) (m : NackBlock × UInt16) : Prop where
  moved : ∀ n ∈ m.1.numbers, Asked t (requested blocks) (n + m.2)
  asked : ∀ n, Asked t m.1.numbers n →
    ∃ m' ∈ blocks.flatMap (·.moves t), n - m'.2 ∈ m'.1.numbers

variable {t : SequenceNumberTranslator}

/-- The sum of an extended number and a signed difference. -/
theorem toNat_add_difference (r : ReportBlock) (input : UInt16) :
    (r.extended + .ofInt (input - r.highestseqnum).toInt16.toInt).toNat =
      (r.seqnumcycles.toNat * 65536 + input.toNat +
        if ahead r.highestseqnum input < 32768 then
          if input < r.highestseqnum then 65536 else 0
        else if r.highestseqnum < input then 4294901760 else 0) % 4294967296 := by
  have hc := r.seqnumcycles.toNat_lt
  have hh := r.highestseqnum.toNat_lt
  have hi := input.toNat_lt
  rw [UInt32.toNat_add, r.toNat_extended, toInt_sub, UInt32.ofInt, UInt32.toNat_ofNat']
  simp only [ahead, UInt16.toNat_sub, UInt16.lt_iff_toNat_lt]
  split_ifs <;> omega

theorem extended_reversed_iff {r : ReportBlock} {input : UInt16}
    (h : image t r.highestseqnum = some input) :
    (r.reversed t).extended = r.extended + .ofInt (input - r.highestseqnum).toInt16.toInt ↔
      Borrows input r.highestseqnum := by
  have hc := r.seqnumcycles.toNat_lt
  have hh := r.highestseqnum.toNat_lt
  have hi := input.toNat_lt
  have hone : (1 : UInt16).toNat = 1 := rfl
  rw [← UInt32.toNat_inj, toNat_add_difference, ReportBlock.toNat_extended, ReportBlock.reversed, h]
  dsimp only
  rw [Borrows, FarBehind, ← UInt16.toNat_inj]
  by_cases hless : sequenceNumberLessThan input r.highestseqnum = true
  · have hnear := sequenceNumberLessThan_iff.mp hless
    rw [if_pos hless, UInt16.toNat_sub, hone]
    simp only [ahead, UInt16.toNat_sub, UInt16.lt_iff_toNat_lt] at hnear ⊢
    split_ifs <;> omega
  · have hnear := sequenceNumberLessThan_false_iff.mp (Bool.eq_false_iff.mpr hless)
    rw [if_neg hless]
    simp only [ahead, UInt16.toNat_sub, UInt16.lt_iff_toNat_lt] at hnear ⊢
    split_ifs <;> omega

/-- A report that is left as it is says the same if and only if its number is its own image. -/
theorem extended_add_iff {r : ReportBlock} {input : UInt16} :
    r.extended = r.extended + .ofInt (input - r.highestseqnum).toInt16.toInt ↔
      input = r.highestseqnum := by
  have hc := r.seqnumcycles.toNat_lt
  have hh := r.highestseqnum.toNat_lt
  have hi := input.toNat_lt
  rw [← UInt32.toNat_inj, toNat_add_difference, ReportBlock.toNat_extended, ← UInt16.toNat_inj]
  simp only [ahead, UInt16.toNat_sub, UInt16.lt_iff_toNat_lt]
  split_ifs <;> omega

theorem reports_reversed_iff (b : Block) :
    List.Forall₂ (ReportBlock.Inverts t) b.reports (b.reversed t).reports ↔ b.ReportsFit t := by
  have hreports : (b.reversed t).reports = b.reports.modifyHead (·.reversed t) := by
    cases b <;> rfl
  rw [hreports, Block.ReportsFit]
  cases b.reports with
  | nil => simp
  | cons r reports =>
    rw [List.modifyHead_cons, List.forall₂_cons, List.forall₂_same]
    refine and_congr (forall_congr' fun input => forall_congr' fun h => extended_reversed_iff h) ?_
    exact forall₂_congr fun r' _ => forall_congr' fun input => forall_congr' fun _ => extended_add_iff

theorem nacks_reversed (b : Block) (n : UInt16) :
    n ∈ (b.reversed t).nacks.flatMap (·.numbers) ↔ ∃ m ∈ b.moves t, n - m.2 ∈ m.1.numbers := by
  have hnacks : (b.reversed t).nacks = b.nacks.modifyHead (·.reversed t) := by
    cases b <;> rfl
  rw [hnacks, Block.moves]
  cases b.nacks with
  | nil => simp
  | cons nack nacks =>
    have hmoved : n ∈ (nack.reversed t).numbers ↔ n - (reversedPid t nack.pid - nack.pid) ∈ nack.numbers := by
      rw [← NackBlock.mem_numbers_add, UInt16.add_comm, UInt16.sub_add_cancel]
      rfl
    simp [hmoved]

theorem mem_requested_iff (blocks : List Block) (n : UInt16) :
    n ∈ requested blocks ↔ ∃ b ∈ blocks, n ∈ b.nacks.flatMap (·.numbers) := by
  rw [requested, List.flatMap_assoc, List.mem_flatMap]

theorem mem_requested_reversed (blocks : List Block) (n : UInt16) :
    n ∈ requested (blocks.map (·.reversed t)) ↔
      ∃ m ∈ blocks.flatMap (·.moves t), n - m.2 ∈ m.1.numbers := by
  simp only [mem_requested_iff, @List.mem_flatMap _ _ _ _ blocks]
  constructor
  · rintro ⟨b', hb', hn⟩
    obtain ⟨b, hb, rfl⟩ := List.mem_map.mp hb'
    obtain ⟨m, hm, hn⟩ := (nacks_reversed b n).mp hn
    exact ⟨m, ⟨b, hb, hm⟩, hn⟩
  · rintro ⟨m, ⟨b, hb, hm⟩, hn⟩
    exact ⟨_, List.mem_map_of_mem hb, (nacks_reversed b n).mpr ⟨m, hm, hn⟩⟩

/-- The entries with their distances are the entries of the packet. -/
theorem mem_requested_moves (t : SequenceNumberTranslator) (blocks : List Block) (n : UInt16) :
    n ∈ requested blocks ↔ ∃ m ∈ blocks.flatMap (·.moves t), n ∈ m.1.numbers := by
  have hmoves (b : Block) : (b.moves t).map Prod.fst = b.nacks := by
    rw [Block.moves]
    cases b.nacks with
    | nil => rfl
    | cons nack nacks => simp [List.map_map, Function.comp_def]
  have hall : blocks.flatMap (·.nacks) = (blocks.flatMap (·.moves t)).map Prod.fst := by
    rw [List.map_flatMap]
    exact congrArg (blocks.flatMap ·) (funext fun b => (hmoves b).symm)
  simp [requested, hall]

/-- The requests are translated exactly if and only if each entry is clean. -/
theorem requested_reversed_iff (blocks : List Block) :
    (∀ n, n ∈ requested (blocks.map (·.reversed t)) ↔ Asked t (requested blocks) n) ↔
      ∀ m ∈ blocks.flatMap (·.moves t), Clean t blocks m := by
  simp only [mem_requested_reversed]
  constructor
  · refine fun h m hm => ⟨fun n hn => (h _).mp ⟨m, hm, by rwa [UInt16.add_sub_cancel]⟩, ?_⟩
    rintro n ⟨k, hk, himage⟩
    exact (h n).mpr ⟨k, (mem_requested_moves t blocks k).mpr ⟨m, hm, hk⟩, himage⟩
  · refine fun h n => ⟨?_, ?_⟩
    · rintro ⟨m, hm, hn⟩
      have := (h m hm).moved _ hn
      rwa [UInt16.sub_add_cancel] at this
    · rintro ⟨k, hk, himage⟩
      obtain ⟨m, hm, hk⟩ := (mem_requested_moves t blocks k).mp hk
      exact (h m hm).asked n ⟨k, hk, himage⟩

/-- An entry that needs no other: it is moved by the distance from each of its numbers to the
image of the number. -/
theorem clean_of_uniform {blocks : List Block} {m : NackBlock × UInt16}
    (hm : m ∈ blocks.flatMap (·.moves t)) (h : ∀ n ∈ m.1.numbers, image t n = some (n + m.2)) :
    Clean t blocks m where
  moved n hn := ⟨n, (mem_requested_moves t blocks n).mpr ⟨m, hm, hn⟩, h n hn⟩
  asked n := by
    rintro ⟨k, hk, himage⟩
    refine ⟨m, hm, ?_⟩
    rwa [← Option.some.inj ((h k hk).symm.trans himage), UInt16.add_sub_cancel]

namespace Block

theorem shape_reversed (b : Block) : (b.reversed t).shape = b.shape := by
  cases b with
  | receiverReport first ssrc reports extension => simp [reversed, shape]
  | nack first ssrc ssrcsource nacks padding => simp [reversed, shape]
  | other first packettype words =>
    simp only [reversed, shape]
    split_ifs <;> simp

end Block

namespace RtpSlideShowHandler

/-- What the packet is after `read`, with every field in its place, says by the numbers of the source
what it said by the numbers of the receiver. -/
def ReadInverts (h : RtpSlideShowHandler) (ssrc : SinkSSRC) (packet : RtcpBuffer)
    (blocks : List Block) : Prop :=
  ∃ blocks', (h.read ssrc packet).packet = compound blocks' ∧
    blocks'.map (·.shape) = blocks.map (·.shape) ∧ Inverts h.translator blocks blocks'

theorem readInverts_reversed_iff (h : RtpSlideShowHandler) {ssrc : SinkSSRC} {packet : RtcpBuffer}
    {blocks : List Block} (hp : packet.Holds blocks) (hfull : ∀ b ∈ blocks, b.Full)
    (hssrc : ssrc.video = getSourceSSRC packet.data 0) (hfeedback : packet.IsFeedback) :
    h.ReadInverts ssrc packet blocks ↔
      Inverts h.translator blocks (blocks.map (·.reversed h.translator)) := by
  have hread := h.read_packet hp hfull hssrc hfeedback
  have hshape : (blocks.map (·.reversed h.translator)).map (·.shape) = blocks.map (·.shape) := by
    simp [List.map_map, Function.comp_def, Block.shape_reversed]
  constructor
  · rintro ⟨blocks', hpacket, hshape', hinv⟩
    rwa [← compound_inj (hshape'.trans hshape.symm) (hpacket.symm.trans hread)]
  · exact fun hinv => ⟨_, hread, hshape, hinv⟩

/-- `read` inverts the renumbering if and only if the reports fit and the entries are clean. -/
theorem read_inverts_iff (h : RtpSlideShowHandler) {ssrc : SinkSSRC} {packet : RtcpBuffer}
    {blocks : List Block} (hp : packet.Holds blocks) (hfull : ∀ b ∈ blocks, b.Full)
    (hssrc : ssrc.video = getSourceSSRC packet.data 0) (hfeedback : packet.IsFeedback) :
    h.ReadInverts ssrc packet blocks ↔
      (∀ b ∈ blocks, b.ReportsFit h.translator) ∧
        ∀ m ∈ blocks.flatMap (·.moves h.translator), Clean h.translator blocks m := by
  rw [readInverts_reversed_iff h hp hfull hssrc hfeedback, ← requested_reversed_iff]
  have hreports : List.Forall₂ (fun b b' => List.Forall₂ (ReportBlock.Inverts h.translator) b.reports
      b'.reports) blocks (blocks.map (·.reversed h.translator)) ↔
        ∀ b ∈ blocks, b.ReportsFit h.translator := by
    simp only [List.forall₂_map_right_iff, List.forall₂_same, reports_reversed_iff]
  rw [← hreports]
  exact ⟨fun hinv => ⟨hinv.reports, hinv.nacks⟩, fun hinv => ⟨hinv.1, hinv.2⟩⟩

/-- The handler after it was given, in slideshow mode, a keyframe 10, another packet 11, and a
keyframe 12. -/
def shown : RtpSlideShowHandler :=
  let packets : List DataPacket :=
    [{ header := { seqNumber := 10, timestamp := 1 }, isKeyframe := true },
      { header := { seqNumber := 11, timestamp := 2 } },
      { header := { seqNumber := 12, timestamp := 3 }, isKeyframe := true }]
  let start : Stage RtpSlideShowHandler Unit :=
    ⟨({} : RtpSlideShowHandler).setSlideShowMode true 0, (), ⟨3, fun ref => packets.getD ref {}⟩⟩
  ([0, 1, 2].foldl (fun s ref => write (fun d ps _ _ => (d, ps)) s { codec := some "VP8" } ref)
    start).handler

/-- The keyframe 12 was sent as 11; a report and a request by that number are translated. -/
theorem read_inverts_keyframe :
    shown.ReadInverts ⟨7, 8⟩
      (.of [.receiverReport 129 1 [⟨8, 0, 3, 11, 0, 0, 0⟩] [], .nack 129 1 8 [⟨11, 0⟩] []])
      [.receiverReport 129 1 [⟨8, 0, 3, 11, 0, 0, 0⟩] [], .nack 129 1 8 [⟨11, 0⟩] []] := by
  have himage : image shown.translator 11 = some 12 := by decide
  have hpid : reversedPid shown.translator 11 - 11 = 1 := by decide
  have hmoves : [Block.receiverReport 129 1 [⟨8, 0, 3, 11, 0, 0, 0⟩] [],
      .nack 129 1 8 [⟨11, 0⟩] []].flatMap (·.moves shown.translator) = [(⟨11, 0⟩, 1)] := by
    simp [Block.moves, Block.nacks, hpid]
  refine (read_inverts_iff shown (RtcpBuffer.holds_of (by decide) (by decide +kernel))
    (by decide) (by decide) (by decide +kernel)).mpr ⟨?_, fun m hm => ?_⟩
  · refine List.forall_mem_cons.mpr ⟨⟨fun input h => ?_, by simp⟩, by simp [Block.ReportsFit, Block.reports]⟩
    rw [← Option.some.inj (himage.symm.trans h)]
    exact .inr (.inl (by decide))
  · refine clean_of_uniform hm fun n hn => ?_
    rw [hmoves, List.mem_singleton] at hm
    subst hm
    rw [show n = 11 by simpa [NackBlock.numbers] using hn]
    exact himage

/-- The mask of an entry stays: who asks for the packets sent as 10 and 11, which the source calls
10 and 12, is given 10 and 11. -/
theorem read_misses_mask :
    (RtcpBuffer.of [.nack 129 1 8 [⟨10, 1⟩] []]).Holds [.nack 129 1 8 [⟨10, 1⟩] []] ∧
      (RtcpBuffer.of [.nack 129 1 8 [⟨10, 1⟩] []]).IsFeedback ∧
      ¬shown.ReadInverts ⟨7, 8⟩ (.of [.nack 129 1 8 [⟨10, 1⟩] []]) [.nack 129 1 8 [⟨10, 1⟩] []] := by
  have hp := @RtcpBuffer.holds_of [.nack 129 1 8 [⟨10, 1⟩] []] (by decide) (by decide +kernel)
  have hfeedback : (RtcpBuffer.of [.nack 129 1 8 [⟨10, 1⟩] []]).IsFeedback := by decide +kernel
  refine ⟨hp, hfeedback, fun h => ?_⟩
  have hinv := (readInverts_reversed_iff shown hp (by decide) (by decide) hfeedback).mp h
  have hten : image shown.translator 10 = some 10 := by decide
  have heleven : image shown.translator 11 = some 12 := by decide
  have hnumbers : (⟨10, 1⟩ : NackBlock).numbers = [10, 11] := by decide
  have hstays : requested ([Block.nack 129 1 8 [⟨10, 1⟩] []].map (·.reversed shown.translator)) =
      [10, 11] := by
    simp [requested, Block.reversed, Block.nacks, NackBlock.reversed, reversedPid, hten, hnumbers]
  have := (hinv.nacks 11).mp (by rw [hstays]; decide)
  simp [requested, Block.nacks, Asked, hnumbers, hten, heleven] at this

end RtpSlideShowHandler

end KkLicode.Rtp
