import KkLicode.Base.Buffer
import KkLicode.Rtp.RtcpPacket

/-! RTCP packets as bytes. A handler that changes feedback walks over the blocks
of the packet and writes into each where the fields of the block are; it does not
look at how much of the block, or of the packet, there is. -/

namespace KkLicode.Rtp

open Base.Buffer

namespace RtcpHeader

/-! ### The fields of a block

`chead` is where the block starts. -/

variable (data : List UInt8) (chead : ℕ)

def getPacketType : UInt8 := data.getD (chead + 1) 0

def getLength : UInt16 := getShort data (chead + 2)

def getSourceSSRC : UInt32 := getLong data (chead + 8)

def getSeqnumCycles : UInt16 := getShort data (chead + 16)

def setSeqnumCycles (seqnumcycles : UInt16) : List UInt8 := setShort data (chead + 16) seqnumcycles

def getHighestSeqnum : UInt16 := getShort data (chead + 18)

def setHighestSeqnum (highest : UInt16) : List UInt8 := setShort data (chead + 18) highest

def getNackPid : UInt16 := getShort data (chead + 12)

def setNackPid (pid : UInt16) : List UInt8 := setShort data (chead + 12) pid

theorem getPacketType_append (before : List UInt8) :
    getPacketType (before ++ data) before.length = getPacketType data 0 := by
  simp only [getPacketType, List.getD_eq_getElem?_getD, List.getElem?_append_right,
    Nat.le_add_right, Nat.add_sub_cancel_left, Nat.zero_add]

end RtcpHeader

/-- The loop of `RtpUtils::forEachRRBlock`, which other handlers have a copy of. It ends by its own
test, since a block has a header at least. -/
def forEachBlock (f : List UInt8 → ℕ → List UInt8) (length : ℕ) : ℕ → List UInt8 → ℕ → List UInt8
  | 0, data, _ => data
  | fuel + 1, data, chead =>
    let next := chead + ((RtcpHeader.getLength data chead).toNat + 1) * 4
    let data := f data chead
    if next < length then forEachBlock f length fuel data next else data

/-- More turns than there are words left are never taken. -/
theorem forEachBlock_fuel (f : List UInt8 → ℕ → List UInt8) {length m n chead : ℕ}
    (hm : length ≤ chead + 4 * m) (hn : length ≤ chead + 4 * n) (hm0 : 0 < m) (hn0 : 0 < n)
    (data : List UInt8) :
    forEachBlock f length m data chead = forEachBlock f length n data chead := by
  induction m generalizing n data chead with
  | zero => omega
  | succ m ih =>
    obtain ⟨n, rfl⟩ : ∃ k, n = k + 1 := ⟨n - 1, by omega⟩
    simp only [forEachBlock]
    split_ifs with hnext
    · exact ih (by omega) (by omega) (by omega) (by omega) _
    · rfl

/-- What is changed lies behind the common header of a feedback block. -/
def Behind (f : List UInt8 → ℕ → List UInt8) : Prop :=
  ∀ data chead, (f data chead).take (chead + 12) = data.take (chead + 12)

/-- A walk changes nothing in front of where the first block has its fields. -/
theorem Behind.forEachBlock {f : List UInt8 → ℕ → List UInt8} (hf : Behind f) (length fuel : ℕ)
    (data : List UInt8) (chead : ℕ) :
    (forEachBlock f length fuel data chead).take (chead + 12) = data.take (chead + 12) := by
  induction fuel generalizing data chead with
  | zero => rfl
  | succ fuel ih =>
    simp only [Rtp.forEachBlock]
    split_ifs with hnext
    · have h := ih (f data chead) (chead + ((RtcpHeader.getLength data chead).toNat + 1) * 4)
      have := congrArg (List.take (chead + 12)) h
      rw [List.take_take, List.take_take, Nat.min_eq_left (by omega)] at this
      rw [this, hf]
    · exact hf data chead

/-- A number that the walk has come past stays wrong. -/
theorem Behind.forEachBlock_ne {f : List UInt8 → ℕ → List UInt8} (hf : Behind f) {length chead i : ℕ}
    {data spec : List UInt8} (hi : i + 2 ≤ chead + 12) (hi' : i + 2 ≤ length)
    (hne : getShort data i ≠ getShort spec i) (fuel : ℕ) :
    (Rtp.forEachBlock f length fuel data chead).take length ≠ spec := by
  refine take_ne_of_getShort_ne hi' ?_
  rwa [getShort_congr_take (hf.forEachBlock length fuel data chead) hi]

/-! ### Compound packets -/

/-- What a receiver reports on one source. -/
structure ReportBlock where
  ssrcsource : UInt32
  /-- The fraction lost, in the highest byte, and the number of packets lost. -/
  lost : UInt32 := 0
  seqnumcycles : UInt16
  highestseqnum : UInt16
  jitter : UInt32 := 0
  lastsr : UInt32 := 0
  delaysincelast : UInt32 := 0
  deriving DecidableEq, Repr

def ReportBlock.bytes (r : ReportBlock) : List UInt8 :=
  long r.ssrcsource ++ (long r.lost ++ (short r.seqnumcycles ++ (short r.highestseqnum ++
    (long r.jitter ++ (long r.lastsr ++ long r.delaysincelast)))))

@[simp] theorem ReportBlock.length_bytes (r : ReportBlock) : r.bytes.length = 24 := rfl

theorem ReportBlock.bytes_inj {r r' : ReportBlock} (h : r.bytes = r'.bytes) : r = r' := by
  obtain ⟨hsource, h⟩ := List.append_inj h rfl
  obtain ⟨hlost, h⟩ := List.append_inj h rfl
  obtain ⟨hcycles, h⟩ := List.append_inj h rfl
  obtain ⟨hhighest, h⟩ := List.append_inj h rfl
  obtain ⟨hjitter, h⟩ := List.append_inj h rfl
  obtain ⟨hlastsr, hdelay⟩ := List.append_inj h rfl
  cases r
  cases r'
  exact ReportBlock.mk.injEq .. ▸ ⟨long_inj hsource, long_inj hlost, short_inj hcycles,
    short_inj hhighest, long_inj hjitter, long_inj hlastsr, long_inj hdelay⟩

def NackBlock.bytes (nack : NackBlock) : List UInt8 := short nack.pid ++ short nack.blp

@[simp] theorem NackBlock.length_bytes (nack : NackBlock) : nack.bytes.length = 4 := rfl

theorem NackBlock.bytes_inj {nack nack' : NackBlock} (h : nack.bytes = nack'.bytes) :
    nack = nack' := by
  obtain ⟨hpid, hblp⟩ := List.append_inj h rfl
  cases nack
  cases nack'
  exact NackBlock.mk.injEq .. ▸ ⟨short_inj hpid, short_inj hblp⟩

/-- A block of a compound packet with all it holds. `first` is its first byte: the version, whether
there is padding, and the number of reports or the format. -/
inductive Block where
  | receiverReport (first : UInt8) (ssrc : UInt32) (reports : List ReportBlock)
      (extension : List UInt32)
  | nack (first : UInt8) (ssrc ssrcsource : UInt32) (nacks : List NackBlock) (padding : List UInt32)
  | other (first packettype : UInt8) (words : List UInt32)
  deriving DecidableEq, Repr

namespace Block

def first : Block → UInt8
  | receiverReport first .. => first
  | nack first .. => first
  | other first .. => first

def packettype : Block → UInt8
  | receiverReport .. => RTCP_Receiver_PT
  | nack .. => RTCP_RTP_Feedback_PT
  | other _ packettype _ => packettype

/-- The bytes behind the four of the header. -/
def body : Block → List UInt8
  | receiverReport _ ssrc reports extension =>
    long ssrc ++ (reports.flatMap (·.bytes) ++ extension.flatMap long)
  | nack _ ssrc ssrcsource nacks padding =>
    long ssrc ++ (long ssrcsource ++ (nacks.flatMap (·.bytes) ++ padding.flatMap long))
  | other _ _ words => words.flatMap long

def bytes (b : Block) : List UInt8 :=
  b.first :: b.packettype :: (short (.ofNat (b.body.length / 4)) ++ b.body)

/-- The count in the first byte is right, and the length can be written in two bytes. -/
def WellFormed (b : Block) : Prop :=
  b.body.length < 65536 * 4 ∧
    match b with
    | receiverReport first _ reports _ => first.toNat % 32 = reports.length
    | nack first _ _ nacks _ => first.toNat % 32 = 1 ∧ nacks ≠ []
    | other first packettype _ => packettype ≠ RTCP_Receiver_PT ∧
        (packettype = RTCP_RTP_Feedback_PT → first.toNat % 32 ≠ 1)

instance : DecidablePred WellFormed := fun b =>
  match b with
  | receiverReport .. => inferInstanceAs (Decidable (_ ∧ _))
  | nack .. => inferInstanceAs (Decidable (_ ∧ _))
  | other .. => inferInstanceAs (Decidable (_ ∧ _))

end Block

namespace Block

@[simp] theorem length_flatMap_long (words : List UInt32) :
    (words.flatMap long).length = 4 * words.length :=
  length_flatMap_of_length length_long words

@[simp] theorem length_flatMap_reports (reports : List ReportBlock) :
    (reports.flatMap (·.bytes)).length = 24 * reports.length :=
  length_flatMap_of_length ReportBlock.length_bytes reports

@[simp] theorem length_flatMap_nacks (nacks : List NackBlock) :
    (nacks.flatMap (·.bytes)).length = 4 * nacks.length :=
  length_flatMap_of_length NackBlock.length_bytes nacks

/-- A block is made of words. -/
theorem four_dvd_length_body (b : Block) : 4 ∣ b.body.length := by
  cases b <;> simp only [body, List.length_append, length_long, length_flatMap_long,
    length_flatMap_reports, length_flatMap_nacks] <;> omega

theorem length_bytes (b : Block) : b.bytes.length = b.body.length + 4 := rfl

/-- The length field says where the next block starts. -/
theorem getLength_bytes {b : Block} (hb : b.WellFormed) (before behind : List UInt8) :
    ((RtcpHeader.getLength (before ++ (b.bytes ++ behind)) before.length).toNat + 1) * 4 =
      b.bytes.length := by
  have hread : RtcpHeader.getLength (before ++ (b.bytes ++ behind)) before.length =
      .ofNat (b.body.length / 4) := by
    rw [RtcpHeader.getLength, getShort_append_right rfl]
    exact getShort_short _ (b.body ++ behind)
  have hlt := hb.1
  have hdvd := b.four_dvd_length_body
  rw [hread, UInt16.toNat_ofNat', length_bytes]
  omega

/-- The kind of a block, and how many reports, entries and words it has. -/
def shape : Block → ℕ × ℕ × ℕ
  | receiverReport _ _ reports extension => (0, reports.length, extension.length)
  | nack _ _ _ nacks padding => (1, nacks.length, padding.length)
  | other _ _ words => (2, words.length, 0)

theorem length_body_of_shape {b b' : Block} (h : b.shape = b'.shape) :
    b.body.length = b'.body.length := by
  cases b <;> cases b' <;> simp_all [shape, body]

/-- Blocks of one shape with the same bytes are the same. -/
theorem bytes_inj {b b' : Block} (hshape : b.shape = b'.shape) (h : b.bytes = b'.bytes) : b = b' := by
  obtain ⟨hfirst, h⟩ := List.cons.inj h
  obtain ⟨htype, h⟩ := List.cons.inj h
  have hbody := (List.append_inj h rfl).2
  cases b with
  | receiverReport first ssrc reports extension =>
    cases b' with
    | receiverReport first' ssrc' reports' extension' =>
      simp only [shape, Prod.mk.injEq, true_and] at hshape
      obtain ⟨hssrc, hbody⟩ := List.append_inj hbody rfl
      obtain ⟨hreports, hext⟩ := List.append_inj hbody (by simp [hshape.1])
      rw [show first = first' from hfirst, long_inj hssrc,
        flatMap_inj ReportBlock.length_bytes (fun _ _ => ReportBlock.bytes_inj) hshape.1 hreports,
        flatMap_inj length_long (fun _ _ => long_inj) hshape.2 hext]
    | nack => simp [shape] at hshape
    | other => simp [shape] at hshape
  | nack first ssrc ssrcsource nacks padding =>
    cases b' with
    | nack first' ssrc' ssrcsource' nacks' padding' =>
      simp only [shape, Prod.mk.injEq, true_and] at hshape
      obtain ⟨hssrc, hbody⟩ := List.append_inj hbody rfl
      obtain ⟨hsource, hbody⟩ := List.append_inj hbody rfl
      obtain ⟨hnacks, hpadding⟩ := List.append_inj hbody (by simp [hshape.1])
      rw [show first = first' from hfirst, long_inj hssrc, long_inj hsource,
        flatMap_inj NackBlock.length_bytes (fun _ _ => NackBlock.bytes_inj) hshape.1 hnacks,
        flatMap_inj length_long (fun _ _ => long_inj) hshape.2 hpadding]
    | receiverReport => simp [shape] at hshape
    | other => simp [shape] at hshape
  | other first packettype words =>
    cases b' with
    | other first' packettype' words' =>
      simp only [shape, Prod.mk.injEq, true_and, and_true] at hshape
      rw [show first = first' from hfirst, show packettype = packettype' from htype,
        flatMap_inj length_long (fun _ _ => long_inj) hshape hbody]
    | receiverReport => simp [shape] at hshape
    | nack => simp [shape] at hshape

theorem getPacketType_bytes (b : Block) (behind : List UInt8) :
    RtcpHeader.getPacketType (b.bytes ++ behind) 0 = b.packettype := rfl

end Block

/-- The bytes of a compound packet. -/
def compound (blocks : List Block) : List UInt8 := blocks.flatMap (·.bytes)

theorem compound_cons (b : Block) (blocks : List Block) :
    compound (b :: blocks) = b.bytes ++ compound blocks := List.flatMap_cons

theorem four_dvd_length_compound (blocks : List Block) : 4 ∣ (compound blocks).length := by
  induction blocks with
  | nil => exact Nat.dvd_zero 4
  | cons b blocks ih =>
    have := b.four_dvd_length_body
    rw [compound_cons, List.length_append, Block.length_bytes]
    omega

theorem four_mul_length_le (blocks : List Block) : 4 * blocks.length ≤ (compound blocks).length := by
  induction blocks with
  | nil => simp
  | cons b blocks ih =>
    rw [compound_cons, List.length_append, Block.length_bytes, List.length_cons]
    omega

/-- Packets with blocks of the same shapes and the same bytes have the same blocks. -/
theorem compound_inj {blocks blocks' : List Block} (hshape : blocks.map (·.shape) = blocks'.map (·.shape))
    (h : compound blocks = compound blocks') : blocks = blocks' := by
  induction blocks generalizing blocks' with
  | nil => exact (List.map_eq_nil_iff.mp hshape.symm).symm
  | cons b blocks ih =>
    cases blocks' with
    | nil => simp at hshape
    | cons b' blocks' =>
      obtain ⟨hb, hshape⟩ := List.cons.inj hshape
      rw [compound_cons, compound_cons] at h
      obtain ⟨hbytes, h⟩ := List.append_inj h
        (by rw [Block.length_bytes, Block.length_bytes, Block.length_body_of_shape hb])
      rw [Block.bytes_inj hb hbytes, ih hshape h]

theorem length_compound_map {g : Block → Block} (hg : ∀ b, (g b).bytes.length = b.bytes.length)
    (blocks : List Block) : (compound (blocks.map g)).length = (compound blocks).length := by
  induction blocks with
  | nil => rfl
  | cons b blocks ih =>
    rw [List.map_cons, compound_cons, compound_cons, List.length_append, List.length_append, ih, hg]

/-- The walk over a compound packet, with whatever is in the buffer behind it. -/
theorem forEachBlock_cons (f : List UInt8 → ℕ → List UInt8) {fuel length : ℕ} {b : Block}
    (hb : b.WellFormed) {before behind : List UInt8} {blocks : List Block}
    (hlen : length = (before ++ compound (b :: blocks)).length) :
    forEachBlock f length (fuel + 1) (before ++ (b.bytes ++ behind)) before.length =
      if blocks = [] then f (before ++ (b.bytes ++ behind)) before.length
      else forEachBlock f length fuel (f (before ++ (b.bytes ++ behind)) before.length)
        (before ++ b.bytes).length := by
  have hnext : before.length + b.bytes.length < length ↔ blocks ≠ [] := by
    rw [hlen, List.length_append, compound_cons, List.length_append]
    cases blocks with
    | nil => simp [compound]
    | cons c blocks =>
      rw [compound_cons, List.length_append, Block.length_bytes c]
      exact ⟨fun _ => List.cons_ne_nil c blocks, fun _ => by omega⟩
  simp only [forEachBlock, Block.getLength_bytes hb, hnext, List.length_append, ite_not]

/-- A function that changes each block in its place changes all of them. -/
theorem forEachBlock_map {f : List UInt8 → ℕ → List UInt8} {g : Block → Block}
    (happ : ∀ before data, f (before ++ data) before.length = before ++ f data 0)
    (hlength : ∀ b, (g b).bytes.length = b.bytes.length) {blocks : List Block} (hne : blocks ≠ [])
    (hwf : ∀ b ∈ blocks, b.WellFormed)
    (hg : ∀ b ∈ blocks, ∀ behind, f (b.bytes ++ behind) 0 = (g b).bytes ++ behind)
    {before behind : List UInt8} {length fuel : ℕ} (hlen : length = (before ++ compound blocks).length)
    (hfuel : blocks.length ≤ fuel) :
    forEachBlock f length fuel (before ++ (compound blocks ++ behind)) before.length =
      before ++ (compound (blocks.map g) ++ behind) := by
  induction blocks generalizing before fuel with
  | nil => exact absurd rfl hne
  | cons b blocks ih =>
    obtain ⟨fuel, rfl⟩ : ∃ k, fuel = k + 1 := ⟨fuel - 1, by simp at hfuel; omega⟩
    obtain ⟨hb, hwf⟩ := List.forall_mem_cons.mp hwf
    obtain ⟨hgb, hg⟩ := List.forall_mem_cons.mp hg
    rw [compound_cons, List.append_assoc, forEachBlock_cons f hb hlen, happ, hgb, List.map_cons,
      compound_cons]
    split_ifs with hnil
    · subst hnil
      simp [compound]
    · have hat : (before ++ b.bytes).length = (before ++ (g b).bytes).length := by simp [hlength]
      have hlen' : length = (before ++ (g b).bytes ++ compound blocks).length := by
        simp [hlen, compound_cons, hlength]
      rw [hat, ← List.append_assoc, ih hnil hwf hg hlen' (by simp at hfuel; omega)]
      simp

/-- The buffer of a data packet, and how much of it the packet takes up. -/
structure RtcpBuffer where
  data : List UInt8
  length : ℕ
  deriving DecidableEq, Repr

/-- The packet in the buffer. -/
def RtcpBuffer.packet (b : RtcpBuffer) : List UInt8 := b.data.take b.length

/-- The buffer holds a compound packet. -/
structure RtcpBuffer.Holds (b : RtcpBuffer) (blocks : List Block) : Prop where
  packet : b.packet = compound blocks
  room : b.length ≤ b.data.length
  some : blocks ≠ []
  wellFormed : ∀ block ∈ blocks, block.WellFormed

/-- `isFeedback`, for the first block. -/
def RtcpBuffer.IsFeedback (b : RtcpBuffer) : Prop :=
  RtcpHeader.getPacketType b.data 0 = RTCP_Receiver_PT ∨
    RtcpHeader.getPacketType b.data 0 = RTCP_PS_Feedback_PT ∨
    RtcpHeader.getPacketType b.data 0 = RTCP_RTP_Feedback_PT

instance : DecidablePred RtcpBuffer.IsFeedback := fun _ => inferInstanceAs (Decidable (_ ∨ _))

/-- `RtpUtils::forEachRRBlock`, on bytes. -/
def RtcpBuffer.forEachRRBlock (b : RtcpBuffer) (f : List UInt8 → ℕ → List UInt8) : RtcpBuffer :=
  if b.IsFeedback then
    { b with data := forEachBlock f b.length (b.length + 1) b.data 0 }
  else b

theorem RtcpBuffer.Holds.length {b : RtcpBuffer} {blocks : List Block} (h : b.Holds blocks) :
    b.length = (compound blocks).length := by
  rw [← h.packet, RtcpBuffer.packet, List.length_take, Nat.min_eq_left h.room]

theorem RtcpBuffer.Holds.data {b : RtcpBuffer} {blocks : List Block} (h : b.Holds blocks) :
    b.data = compound blocks ++ b.data.drop b.length := by
  rw [← h.packet, RtcpBuffer.packet, List.take_append_drop]

/-- A buffer with nothing but the packet. -/
def RtcpBuffer.of (blocks : List Block) : RtcpBuffer := ⟨compound blocks, (compound blocks).length⟩

theorem RtcpBuffer.holds_of {blocks : List Block} (hne : blocks ≠ [])
    (hwf : ∀ b ∈ blocks, b.WellFormed) : (RtcpBuffer.of blocks).Holds blocks where
  packet := List.take_length
  room := le_refl _
  some := hne
  wellFormed := hwf

/-- What the media sources of the connection are called on the side that reports on them. -/
structure SinkSSRC where
  audio : UInt32
  video : UInt32
  deriving DecidableEq, Repr

/-! ### Extended numbers -/

namespace ReportBlock

/-- The extended highest number. -/
def extended (r : ReportBlock) : UInt32 :=
  r.seqnumcycles.toUInt32 * 65536 + r.highestseqnum.toUInt32

def withExtended (r : ReportBlock) (n : UInt32) : ReportBlock :=
  { r with seqnumcycles := (n >>> 16).toUInt16, highestseqnum := n.toUInt16 }

theorem toNat_extended (r : ReportBlock) :
    r.extended.toNat = r.seqnumcycles.toNat * 65536 + r.highestseqnum.toNat := by
  have hc := r.seqnumcycles.toNat_lt
  have hh := r.highestseqnum.toNat_lt
  simp only [extended, UInt32.toNat_add, UInt32.toNat_mul, UInt16.toNat_toUInt32,
    UInt32.reduceToNat]
  omega

/-- The two halves of a number. -/
theorem withExtended_eq {r : ReportBlock} {n : UInt32} {cycles highest : UInt16}
    (h : n.toNat = cycles.toNat * 65536 + highest.toNat) :
    r.withExtended n = { r with seqnumcycles := cycles, highestseqnum := highest } := by
  have hc := cycles.toNat_lt
  have hh := highest.toNat_lt
  have hcycles : (n >>> 16).toUInt16 = cycles := by
    apply UInt16.toNat_inj.mp
    simp only [UInt32.toNat_toUInt16, UInt32.toNat_shiftRight, UInt32.reduceToNat,
      Nat.shiftRight_eq_div_pow, h, Nat.reduceMod, Nat.reducePow]
    omega
  have hhighest : n.toUInt16 = highest := by
    apply UInt16.toNat_inj.mp
    simp only [UInt32.toNat_toUInt16, h]
    omega
  rw [withExtended, hcycles, hhighest]

end ReportBlock

end KkLicode.Rtp
