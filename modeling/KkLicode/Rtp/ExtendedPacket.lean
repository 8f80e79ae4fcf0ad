import KkLicode.Rtp.ExtensionBlock

/-! When the walk over the header extension of a packet finds the elements of its
block and writes into those for the sending time alone. Contributing sources in
front of the block hide it from the walk, or lead it astray. -/

namespace KkLicode.Rtp

open Base.BigEndian RtpExtensionProcessor

/-! ### Blocks that are followed -/

/-- Each run of padding in front of an element is even, and the elements are handled. -/
def Aligned (extMap : ExtensionMap) : List Piece → Prop
  | [] => True
  | [.byte _] => True
  | .byte _ :: .byte _ :: ps => Aligned extMap ps
  | .byte _ :: .element _ :: _ => False
  | .element e :: ps => e.Handled extMap ∧ Aligned extMap ps

/-- The bytes between the elements are padding. -/
def Padded (ps : List Piece) : Prop := ∀ b, .byte b ∈ ps → b = 0

variable {extMap : ExtensionMap} {pos stop i : ℕ} {ps qs : List Piece} {rest : List UInt8}

theorem plain_map_byte : Plain (rest.map .byte) := by simp [Plain]

/-- Where the walk starts with the block and ends with it, even padding is all that it needs. -/
theorem readable_iff_aligned (hpadded : Padded ps) (hstop : stop = pos + (ps.flatMap Piece.bytes).length) :
    Readable extMap stop pos pos (ps ++ rest.map .byte) ↔ Aligned extMap ps := by
  induction ps using Aligned.induct generalizing pos with
  | case1 =>
    rw [readable_of_stopped (by simp at hstop; omega)]
    simp [Aligned, plain_map_byte]
  | case2 b =>
    rw [readable_of_stopped (by simp [Piece.bytes] at hstop; omega)]
    simp [Aligned, Plain]
  | case3 b c ps ih =>
    have hb : b = 0 := hpadded b (by simp)
    have hlen : ((Piece.byte b :: Piece.byte c :: ps).flatMap Piece.bytes).length =
        (ps.flatMap Piece.bytes).length + 2 := by simp [Piece.bytes, Nat.add_assoc]
    have hnext : pos + ((0 : UInt8) &&& 0x0F).toNat + 2 = pos + 1 + 1 := rfl
    have hrest := @ih (pos + 1 + 1) (fun d hd => hpadded d (by simp [hd])) (by omega)
    rw [Aligned, ← hrest, List.cons_append, List.cons_append, Readable, if_pos ⟨rfl, by omega⟩, hb,
      hnext, Readable, if_neg (by omega)]
    simp
  | case4 b e ps =>
    have hlen : ((Piece.byte b :: Piece.element e :: ps).flatMap Piece.bytes).length =
        e.bytes.length + (ps.flatMap Piece.bytes).length + 1 := by
      simp [Piece.bytes]
    have hbytes := e.length_bytes
    rw [Aligned, List.cons_append, List.cons_append, Readable, if_pos ⟨rfl, by omega⟩, Readable]
    simp only [iff_false]
    omega
  | case5 e ps ih =>
    have hlen : ((Piece.element e :: ps).flatMap Piece.bytes).length =
        e.bytes.length + (ps.flatMap Piece.bytes).length := by simp [Piece.bytes]
    have hbytes := e.length_bytes
    have hrest := @ih (pos + e.bytes.length) (fun d hd => hpadded d (by simp [hd]))
      (by omega)
    rw [Aligned, ← hrest, List.cons_append, Readable]
    simp only [true_and, show pos + 1 < stop by omega]

theorem elementPlaces_map_byte : elementPlaces pos (rest.map .byte) = [] :=
  elementPlaces_eq_nil.mpr plain_map_byte

theorem sendTimePlaces_append :
    sendTimePlaces extMap pos (ps ++ qs) =
      sendTimePlaces extMap pos ps ++
        sendTimePlaces extMap (pos + (ps.flatMap Piece.bytes).length) qs := by
  induction ps generalizing pos with
  | nil => simp [sendTimePlaces]
  | cons p ps ih =>
    cases p with
    | byte b => simp [sendTimePlaces, ih, Piece.bytes, Nat.add_assoc, Nat.add_comm 1]
    | element e => simp [sendTimePlaces, ih, Piece.bytes, Nat.add_assoc]

theorem sendTimePlaces_map_byte : sendTimePlaces extMap pos (rest.map .byte) = [] := by
  induction rest generalizing pos with
  | nil => rfl
  | cons b rest ih => exact ih

/-! ### Packets -/

/-- A packet with a block of one-byte headers, in the buffer of a `dataPacket`. -/
structure ExtendedPacket where
  type : PacketType
  header : Media.RtpHeader
  csrcs : List UInt32
  block : List Piece
  /-- The payload, and what is left of the buffer. -/
  rest : List UInt8
  len : UInt32
  extended : header.hasextension = true
  counted : header.cc.toNat = csrcs.length
  padded : Padded block
  aligned : 4 ∣ (block.flatMap Piece.bytes).length
  size : 16 + 4 * csrcs.length + (block.flatMap Piece.bytes).length + rest.length = 1500

namespace ExtendedPacket

variable (p : ExtendedPacket)

def words : ℕ := (p.block.flatMap Piece.bytes).length / 4

/-- The contributing sources, the mark of the extension and its length. -/
def front : List UInt8 :=
  p.csrcs.flatMap (fun c => encode 4 c.toNat) ++ encode 2 0xBEDE ++ encode 2 p.words

def bytes : List UInt8 := p.header.fixed ++ p.front ++ p.block.flatMap Piece.bytes ++ p.rest

/-- The place of the block. -/
def start : ℕ := 16 + 4 * p.csrcs.length

/-- What lies behind the first sixteen bytes. -/
def pieces : List Piece := (p.front.drop 4).map .byte ++ p.block ++ p.rest.map .byte

/-- The call returns, has found the elements of the block, and has written into data bytes of those
for the sending time alone. -/
def Processed (processor : RtpExtensionProcessor) (now : ℕ → ℕ) : Prop :=
  ∃ w len, processor.processRtpExtensions now p.type p.bytes p.len = some (w, len) ∧
    w.visited = elementPlaces p.start p.block ∧
    ∀ i, (∀ extMap, processor.extMap p.type = some extMap →
        i ∉ sendTimePlaces extMap p.start p.block) →
      i ∉ w.written ∧ w.data[i]? = p.bytes[i]?

/-- The condition for it. Without contributing sources the block is to be aligned; with some, there
is to be none of the elements that the code then does not look for. If the first source happens to
begin with the mark of an extension, its other half is taken for the length, and the walk starts
among the sources. -/
def Walkable (processor : RtpExtensionProcessor) : Prop :=
  match processor.extMap p.type, p.csrcs with
  | none, _ => Plain p.block
  | some extMap, [] => Aligned extMap p.block
  | some extMap, c :: _ =>
    if c.toNat / 65536 = 0xBEDE then
      Readable extMap (c.toNat % 65536 * 4 + 16) 16 16 p.pieces
    else Plain p.block

theorem length_front : p.front.length = 4 * p.csrcs.length + 4 := by
  simp [front, Nat.mul_comm]

theorem length_bytes : p.bytes.length = 1500 := by
  have hsize := p.size
  have hfront := p.length_front
  simp only [bytes, List.length_append, p.header.length_fixed, Media.RtpHeader.MIN_SIZE]
  omega

theorem flatMap_map_byte (l : List UInt8) : (l.map Piece.byte).flatMap Piece.bytes = l := by
  induction l with
  | nil => rfl
  | cons b l ih => rw [List.map_cons, List.flatMap_cons, ih]; rfl

theorem bytes_eq : p.bytes = (p.header.fixed ++ p.front.take 4) ++ p.pieces.flatMap Piece.bytes := by
  rw [pieces, List.flatMap_append, List.flatMap_append, flatMap_map_byte, flatMap_map_byte]
  nth_rewrite 1 [bytes, ← List.take_append_drop 4 p.front]
  simp only [List.append_assoc]

theorem elementPlaces_pieces : elementPlaces 16 p.pieces = elementPlaces p.start p.block := by
  have hstart : 16 + (p.front.drop 4).length = p.start := by simp [length_front, start]
  rw [pieces, elementPlaces_append, elementPlaces_append, elementPlaces_map_byte,
    elementPlaces_map_byte, flatMap_map_byte, hstart, List.nil_append, List.append_nil]

theorem sendTimePlaces_pieces :
    sendTimePlaces extMap 16 p.pieces = sendTimePlaces extMap p.start p.block := by
  have hstart : 16 + (p.front.drop 4).length = p.start := by simp [length_front, start]
  rw [pieces, sendTimePlaces_append, sendTimePlaces_append, sendTimePlaces_map_byte,
    sendTimePlaces_map_byte, flatMap_map_byte, hstart, List.nil_append, List.append_nil]

/-- The fields of the extension as they are read. -/
theorem ofBuffer_bytes : Media.RtpHeader.ofBuffer p.bytes = { p.header with
    extensionpayload := .ofNat (decode (p.front.take 2))
    extensionlength := .ofNat (decode ((p.front.drop 2).take 2)) } := by
  have hfront := p.length_front
  have htake : (p.front ++ (p.block.flatMap Piece.bytes ++ p.rest)).take 2 = p.front.take 2 :=
    List.take_append_of_le_length (by omega)
  have hdrop : ((p.front ++ (p.block.flatMap Piece.bytes ++ p.rest)).drop 2).take 2 =
      (p.front.drop 2).take 2 := by
    rw [List.drop_append_of_le_length (by omega)]
    exact List.take_append_of_le_length (by rw [List.length_drop]; omega)
  rw [bytes, List.append_assoc, List.append_assoc, Media.RtpHeader.ofBuffer_fixed, htake, hdrop]

variable {p} {processor : RtpExtensionProcessor} {now : ℕ → ℕ}

/-- A packet that is not walked over keeps its bytes, and none of its elements is found. -/
theorem processed_of_unwalked
    (h : ∃ len, processor.processRtpExtensions now p.type p.bytes p.len =
      some ({ data := p.bytes }, len)) :
    p.Processed processor now ↔ Plain p.block := by
  obtain ⟨len, hlen⟩ := h
  rw [← @elementPlaces_eq_nil p.start]
  simp only [Processed, hlen, Option.some.injEq, Prod.mk.injEq]
  constructor
  · rintro ⟨w, len', ⟨rfl, -⟩, hvisited, -⟩
    exact hvisited.symm
  · exact fun h => ⟨_, len, ⟨rfl, rfl⟩, h.symm, fun i _ => ⟨List.not_mem_nil, rfl⟩⟩

theorem processed_iff_readable (hmap : processor.extMap p.type = some extMap)
    (hmark : (Media.RtpHeader.ofBuffer p.bytes).extensionpayload = 0xBEDE) :
    p.Processed processor now ↔
      Readable extMap ((Media.RtpHeader.ofBuffer p.bytes).extensionlength.toNat * 4 + 16) 16 16
        p.pieces := by
  have hpre : (p.header.fixed ++ p.front.take 4).length = 16 := by
    simp [p.header.length_fixed, length_front, Media.RtpHeader.MIN_SIZE]
  have hextended : (Media.RtpHeader.ofBuffer p.bytes).hasextension = true := by
    rw [ofBuffer_bytes]
    exact p.extended
  have hlen := p.length_bytes
  have hnext : (1 : UInt16).toNat + 15 = 16 := rfl
  have hwalk : WalksAlong now extMap (Media.RtpHeader.ofBuffer p.bytes).extensionlength
      (p.bytes.length + 1) { data := p.bytes } 16 1 (p.header.fixed ++ p.front.take 4).length
      p.pieces ↔ _ :=
    walksAlong_iff_readable p.bytes_eq hnext rfl hlen.le (Nat.succ_pos _)
      (by change p.bytes.length < _; omega) (Or.inl hpre.le)
  rw [hpre] at hwalk
  rw [← hwalk]
  simp only [Processed, WalksAlong, RtpExtensionProcessor.processRtpExtensions, hextended, hmap,
    hmark, if_true, Option.map_eq_some_iff, Prod.mk.injEq]
  constructor
  · rintro ⟨_, len, ⟨w, hloop, rfl, -⟩, hvisited, hother⟩
    refine ⟨w, hloop, by rw [hvisited, elementPlaces_pieces, List.nil_append], w.written, rfl, ?_⟩
    intro i hi
    rw [sendTimePlaces_pieces]
    by_contra hnot
    exact (hother i fun m hm => Option.some.inj hm ▸ hnot).1 hi
  · rintro ⟨w, hloop, hwalked⟩
    obtain ⟨added, hwritten, hplaces⟩ := hwalked.written
    obtain ⟨added', hwritten', -, hdata⟩ := (onward_extensionLoop hloop).written
    rw [List.nil_append] at hwritten hwritten'
    refine ⟨w, p.len, ⟨w, hloop, rfl, rfl⟩, ?_, fun i hi => ?_⟩
    · rw [hwalked.visited, elementPlaces_pieces, List.nil_append]
    · have hnot : i ∉ w.written := by
        intro hmem
        rw [hwritten] at hmem
        exact hi extMap rfl (p.sendTimePlaces_pieces ▸ hplaces i hmem)
      exact ⟨hnot, hdata i (hwritten' ▸ hnot)⟩

theorem encode_two_words {n : ℕ} : encode 4 n = encode 2 (n / 65536) ++ encode 2 n := by
  simp [encode, Nat.div_div_eq_div_mul]

/-- Without contributing sources the mark and the length are read, and the walk starts with the
block. -/
theorem processed_iff_of_no_csrcs (hmap : processor.extMap p.type = some extMap)
    (hcsrcs : p.csrcs = []) : p.Processed processor now ↔ Aligned extMap p.block := by
  have hsize := p.size
  have haligned := p.aligned
  have hfront : p.front = encode 2 0xBEDE ++ encode 2 p.words := by simp [front, hcsrcs]
  have hwords : p.words < 65536 := by rw [words]; omega
  have hmark : (Media.RtpHeader.ofBuffer p.bytes).extensionpayload = 0xBEDE := by
    rw [ofBuffer_bytes, hfront]
    rfl
  have hlength : (Media.RtpHeader.ofBuffer p.bytes).extensionlength.toNat = p.words := by
    rw [ofBuffer_bytes, hfront]
    dsimp only
    rw [List.drop_left' (length_encode _ _), List.take_of_length_le (by simp),
      decode_encode_of_lt hwords, UInt16.toNat_ofNat_of_lt' hwords]
  have hpieces : p.pieces = p.block ++ p.rest.map .byte := by simp [pieces, hfront]
  rw [processed_iff_readable hmap hmark, hlength, hpieces]
  exact readable_iff_aligned p.padded (by rw [words]; omega)

theorem take_front {c : UInt32} {csrcs : List UInt32} (hcsrcs : p.csrcs = c :: csrcs) :
    p.front.take 2 = encode 2 (c.toNat / 65536) ∧ (p.front.drop 2).take 2 = encode 2 c.toNat := by
  have hfront : p.front = encode 2 (c.toNat / 65536) ++ (encode 2 c.toNat ++
      (csrcs.flatMap (fun c => encode 4 c.toNat) ++ encode 2 0xBEDE ++ encode 2 p.words)) := by
    simp only [front, hcsrcs, List.flatMap_cons, encode_two_words, List.append_assoc]
  rw [hfront, List.take_left' (length_encode _ _), List.drop_left' (length_encode _ _),
    List.take_left' (length_encode _ _)]
  exact ⟨rfl, rfl⟩

/-- With contributing sources, the first of them is read for the mark and the length. -/
theorem processed_iff_of_csrcs {c : UInt32} {csrcs : List UInt32}
    (hmap : processor.extMap p.type = some extMap) (hcsrcs : p.csrcs = c :: csrcs) :
    p.Processed processor now ↔
      if c.toNat / 65536 = 0xBEDE then
        Readable extMap (c.toNat % 65536 * 4 + 16) 16 16 p.pieces
      else Plain p.block := by
  obtain ⟨hpayload, hlength⟩ := take_front hcsrcs
  have hc : c.toNat / 65536 < 65536 := by have := c.toNat_lt; omega
  have hmark : (Media.RtpHeader.ofBuffer p.bytes).extensionpayload = .ofNat (c.toNat / 65536) := by
    rw [ofBuffer_bytes, hpayload, decode_encode_of_lt hc]
  split_ifs with hfirst
  · rw [hfirst] at hmark
    have hstop : (Media.RtpHeader.ofBuffer p.bytes).extensionlength.toNat = c.toNat % 65536 := by
      rw [ofBuffer_bytes, hlength, decode_encode]
      exact UInt16.toNat_ofNat'.trans (Nat.mod_mod _ _)
    rw [processed_iff_readable hmap hmark, hstop]
  · have hne : (Media.RtpHeader.ofBuffer p.bytes).extensionpayload ≠ 0xBEDE := by
      intro heq
      have htoNat := congrArg UInt16.toNat (hmark.symm.trans heq)
      rw [UInt16.toNat_ofNat_of_lt' hc] at htoNat
      exact hfirst htoNat
    refine processed_of_unwalked ⟨if (Media.RtpHeader.ofBuffer p.bytes).hasextension then p.len
      else p.len, ?_⟩
    simp only [RtpExtensionProcessor.processRtpExtensions, hmap, hne, if_false]
    split_ifs <;> rfl

/-- The block is processed if and only if the walk comes upon each element of it. -/
theorem processed_iff (p : ExtendedPacket) (processor : RtpExtensionProcessor) (now : ℕ → ℕ) :
    p.Processed processor now ↔ p.Walkable processor := by
  unfold Walkable
  cases hmap : processor.extMap p.type with
  | none =>
    refine processed_of_unwalked ⟨0, ?_⟩
    have hextended : (Media.RtpHeader.ofBuffer p.bytes).hasextension = true := by
      rw [ofBuffer_bytes]
      exact p.extended
    simp only [RtpExtensionProcessor.processRtpExtensions, hextended, hmap, if_true]
  | some extMap =>
    cases hcsrcs : p.csrcs with
    | nil => exact processed_iff_of_no_csrcs hmap hcsrcs
    | cons c csrcs => exact processed_iff_of_csrcs hmap hcsrcs

/-- One byte of padding, and an element of two data bytes behind it. -/
def oddPadding : ExtendedPacket where
  type := .video
  header := { hasextension := true }
  csrcs := []
  block := [.byte 0, .element ⟨1, 1, [5, 7], rfl, by decide, by decide⟩]
  rest := List.replicate 1480 0
  len := 20
  extended := rfl
  counted := rfl
  padded := by simp [Padded]
  aligned := ⟨1, rfl⟩
  size := by rw [List.length_replicate]; rfl

theorem oddPadding_not_processed : ¬ ∀ (p : ExtendedPacket) (processor : RtpExtensionProcessor)
    (now : ℕ → ℕ), p.Processed processor now := fun h =>
  (processed_iff_of_no_csrcs rfl rfl).mp
    (h oddPadding ⟨.replicate 10 .UNKNOWN, .replicate 10 .UNKNOWN⟩ fun _ => 0)

end ExtendedPacket

end KkLicode.Rtp
