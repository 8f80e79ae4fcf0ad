import KkLicode.Base.BigEndian

/-! The bytes of an RTP header, as the bit fields of `RtpHeader` lie in memory. -/

namespace KkLicode.Media

open Base.BigEndian

structure RtpHeader where
  cc : BitVec 4 := 0
  hasextension : Bool := false
  padding : Bool := false
  version : BitVec 2 := 2
  payloadtype : BitVec 7 := 0
  marker : Bool := false
  seqnum : UInt16 := 0
  timestamp : UInt32 := 0
  ssrc : UInt32 := 0
  extensionpayload : UInt16 := 0
  extensionlength : UInt16 := 0
  deriving DecidableEq

namespace RtpHeader

def MIN_SIZE : ℕ := 12

def getHeaderLength (h : RtpHeader) : ℕ :=
  MIN_SIZE + h.cc.toNat * 4 + if h.hasextension then 4 + h.extensionlength.toNat * 4 else 0

/-- The first byte, from the version down to the count. -/
def byte0 (version : BitVec 2) (padding hasextension : Bool) (cc : BitVec 4) : UInt8 :=
  UInt8.ofBitVec (version ++ BitVec.ofBool padding ++ BitVec.ofBool hasextension ++ cc)

def byte1 (marker : Bool) (payloadtype : BitVec 7) : UInt8 :=
  UInt8.ofBitVec (BitVec.ofBool marker ++ payloadtype)

/-- The header in memory, with the extension fields behind the first twelve bytes. -/
def toBytes (h : RtpHeader) : List UInt8 :=
  [byte0 h.version h.padding h.hasextension h.cc, byte1 h.marker h.payloadtype] ++
    encode 2 h.seqnum.toNat ++ encode 4 h.timestamp.toNat ++
    encode 4 h.ssrc.toNat ++ encode 2 h.extensionpayload.toNat ++
    encode 2 h.extensionlength.toNat

/-- The header at the start of a buffer. -/
def ofBuffer (b : List UInt8) : RtpHeader where
  cc := (b.getD 0 0).toBitVec.extractLsb' 0 4
  hasextension := (b.getD 0 0).toBitVec.getLsbD 4
  padding := (b.getD 0 0).toBitVec.getLsbD 5
  version := (b.getD 0 0).toBitVec.extractLsb' 6 2
  payloadtype := (b.getD 1 0).toBitVec.extractLsb' 0 7
  marker := (b.getD 1 0).toBitVec.getLsbD 7
  seqnum := .ofNat (decode ((b.drop 2).take 2))
  timestamp := .ofNat (decode ((b.drop 4).take 4))
  ssrc := .ofNat (decode ((b.drop 8).take 4))
  extensionpayload := .ofNat (decode ((b.drop 12).take 2))
  extensionlength := .ofNat (decode ((b.drop 14).take 2))

theorem byte0_fields : ∀ (version : BitVec 2) (padding hasextension : Bool) (cc : BitVec 4),
    (byte0 version padding hasextension cc).toBitVec.extractLsb' 0 4 = cc ∧
      (byte0 version padding hasextension cc).toBitVec.getLsbD 4 = hasextension ∧
      (byte0 version padding hasextension cc).toBitVec.getLsbD 5 = padding ∧
      (byte0 version padding hasextension cc).toBitVec.extractLsb' 6 2 = version := by
  decide

theorem byte1_fields : ∀ (marker : Bool) (payloadtype : BitVec 7),
    (byte1 marker payloadtype).toBitVec.extractLsb' 0 7 = payloadtype ∧
      (byte1 marker payloadtype).toBitVec.getLsbD 7 = marker := by
  decide

/-- The first twelve bytes. -/
def fixed (h : RtpHeader) : List UInt8 := h.toBytes.take MIN_SIZE

theorem fixed_eq (h : RtpHeader) : h.fixed =
    [byte0 h.version h.padding h.hasextension h.cc, byte1 h.marker h.payloadtype] ++
      encode 2 h.seqnum.toNat ++ encode 4 h.timestamp.toNat ++ encode 4 h.ssrc.toNat := by
  rw [fixed, toBytes, List.append_assoc _ _ (encode 2 h.extensionlength.toNat)]
  exact List.take_left' (by simp [MIN_SIZE])

theorem length_fixed (h : RtpHeader) : h.fixed.length = MIN_SIZE := by simp [fixed_eq, MIN_SIZE]

/-- Of the first twelve bytes and what follows the header is read back, the extension fields from
what follows. -/
theorem ofBuffer_fixed (h : RtpHeader) (rest : List UInt8) :
    ofBuffer (h.fixed ++ rest) = { h with
      extensionpayload := .ofNat (decode (rest.take 2))
      extensionlength := .ofNat (decode ((rest.drop 2).take 2)) } := by
  have heq : h.fixed ++ rest =
      [byte0 h.version h.padding h.hasextension h.cc, byte1 h.marker h.payloadtype] ++
        (encode 2 h.seqnum.toNat ++ (encode 4 h.timestamp.toNat ++
          (encode 4 h.ssrc.toNat ++ rest))) := by
    rw [fixed_eq]
    simp only [List.append_assoc]
  have hseq : ((h.fixed ++ rest).drop 2).take 2 = encode 2 h.seqnum.toNat := by
    rw [heq]
    exact take_drop_encode _ _ 2 _ rfl
  have hts : ((h.fixed ++ rest).drop 4).take 4 = encode 4 h.timestamp.toNat := by
    rw [heq, ← List.append_assoc]
    exact take_drop_encode _ _ 4 _ (by simp)
  have hssrc : ((h.fixed ++ rest).drop 8).take 4 = encode 4 h.ssrc.toNat := by
    rw [heq, ← List.append_assoc, ← List.append_assoc]
    exact take_drop_encode _ _ 4 _ (by simp)
  have hrest : (h.fixed ++ rest).drop 12 = rest := List.drop_left' h.length_fixed
  have hrest' : (h.fixed ++ rest).drop 14 = rest.drop 2 := by
    rw [← List.drop_drop (i := 2) (j := 12), hrest]
  have h0 : (h.fixed ++ rest).getD 0 0 = byte0 h.version h.padding h.hasextension h.cc := by
    rw [heq]
    rfl
  have h1 : (h.fixed ++ rest).getD 1 0 = byte1 h.marker h.payloadtype := by
    rw [heq]
    rfl
  obtain ⟨hcc, hx, hp, hv⟩ := byte0_fields h.version h.padding h.hasextension h.cc
  obtain ⟨hpt, hm⟩ := byte1_fields h.marker h.payloadtype
  rw [ofBuffer, hseq, hts, hssrc, hrest, hrest', h0, h1, hcc, hx, hp, hv, hpt, hm,
    decode_encode_of_lt h.seqnum.toNat_lt, decode_encode_of_lt h.timestamp.toNat_lt,
    decode_encode_of_lt h.ssrc.toNat_lt, UInt16.ofNat_toNat, UInt32.ofNat_toNat,
    UInt32.ofNat_toNat]

end RtpHeader

end KkLicode.Media
