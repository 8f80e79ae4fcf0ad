import Mathlib.Algebra.Order.Group.Nat
import KkLicode.Base.LittleEndian
import KkLicode.Base.Serial32

/-! The segments of KCP and their bytes. A datagram is a row of segments, each a
head of `IKCP_OVERHEAD` bytes in which the lowest byte of a number comes first,
and then the data. -/

namespace KkLicode.Ikcp

open Base

def IKCP_RTO_NDL : UInt32 := 30
def IKCP_RTO_MIN : UInt32 := 100
def IKCP_RTO_DEF : UInt32 := 200
def IKCP_RTO_MAX : UInt32 := 60000
def IKCP_CMD_PUSH : UInt32 := 81
def IKCP_CMD_ACK : UInt32 := 82
def IKCP_CMD_WASK : UInt32 := 83
def IKCP_CMD_WINS : UInt32 := 84
def IKCP_ASK_SEND : UInt32 := 1
def IKCP_ASK_TELL : UInt32 := 2
def IKCP_WND_SND : UInt32 := 32
def IKCP_WND_RCV : UInt32 := 32
def IKCP_MTU_DEF : UInt32 := 1400
def IKCP_INTERVAL : UInt32 := 100
def IKCP_OVERHEAD : ℕ := 24
def IKCP_DEADLINK : UInt32 := 20
def IKCP_THRESH_INIT : UInt32 := 2
def IKCP_THRESH_MIN : UInt32 := 2
def IKCP_PROBE_INIT : UInt32 := 7000
def IKCP_PROBE_LIMIT : UInt32 := 120000

/-- `_itimediff`. -/
abbrev itimediff (later earlier : UInt32) : ℤ := Serial32.diff later earlier

def imin (a b : UInt32) : UInt32 := if a ≤ b then a else b

def imax (a b : UInt32) : UInt32 := if a ≥ b then a else b

def ibound (lower middle upper : UInt32) : UInt32 := imin (imax lower middle) upper

/-- `IKCPSEG`. The field `len` is the length of the data. -/
structure IkcpSeg where
  conv : UInt32
  cmd : UInt32
  frg : UInt32
  wnd : UInt32
  ts : UInt32
  sn : UInt32
  una : UInt32
  resendts : UInt32 := 0
  rto : UInt32 := 0
  fastack : UInt32 := 0
  xmit : UInt32 := 0
  data : List UInt8
  deriving DecidableEq, Repr

namespace IkcpSeg

variable (seg : IkcpSeg)

/-- `ikcp_encode_seg`. -/
def encodeSeg : List UInt8 :=
  LittleEndian.encode 4 seg.conv.toNat ++ (LittleEndian.encode 1 seg.cmd.toNat ++
    (LittleEndian.encode 1 seg.frg.toNat ++ (LittleEndian.encode 2 seg.wnd.toNat ++
      (LittleEndian.encode 4 seg.ts.toNat ++ (LittleEndian.encode 4 seg.sn.toNat ++
        (LittleEndian.encode 4 seg.una.toNat ++ LittleEndian.encode 4 seg.data.length))))))

/-- A segment on the wire: its head and its data. -/
def bytes : List UInt8 := seg.encodeSeg ++ seg.data

/-- The head that `ikcp_input` reads, with the data that is behind it. -/
def decode (b : List UInt8) : IkcpSeg where
  conv := .ofNat (LittleEndian.read b 0 4)
  cmd := .ofNat (LittleEndian.read b 4 1)
  frg := .ofNat (LittleEndian.read b 5 1)
  wnd := .ofNat (LittleEndian.read b 6 2)
  ts := .ofNat (LittleEndian.read b 8 4)
  sn := .ofNat (LittleEndian.read b 12 4)
  una := .ofNat (LittleEndian.read b 16 4)
  data := (b.drop IKCP_OVERHEAD).take (LittleEndian.read b 20 4)

/-- The head of a segment says everything that arrives: the fields fit in their places. -/
structure Fits : Prop where
  cmd : seg.cmd.toNat < 2 ^ 8
  frg : seg.frg.toNat < 2 ^ 8
  wnd : seg.wnd.toNat < 2 ^ 16
  len : seg.data.length < 2 ^ 32

/-- What of a segment is on the wire. -/
def wire : IkcpSeg := { seg with resendts := 0, rto := 0, fastack := 0, xmit := 0 }

@[simp] theorem length_encodeSeg : seg.encodeSeg.length = IKCP_OVERHEAD := by
  simp [encodeSeg, IKCP_OVERHEAD]

@[simp] theorem length_bytes : seg.bytes.length = IKCP_OVERHEAD + seg.data.length := by
  rw [bytes, List.length_append, length_encodeSeg]

variable {seg}

/-- Every field of a head is read back where it was written. -/
theorem read_encodeSeg (b : List UInt8) :
    LittleEndian.read (seg.encodeSeg ++ b) 0 4 = seg.conv.toNat % 256 ^ 4 ∧
    LittleEndian.read (seg.encodeSeg ++ b) 4 1 = seg.cmd.toNat % 256 ^ 1 ∧
    LittleEndian.read (seg.encodeSeg ++ b) 5 1 = seg.frg.toNat % 256 ^ 1 ∧
    LittleEndian.read (seg.encodeSeg ++ b) 6 2 = seg.wnd.toNat % 256 ^ 2 ∧
    LittleEndian.read (seg.encodeSeg ++ b) 8 4 = seg.ts.toNat % 256 ^ 4 ∧
    LittleEndian.read (seg.encodeSeg ++ b) 12 4 = seg.sn.toNat % 256 ^ 4 ∧
    LittleEndian.read (seg.encodeSeg ++ b) 16 4 = seg.una.toNat % 256 ^ 4 ∧
    LittleEndian.read (seg.encodeSeg ++ b) 20 4 = seg.data.length % 256 ^ 4 := by
  simp only [encodeSeg, List.append_assoc]
  refine ⟨LittleEndian.read_encode _ _ _, ?_, ?_, ?_, ?_, ?_, ?_, ?_⟩
  · rw [LittleEndian.read_append 4 _ _ 0, LittleEndian.read_encode]
  · rw [LittleEndian.read_append 4 _ _ 1, LittleEndian.read_append 1 _ _ 0, LittleEndian.read_encode]
  · rw [LittleEndian.read_append 4 _ _ 2, LittleEndian.read_append 1 _ _ 1,
      LittleEndian.read_append 1 _ _ 0, LittleEndian.read_encode]
  · rw [LittleEndian.read_append 4 _ _ 4, LittleEndian.read_append 1 _ _ 3,
      LittleEndian.read_append 1 _ _ 2, LittleEndian.read_append 2 _ _ 0, LittleEndian.read_encode]
  · rw [LittleEndian.read_append 4 _ _ 8, LittleEndian.read_append 1 _ _ 7,
      LittleEndian.read_append 1 _ _ 6, LittleEndian.read_append 2 _ _ 4,
      LittleEndian.read_append 4 _ _ 0, LittleEndian.read_encode]
  · rw [LittleEndian.read_append 4 _ _ 12, LittleEndian.read_append 1 _ _ 11,
      LittleEndian.read_append 1 _ _ 10, LittleEndian.read_append 2 _ _ 8,
      LittleEndian.read_append 4 _ _ 4, LittleEndian.read_append 4 _ _ 0, LittleEndian.read_encode]
  · rw [LittleEndian.read_append 4 _ _ 16, LittleEndian.read_append 1 _ _ 15,
      LittleEndian.read_append 1 _ _ 14, LittleEndian.read_append 2 _ _ 12,
      LittleEndian.read_append 4 _ _ 8, LittleEndian.read_append 4 _ _ 4,
      LittleEndian.read_append 4 _ _ 0, LittleEndian.read_encode]

/-- A segment whose fields fit is read back from its bytes, whatever is behind them. -/
theorem decode_bytes (h : seg.Fits) (b : List UInt8) : decode (seg.bytes ++ b) = seg.wire := by
  obtain ⟨hconv, hcmd, hfrg, hwnd, hts, hsn, huna, hlen⟩ := @read_encodeSeg seg (seg.data ++ b)
  have hword : ∀ n : UInt32, UInt32.ofNat (n.toNat % 256 ^ 4) = n := fun n => by
    rw [show n.toNat % 256 ^ 4 = n.toNat from Nat.mod_eq_of_lt n.toNat_lt, UInt32.ofNat_toNat]
  have hcmd' : seg.cmd.toNat % 256 ^ 1 = seg.cmd.toNat := Nat.mod_eq_of_lt h.cmd
  have hfrg' : seg.frg.toNat % 256 ^ 1 = seg.frg.toNat := Nat.mod_eq_of_lt h.frg
  have hwnd' : seg.wnd.toNat % 256 ^ 2 = seg.wnd.toNat := Nat.mod_eq_of_lt h.wnd
  have hlen' : seg.data.length % 256 ^ 4 = seg.data.length := Nat.mod_eq_of_lt h.len
  have hdata : ((seg.encodeSeg ++ (seg.data ++ b)).drop IKCP_OVERHEAD).take seg.data.length = seg.data := by
    rw [List.drop_left' seg.length_encodeSeg, List.take_left' rfl]
  rw [bytes, List.append_assoc, decode, hconv, hcmd, hfrg, hwnd, hts, hsn, huna, hlen,
    hcmd', hfrg', hwnd', hlen', hword, hword, hword, hword, hdata, UInt32.ofNat_toNat, UInt32.ofNat_toNat, UInt32.ofNat_toNat, wire]

end IkcpSeg

end KkLicode.Ikcp
