import Mathlib.Data.Nat.Notation
import Mathlib.Data.Int.Notation

/-! Addresses, connection states and the control messages of the KCP handshake. -/

namespace KkLicode.Kcp

structure KKAddress where
  ip : UInt32 := 0
  port : UInt16 := 0
  destTranId : UInt32 := 0
  deriving DecidableEq, Repr

/-- `inet_ntoa`. -/
def dotted (ip : UInt32) : String :=
  toString (ip >>> 24).toNat ++ "." ++ toString ((ip >>> 16) &&& 255).toNat ++ "." ++
    toString ((ip >>> 8) &&& 255).toNat ++ "." ++ toString (ip &&& 255).toNat

/-- `Itoa` to base ten, of a number that is passed as an `int`. -/
def itoa (n : UInt32) : String := toString n.toInt32.toInt

namespace KKAddress

/-- `ToString2`. -/
def toString2 (a : KKAddress) (nDestTranId : UInt32) : String :=
  dotted a.ip ++ "|" ++ toString a.port.toNat ++
    if nDestTranId > 0 then "|" ++ itoa nDestTranId else ""

/-- `ToString` with the port. -/
def toString (a : KKAddress) : String := a.toString2 a.destTranId

end KKAddress

/-- `KKConState`, which also numbers the control messages. -/
inductive KKConState where
  | unKown | unLink | syn | synAck | ack | link | autoDisConnect | disConnect | kckLost | kcpHeart
  | tranServer | getTranId | tranIdOk
  deriving DecidableEq, Repr

def KKConState.code : KKConState → ℕ
  | .unKown => 0 | .unLink => 1 | .syn => 2 | .synAck => 3 | .ack => 4 | .link => 5
  | .autoDisConnect => 6 | .disConnect => 7 | .kckLost => 8 | .kcpHeart => 9 | .tranServer => 10
  | .getTranId => 11 | .tranIdOk => 12

/-- `KKP2PMSGID`. -/
inductive KKP2PMSGID where
  | unKown | unLink | kckLost | connectFail | linkLost | linkAccepted | linkIncoming | kcpHeart
  | kcpData | kcpDisConnect | tranConnectFail | tranHeart | tranIdOk | udpData
  deriving DecidableEq, Repr

/-- `KK_Packet`, what the application is told. -/
structure KKPacket where
  msgId : KKP2PMSGID := .unKown
  addr : KKAddress := {}
  conId : UInt32 := 0
  deriving DecidableEq, Repr

/-- A control message with the length of the datagram that carries it. -/
structure Control where
  msgId : KKConState
  conv : UInt32 := 0
  mtu : UInt16 := 0
  len : UInt16 := 15
  deriving DecidableEq, Repr

/-- The length `OnConHandle` is given: the message behind the datagram's five bytes of head. -/
def Control.buflen (c : Control) : UInt16 := c.len - 5

def putsyn (cov : UInt32) (nDestTranId : UInt32) : Control :=
  let mtuMax : UInt16 := if nDestTranId > 0 then 1500 - 64 - 9 else 1500 - 64
  { msgId := .syn, conv := cov, mtu := mtuMax, len := mtuMax }

def putsynack (cov : UInt32) (mtu : UInt16) : Control := { msgId := .synAck, conv := cov, mtu := mtu }

def putack (cov : UInt32) (mtu : UInt16) : Control := { msgId := .ack, conv := cov, mtu := mtu }

def putlink (cov : UInt32) (mtu : UInt16) : Control := { msgId := .link, conv := cov, mtu := mtu }

def putkcpheart (cov : UInt32) : Control := { msgId := .kcpHeart, conv := cov }

def putkcpdisconnect (cov : UInt32) : Control := { msgId := .disConnect, conv := cov }

def putkcplost (cov : UInt32) : Control := { msgId := .kckLost, conv := cov }

def putunlink : Control := { msgId := .unLink }

/-- What a datagram carries behind the relay header. -/
inductive Body where
  | control (c : Control)
  | getTranId
  | delTranId
  | tranHeart
  deriving DecidableEq, Repr

/-- A datagram that was sent. The relay header has the two relay ids. -/
structure Datagram where
  dest : KKAddress
  relay : Option (UInt32 × UInt32) := none
  body : Body
  deriving DecidableEq, Repr

end KkLicode.Kcp
