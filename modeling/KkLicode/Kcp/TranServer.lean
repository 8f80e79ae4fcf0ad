import Mathlib.Logic.Function.Basic
import Mathlib.Data.String.Basic
import KkLicode.Kcp.Datagram
import KkLicode.Kcp.TwoKeyMap

/-! `CKKTranServer`, the relay: clients register for an id and send each other
datagrams by id. All datagrams are received into one buffer. A step that uses a
deleted record, or never ends, has no result. -/

namespace KkLicode.Kcp

def MaxTranTick : UInt64 := 120000

/-- The length of the buffer all datagrams are received into. -/
def bufLen : ℕ := 2048

def UDPGETTRANID : UInt8 := 1
def UDPDELTRANID : UInt8 := 2
def UDPUNTRANID : UInt8 := 3
def UDPUNDEFTRANID : UInt8 := 4
def UDPLOOKPRETRAN : UInt8 := 5
def UDPTranHeart : UInt8 := 6

/-- `ntohl` of the four bytes at an offset. -/
def ntohl (buf : List UInt8) (i : ℕ) : UInt32 :=
  (buf.getD i 0).toUInt32 <<< 24 ||| (buf.getD (i + 1) 0).toUInt32 <<< 16 |||
    (buf.getD (i + 2) 0).toUInt32 <<< 8 ||| (buf.getD (i + 3) 0).toUInt32

/-- `htonl`, as bytes. -/
def htonl (n : UInt32) : List UInt8 :=
  [(n >>> 24).toUInt8, (n >>> 16).toUInt8, (n >>> 8).toUInt8, n.toUInt8]

structure TranInfo where
  addr : KKAddress
  id : UInt32
  tick : UInt64
  deriving DecidableEq, Repr

/-- The receive buffer. -/
structure RecBuf where
  bytes : List UInt8
  length_eq : bytes.length = bufLen

/-- A datagram overwrites the buffer from the start; what is too long is cut off. -/
def RecBuf.receive (b : RecBuf) (data : List UInt8) : RecBuf where
  bytes := data.take bufLen ++ b.bytes.drop data.length
  length_eq := by
    rw [List.length_append, List.length_take, List.length_drop, b.length_eq]
    omega

/-- `CKKTranServer`. `sent` has all that was sent so far. -/
structure CKKTranServer where
  id : UInt32 := 1
  idSet : List UInt32 := []
  tranInfoMap : TwoKeyMap String UInt32 ℕ := {}
  heap : ℕ → Option TranInfo := fun _ => none
  allocated : ℕ := 0
  recBuf : RecBuf
  sent : List (KKAddress × List UInt8) := []

/-- What the receive loop meets: a datagram, or nothing to receive. -/
inductive RelayEvent where
  | datagram (now : UInt64) (ip : UInt32) (port : UInt16) (data : List UInt8)
  | idle (now : UInt64)

namespace CKKTranServer

def kksend (s : CKKTranServer) (buf : List UInt8) (add : KKAddress) : CKKTranServer :=
  { s with sent := s.sent ++ [(add, buf)] }

def sendTranId (s : CKKTranServer) (id : UInt32) (add : KKAddress) : CKKTranServer :=
  s.kksend ([0xAC, UDPGETTRANID] ++ htonl id) add

def sendNotifyCode (s : CKKTranServer) (errcode : UInt8) (id : UInt32) (add : KKAddress) :
    CKKTranServer :=
  s.kksend (if errcode = UDPUNDEFTRANID then [0xAC, errcode] ++ htonl id ++ List.replicate 250 0
    else if errcode = UDPUNTRANID then [0xAC, errcode] ++ List.replicate 254 0
    else 0xAC :: List.replicate 255 0) add

def setInfo (s : CKKTranServer) (p : ℕ) (info : TranInfo) : CKKTranServer :=
  { s with heap := Function.update s.heap p (some info) }

/-- `FreeTranInfo`, with the key the returned iterator stands at. The record is deleted from the
table under the key its address renders. -/
def freeTranInfo (s : CKKTranServer) (p : ℕ) : Option (CKKTranServer × Option String) := do
  let info ← s.heap p
  let (tranInfoMap, it) := s.tranInfoMap.key1Del info.addr.toString
  return ({ s with tranInfoMap := tranInfoMap, heap := Function.update s.heap p none }, it)

/-- The sweep from the record at a key on. -/
def sweepFrom : ℕ → CKKTranServer → UInt64 → Option String → Option CKKTranServer
  | 0, s, _, _ => some s
  | _, s, _, none => some s
  | fuel + 1, s, millisec, some key => do
    let p ← s.tranInfoMap.key1Find key
    let info ← s.heap p
    if millisec - info.tick > MaxTranTick then
      let (s, it) ← s.freeTranInfo p
      sweepFrom fuel s millisec it
    else sweepFrom fuel s millisec (s.tranInfoMap.map1.next key)

/-- Records that were not heard of for long are freed. Every record is met once at most. -/
def sweep (s : CKKTranServer) (millisec : UInt64) : Option CKKTranServer :=
  sweepFrom (s.tranInfoMap.map1.pairs.length + 1) s millisec s.tranInfoMap.key1begin

/-- The id behind `id` in the search for a free one. -/
def nextId (id : UInt32) : UInt32 := if id + 1 > 0xfffe then 0 else id + 1

/-- The first id from `id` on that was never given out. There are 65535 ids. -/
def freeId : ℕ → List UInt32 → UInt32 → Option UInt32
  | 0, _, _ => none
  | fuel + 1, idSet, id => if id ∈ idSet then freeId fuel idSet (nextId id) else some id

/-- The search never ends when all ids were given out. -/
def findId (s : CKKTranServer) : Option UInt32 := freeId 65535 s.idSet s.id

def onGetTranId (s : CKKTranServer) (now : UInt64) (addr : KKAddress) : Option CKKTranServer :=
  match s.tranInfoMap.key1Find addr.toString with
  | some p => do
    let info ← s.heap p
    return (s.setInfo p { info with tick := now }).sendTranId info.id addr
  | none => do
    let id ← s.findId
    let info : TranInfo := { addr := addr, id := id, tick := now }
    return { s.setInfo s.allocated info with
      id := id
      idSet := id :: s.idSet
      allocated := s.allocated + 1
      tranInfoMap := s.tranInfoMap.insert addr.toString id s.allocated : CKKTranServer }.sendTranId
        id addr

def onDelTranId (s : CKKTranServer) (addr : KKAddress) : Option CKKTranServer :=
  match s.tranInfoMap.key1Find addr.toString with
  | none => some s
  | some p => (s.freeTranInfo p).map (·.1)

/-- The record of the sender is heard of. -/
def touch (s : CKKTranServer) (now : UInt64) (p : ℕ) : Option CKKTranServer := do
  let info ← s.heap p
  return s.setInfo p { info with tick := now }

def onLookPreTran (s : CKKTranServer) (now : UInt64) (buf : List UInt8) (addr : KKAddress) :
    Option CKKTranServer := do
  let s ← match s.tranInfoMap.key1Find addr.toString with
    | none => some s
    | some p => do
      let info ← s.heap p
      some ((s.setInfo p { info with tick := now }).sendTranId info.id addr)
  let found : UInt8 := if (s.tranInfoMap.key2Find (ntohl buf 2)).isSome then 1 else 0
  return s.kksend ([0xAC, UDPLOOKPRETRAN, found] ++ (buf.drop 2).take 4) addr

def onTranHeart (s : CKKTranServer) (now : UInt64) (addr : KKAddress) : Option CKKTranServer :=
  match s.tranInfoMap.key1Find addr.toString with
  | none => some s
  | some p => s.touch now p

/-- The branch that forwards; the whole buffer is sent. -/
def onForward (s : CKKTranServer) (now : UInt64) (buf : List UInt8) (addr : KKAddress) :
    Option CKKTranServer :=
  match s.tranInfoMap.key1Find addr.toString with
  | none => some (s.sendNotifyCode UDPUNTRANID 0 addr)
  | some p => do
    let s ← s.touch now p
    match s.tranInfoMap.key2Find (ntohl buf 5) with
    | none => return s.sendNotifyCode UDPUNDEFTRANID (ntohl buf 5) addr
    | some q =>
      let dest ← s.heap q
      return s.kksend buf dest.addr

/-- `OnTranBufHandle`. -/
def onTranBufHandle (s : CKKTranServer) (now : UInt64) (buf : List UInt8) (addr : KKAddress) :
    Option CKKTranServer :=
  let typex := buf.getD 0 0
  let msgId := buf.getD 1 0
  if typex = 0xAC then
    if msgId = UDPDELTRANID then s.onDelTranId addr
    else if msgId = UDPGETTRANID then s.onGetTranId now addr
    else if msgId = UDPLOOKPRETRAN then s.onLookPreTran now buf addr
    else if msgId = UDPTranHeart then s.onTranHeart now addr
    else some s
  else if typex = 0xAD then s.onForward now buf addr
  else some s

/-- One turn of `HandleRecUdp`. The handler is given the whole buffer, not what was received.
An empty datagram is taken for nothing to receive. -/
def step (s : CKKTranServer) : RelayEvent → Option CKKTranServer
  | .idle now => s.sweep now
  | .datagram now ip port data =>
    let s := { s with recBuf := s.recBuf.receive data }
    if data = [] then s.sweep now
    else s.onTranBufHandle now s.recBuf.bytes ⟨ip, port, 0⟩

end CKKTranServer

end KkLicode.Kcp
