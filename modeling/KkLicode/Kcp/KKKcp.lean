import Mathlib.Data.String.Basic
import Mathlib.Logic.Function.Basic
import KkLicode.Kcp.Datagram
import KkLicode.Kcp.TwoKeyMap

/-! `CKKkcp`, one node: the table of connections, the handlers of control messages,
the connection manager's pass and the calls of the application. Connection records
are objects in a store; a step that fails an assertion or uses a record that was
deleted has no result. What the KCP control blocks do with data is left out: a
block is its number and its conversation. -/

namespace KkLicode.Kcp

def MinHeartValue : ℕ := 5000
def MaxHeartValue : ℕ := 60000
def SYNTICK : ℕ := 5000
def SYNTICKD : ℕ := 10000
def SYNTICKT : ℕ := 20000
def MAXHANDSHAKE : UInt8 := 4
def MaxConTick : ℕ := 60000

/-- A KCP control block. -/
structure IKcpCb where
  id : ℕ
  conv : UInt32
  deriving DecidableEq, Repr

structure KcpInfo where
  conv : UInt32 := 0
  kcp : Option IKcpCb := none
  addr : KKAddress := {}
  state : KKConState := .unLink
  mtu : UInt16 := 0
  sendtick : ℕ
  rectick : ℕ
  sponsor : Bool := false
  handShake : UInt8 := 0
  bTranspond : Bool := false
  nTranId : UInt32 := 0
  nDestTranId : UInt32 := 0
  deriving DecidableEq, Repr

inductive KKCMD where
  | connect | disConnect
  deriving DecidableEq, Repr

/-- `KK_Cmd_Info`. -/
structure KKCmdInfo where
  cmd : KKCMD
  conv : UInt32
  nTranId : UInt32
  nDestTranId : UInt32
  addr : KKAddress
  deriving DecidableEq, Repr

/-- `CKKkcp`. `recPacketQue` and `sent` have all that was put into the queue and the socket so far.
`adrTranId` is the relay id in the address object that receives all datagrams, of
which only the socket address is written by the socket. -/
structure CKKkcp where
  curConv : UInt32 := 100
  conId : UInt32 := 0
  automaticHeart : Bool := true
  conIPInfoMap : TwoKeyMap String UInt32 ℕ := {}
  heap : ℕ → Option KcpInfo := fun _ => none
  allocated : ℕ := 0
  kcps : ℕ := 0
  adrTranId : UInt32 := 0
  sendUdpQue : List KKCmdInfo := []
  recPacketQue : List KKPacket := []
  sent : List Datagram := []

/-- What a node is given to do. `adr` receives the address of a datagram, relay id apart. -/
inductive Event where
  | connect (now : ℕ) (ip : String) (port : ℤ)
  | connectBy (now : ℕ) (tranIp : String) (port : UInt16) (nDestTranId : UInt32)
  | connectTranServer (now : ℕ) (ip : String) (port : UInt16)
  | disConnect (id : UInt32)
  | disConnectFrom (now : ℕ) (ip : String) (port : ℤ) (nDestTranId : UInt32)
  | stablySend (now : ℕ) (id : UInt32)
  | handleCmd
  | connMgrPass (now : ℕ)
  | control (now : ℕ) (ip : UInt32) (port : UInt16) (nTranId nDestTranId : UInt32) (c : Control)
  | tranId (now : ℕ) (ip : UInt32) (port : UInt16) (tranId : UInt32)
  | kcp (now : ℕ) (ip : UInt32) (port : UInt16) (nTranId nDestTranId : UInt32)

namespace CKKkcp

/-- A node after `Start`. -/
def start (automaticHeart : Bool) : CKKkcp := { automaticHeart := automaticHeart }

def setInfo (n : CKKkcp) (p : ℕ) (info : KcpInfo) : CKKkcp :=
  { n with heap := Function.update n.heap p (some info) }

/-- `new KcpInfo`. -/
def newInfo (n : CKKkcp) (info : KcpInfo) : CKKkcp × ℕ :=
  ({ n.setInfo n.allocated info with allocated := n.allocated + 1 }, n.allocated)

def kksend (n : CKKkcp) (d : Datagram) : CKKkcp := { n with sent := n.sent ++ [d] }

def putKKPacket (n : CKKkcp) (packet : KKPacket) : CKKkcp :=
  { n with recPacketQue := n.recPacketQue ++ [packet] }

/-- `SendSign`. -/
def sendSign (n : CKKkcp) (body : Body) (nTranId nDestTranId : UInt32) (addr : KKAddress) : CKKkcp :=
  n.kksend { dest := addr, relay := if nDestTranId > 0 then some (nTranId, nDestTranId) else none
             body := body }

def sendControl (n : CKKkcp) (c : Control) (nTranId nDestTranId : UInt32) (addr : KKAddress) :
    CKKkcp :=
  n.sendSign (.control c) nTranId nDestTranId addr

/-- `SendKckLost`, as it is called, without the relay ids. -/
def sendKckLost (n : CKKkcp) (conv : UInt32) (addr : KKAddress) : CKKkcp :=
  n.sendControl (putkcplost conv) 0 0 addr

/-- `SendKcpDisconnect`. -/
def sendKcpDisconnect (n : CKKkcp) (conv : UInt32) (addr : KKAddress) (nTranId nDestTranId : UInt32) :
    CKKkcp :=
  n.sendSign (if nTranId > 0 && nDestTranId = 0 then .delTranId
    else .control (putkcpdisconnect conv)) nTranId nDestTranId addr

/-- `GenSysKKPacket`. -/
def genSysKKPacket (n : CKKkcp) (sys : KKConState) (addr : KKAddress) (conId : UInt32) : CKKkcp :=
  n.putKKPacket
    { msgId := if sys = .link ∨ sys = .kckLost then .linkLost
        else if sys.code ≤ KKConState.ack.code then .connectFail
        else if sys = .autoDisConnect then .kcpDisConnect
        else if sys = .getTranId then .tranConnectFail else .unKown
      addr := addr, conId := conId }

/-- `FreeKcpInfo`, with the key the returned iterator stands at. The record is deleted from the
table under the key its address renders. -/
def freeKcpInfo (n : CKKkcp) (p : ℕ) (needMsg : Bool) : Option (CKKkcp × Option String) := do
  let info ← n.heap p
  let (conIPInfoMap, it) := n.conIPInfoMap.key1Del info.addr.toString
  let n := { n with conIPInfoMap := conIPInfoMap }
  let n := if needMsg then n.genSysKKPacket info.state info.addr info.conv else n
  -- `~KcpInfo` calls `ikcp_release`, which asserts that there is a control block
  let _ ← info.kcp
  return ({ n with heap := Function.update n.heap p none }, it)

/-- `CreateKcp`. -/
def createKcp (n : CKKkcp) (ipport : String) (conv : UInt32) : Option (CKKkcp × IKcpCb) := do
  let p ← n.conIPInfoMap.key1Find ipport
  let info ← n.heap p
  let kcp : IKcpCb := { id := n.kcps, conv := conv }
  return ({ n.setInfo p { info with kcp := some kcp, conv := conv } with kcps := n.kcps + 1 }, kcp)

/-! ### Control messages -/

/-- The key of a sender: by the relay id in the header if there is one. -/
def senderKey (nTranId : UInt32) (addr : KKAddress) : String :=
  if nTranId > 0 then addr.toString2 nTranId else addr.toString

def onDisConnect (n : CKKkcp) (addr : KKAddress) : Option CKKkcp :=
  match n.conIPInfoMap.key1Find addr.toString with
  | none => some n
  | some p => do
    let info ← n.heap p
    return n.setInfo p { info with state := .autoDisConnect }

/-- The record under a key is deleted without a word. -/
def freeAt (n : CKKkcp) (ipport : String) : Option CKKkcp :=
  match n.conIPInfoMap.key1Find ipport with
  | none => some n
  | some p => (n.freeKcpInfo p false).map (·.1)

/-- The conversation a SYN is answered with. -/
def synConv (n : CKKkcp) (c : Control) : UInt32 := if c.conv > n.curConv then c.conv else n.curConv + 1

/-- The negotiated MTU. -/
def synMtu (c : Control) : UInt16 := if c.mtu > c.buflen then c.buflen - 1 else c.mtu

def synAddr (nTranId : UInt32) (addr : KKAddress) : KKAddress :=
  if nTranId > 0 then { addr with destTranId := nTranId } else addr

/-- The record for the sender of a SYN. -/
def synInfo (now : ℕ) (conv : UInt32) (mtu : UInt16) (nTranId nDestTranId : UInt32)
    (addr : KKAddress) : KcpInfo :=
  let info : KcpInfo := { conv := conv, mtu := mtu, state := .synAck, addr := addr,
                          sendtick := now, rectick := now }
  if nTranId > 0 then
    { info with bTranspond := true, nTranId := nDestTranId, nDestTranId := nTranId }
  else info

def onSyn (n : CKKkcp) (now : ℕ) (c : Control) (nTranId nDestTranId : UInt32) (addr : KKAddress) :
    Option CKKkcp := do
  let addr := synAddr nTranId addr
  let n := { n with curConv := n.synConv c, adrTranId := addr.destTranId }
  let n ← n.freeAt addr.toString
  let info := synInfo now n.curConv (synMtu c) nTranId nDestTranId addr
  let (n, p) := n.newInfo info
  let n := { n with conIPInfoMap := n.conIPInfoMap.key1Insert addr.toString p }
  return n.sendControl (putsynack info.conv (synMtu c)) info.nTranId info.nDestTranId addr

def onSynAck (n : CKKkcp) (now : ℕ) (c : Control) (nTranId : UInt32) (addr : KKAddress) :
    Option CKKkcp := do
  let ipport := senderKey nTranId addr
  let p ← n.conIPInfoMap.key1Find ipport
  let info ← n.heap p
  let n := n.setInfo p { info with state := .ack, sendtick := now }
  let (n, kcp) ← n.createKcp ipport c.conv
  let info ← n.heap p
  let n := n.setInfo p { info with kcp := some kcp, conv := c.conv, handShake := 0, mtu := c.mtu }
  let n := { n with conIPInfoMap := n.conIPInfoMap.key2insert ipport c.conv p }
  return n.sendControl (putack c.conv c.mtu) info.nTranId info.nDestTranId addr

/-- What `onAck` does with a message that fits the record. -/
def acceptAck (n : CKKkcp) (now : ℕ) (c : Control) (ipport : String) (p : ℕ) (info : KcpInfo) :
    Option CKKkcp := do
  let n := n.setInfo p { info with state := .link, sendtick := now }
  let (n, kcp) ← n.createKcp ipport c.conv
  let info ← n.heap p
  let n := n.setInfo p { info with kcp := some kcp }
  let n := { n with conIPInfoMap := n.conIPInfoMap.key2insert ipport info.conv p }
  return n.putKKPacket { msgId := .linkIncoming, conId := c.conv, addr := info.addr }

/-- The reply is sent whether the message fits the record or not. -/
def onAck (n : CKKkcp) (now : ℕ) (c : Control) (nTranId nDestTranId : UInt32) (addr : KKAddress) :
    Option CKKkcp := do
  let ipport := senderKey nTranId addr
  let p ← n.conIPInfoMap.key1Find ipport
  let info ← n.heap p
  let n ← if info.state = .synAck ∧ info.conv = c.conv ∧ info.mtu = c.mtu
    then n.acceptAck now c ipport p info
    else some (n.setInfo p { info with sendtick := now })
  return n.sendControl (putlink c.conv c.mtu) nDestTranId nTranId addr

def onLink (n : CKKkcp) (now : ℕ) (c : Control) (nTranId : UInt32) (addr : KKAddress) :
    Option CKKkcp :=
  match n.conIPInfoMap.key1Find (senderKey nTranId addr) with
  | none => some (n.sendKckLost c.conv addr)
  | some p => do
    let info ← n.heap p
    if info.conv = c.conv ∧ info.mtu = c.mtu then
      return (n.setInfo p { info with state := .link, sendtick := now, handShake := 0 }).putKKPacket
        { msgId := .linkAccepted, conId := c.conv, addr := info.addr }
    else return n.sendKckLost c.conv addr

def onKcpHeart (n : CKKkcp) (now : ℕ) (c : Control) (addr : KKAddress) : Option CKKkcp :=
  match n.conIPInfoMap.key2Find c.conv with
  | none => some (n.sendKckLost c.conv addr)
  | some p => do
    let info ← n.heap p
    let n := if info.sponsor then n.setInfo p { info with sendtick := now, rectick := now }
      else (n.setInfo p { info with sendtick := now }).sendControl (putkcpheart info.conv)
        info.nTranId info.nDestTranId info.addr
    return n.putKKPacket { msgId := .kcpHeart, conId := c.conv, addr := info.addr }

/-- The record is looked up under a key that was never filled in. -/
def onKckLost (n : CKKkcp) (addr : KKAddress) : Option CKKkcp := do
  let packet : KKPacket := { msgId := .kckLost, addr := addr }
  match n.conIPInfoMap.key1Find "" with
  | none => return n.putKKPacket packet
  | some p =>
    let info ← n.heap p
    let n := n.setInfo p { info with state := .kckLost }
    let (n, _) ← n.freeKcpInfo p true
    return n.putKKPacket { packet with conId := info.conv }

/-- `OnConHandle`. -/
def onConHandle (n : CKKkcp) (now : ℕ) (c : Control) (nTranId nDestTranId : UInt32)
    (addr : KKAddress) : Option CKKkcp :=
  match c.msgId with
  | .disConnect => n.onDisConnect addr
  | .syn => n.onSyn now c nTranId nDestTranId addr
  | .synAck => n.onSynAck now c nTranId addr
  | .ack => n.onAck now c nTranId nDestTranId addr
  | .link => n.onLink now c nTranId addr
  | .kcpHeart => n.onKcpHeart now c addr
  | .unLink => some (n.putKKPacket { msgId := .unLink, addr := addr })
  | .kckLost => n.onKckLost addr
  | _ => some n

/-- `OnTranBufHandle`, for the answer of a relay server with the id it gave out. -/
def onTranId (n : CKKkcp) (now : ℕ) (tranId : UInt32) (addr : KKAddress) : Option CKKkcp :=
  match n.conIPInfoMap.key1Find addr.toString with
  | none => some n
  | some p => do
    let info ← n.heap p
    return (n.setInfo p { info with state := .tranIdOk, sendtick := now, nTranId := tranId }).putKKPacket
      { msgId := .tranIdOk, conId := tranId, addr := info.addr }

/-- `OnKcp`, without the data. -/
def onKcp (n : CKKkcp) (now : ℕ) (nTranId nDestTranId : UInt32) (addr : KKAddress) : Option CKKkcp :=
  match n.conIPInfoMap.key1Find (senderKey nTranId addr) with
  | none => some (n.sendControl putunlink nTranId nDestTranId addr)
  | some p => do
    let info ← n.heap p
    return n.setInfo p { info with sendtick := now, rectick := now }

/-! ### The connection manager -/

/-- What is done with a record in a pass. There is an iterator if the record was freed. -/
def manage (n : CKKkcp) (now : ℕ) (p : ℕ) : Option (CKKkcp × Option (Option String)) := do
  let info ← n.heap p
  let kcptick := now - info.sendtick
  let rectick := now - info.rectick
  let free := (n.freeKcpInfo p true).map fun r => (r.1, some r.2)
  let resend (c : Control) : CKKkcp :=
    (n.setInfo p { info with handShake := info.handShake + 1, sendtick := now, rectick := now }).sendControl
      c info.nTranId info.nDestTranId info.addr
  if info.state = .autoDisConnect ∨ info.state = .kckLost ∨ (!info.sponsor ∧ kcptick > MaxHeartValue)
  then free
  else if info.state = .getTranId then
    if (info.handShake = 0 ∧ kcptick > SYNTICKD) ∨ (info.handShake = 1 ∧ kcptick > SYNTICKT) ∨
        (info.handShake = 2 ∧ kcptick > MaxConTick) then
      if info.handShake + 1 < 3 then
        return ((n.setInfo p { info with
          handShake := info.handShake + 1, sendtick := now, rectick := now }).kksend
            { dest := info.addr, body := .getTranId }, none)
      else return (n.setInfo p { info with handShake := info.handShake + 1 }, none)
    else if info.handShake > 2 then
      (freeKcpInfo (n.setInfo p { info with handShake := 0, sendtick := now, rectick := now }) p
        true).map fun r => (r.1, some r.2)
    else return (n, none)
  else if info.sponsor then
    if info.handShake < MAXHANDSHAKE ∧ (info.state = .syn ∨ info.state = .ack) then
      if kcptick > MaxConTick then free
      else if (info.handShake = 0 ∧ kcptick > SYNTICK) ∨ (info.handShake = 1 ∧ kcptick > SYNTICKD) then
        return (resend (if info.state = .syn then putsyn info.conv info.nDestTranId
          else putack info.conv info.mtu), none)
      else if info.handShake ≥ 2 ∧ kcptick > SYNTICKT then free
      else return (n, none)
    else if n.automaticHeart ∧ info.state = .link ∧ kcptick > MinHeartValue then
      return ((n.setInfo p { info with sendtick := now }).sendControl (putkcpheart info.conv)
        info.nTranId info.nDestTranId info.addr, none)
    else if rectick > MaxHeartValue then free
    else return (n, none)
  else if info.state = .tranIdOk ∧ kcptick > MinHeartValue then
    return ((n.setInfo p { info with sendtick := now }).kksend
      { dest := info.addr, body := .tranHeart }, none)
  -- that a silent client was not freed above is tested once more behind this
  else if info.state = .link ∧ rectick > MinHeartValue then
    return ((n.setInfo p { info with rectick := now }).kksend
      { dest := info.addr, body := .tranHeart }, none)
  else return (n, none)

/-- The pass from the record at a key on. -/
def passFrom : ℕ → CKKkcp → ℕ → Option String → Option CKKkcp
  | 0, n, _, _ => some n
  | _, n, _, none => some n
  | fuel + 1, n, now, some key => do
    let p ← n.conIPInfoMap.key1Find key
    let (n, it) ← n.manage now p
    passFrom fuel n now (it.getD (n.conIPInfoMap.map1.next key))

/-- A pass of `ConnMgrThread2`. Between two deletions every record is met once at most. -/
def connMgrPass (n : CKKkcp) (now : ℕ) : Option CKKkcp :=
  passFrom ((n.conIPInfoMap.map1.pairs.length + 1) ^ 2) n now n.conIPInfoMap.key1begin

/-! ### The application -/

/-- The key a host and a port are looked up under. -/
def hostKey (ip : String) (port : ℤ) : String := ip ++ "|" ++ toString port

variable (inetAddr : String → UInt32)

/-- `FromString`. -/
def fromString (ip : String) (port : ℤ) (nDestTranId : UInt32) : KKAddress where
  ip := inetAddr ip
  port := .ofInt port
  destTranId := nDestTranId

def connect (n : CKKkcp) (now : ℕ) (ip : String) (port : ℤ) : Option CKKkcp :=
  match n.conIPInfoMap.key1Find (hostKey ip port) with
  | some p => do
    let info ← n.heap p
    if info.state.code < KKConState.syn.code then none else return n
  | none =>
    let addr := fromString inetAddr ip port 0
    let n := { n with curConv := n.curConv + 1 }
    let (n, p) := n.newInfo { conv := n.curConv, addr := addr, state := .syn, sponsor := true,
                              sendtick := now, rectick := now }
    some { n with
      conIPInfoMap := n.conIPInfoMap.key1Insert (hostKey ip port) p
      sendUdpQue := n.sendUdpQue ++ [{ cmd := .connect, conv := n.curConv, nTranId := 0
                                       nDestTranId := 0, addr := addr }] }

/-- `Connect` by way of a relay server. -/
def connectBy (n : CKKkcp) (now : ℕ) (tranIp : String) (port : UInt16) (nDestTranId : UInt32) :
    Option CKKkcp :=
  match n.conIPInfoMap.key1Find (hostKey tranIp port.toNat) with
  | none => some n
  | some relay => do
    let relayInfo ← n.heap relay
    match n.conIPInfoMap.key1Find (hostKey tranIp port.toNat ++ "|" ++ itoa nDestTranId) with
    | some _ => return n
    | none =>
      let addr := fromString inetAddr tranIp port.toNat nDestTranId
      let n := { n with curConv := n.curConv + 1 }
      let (n, p) := n.newInfo { conv := n.curConv, addr := addr, state := .syn, sponsor := true,
                                bTranspond := true, nTranId := relayInfo.nTranId
                                nDestTranId := nDestTranId, sendtick := now, rectick := now }
      return { n with
        conIPInfoMap := n.conIPInfoMap.key1Insert addr.toString p
        sendUdpQue := n.sendUdpQue ++ [{ cmd := .connect, conv := n.curConv
                                         nTranId := relayInfo.nTranId, nDestTranId := nDestTranId
                                         addr := addr }] }

def connectTranServer (n : CKKkcp) (now : ℕ) (ip : String) (port : UInt16) : Option CKKkcp :=
  match n.conIPInfoMap.key1Find (hostKey ip port.toNat) with
  | some _ => none
  | none =>
    let (n, p) := n.newInfo { addr := fromString inetAddr ip port.toNat 0, state := .getTranId
                              sponsor := true, bTranspond := true, sendtick := now, rectick := now }
    some { n with conIPInfoMap := n.conIPInfoMap.key1Insert (hostKey ip port.toNat) p }

/-- `DisConnect` of a conversation. -/
def disConnect (n : CKKkcp) (id : UInt32) : Option CKKkcp :=
  match n.conIPInfoMap.key2Find id with
  | none => some n
  | some p => do
    let info ← n.heap p
    return { n with
      sendUdpQue := n.sendUdpQue ++ [{ cmd := .disConnect, conv := info.conv
                                       nTranId := info.nTranId, nDestTranId := info.nDestTranId
                                       addr := info.addr }] }

/-- `DisConnect` of an address. -/
def disConnectFrom (n : CKKkcp) (now : ℕ) (ip : String) (port : ℤ) (nDestTranId : UInt32) :
    Option CKKkcp :=
  let key := if nDestTranId > 0 then hostKey ip port ++ "|" ++ itoa nDestTranId else hostKey ip port
  match n.conIPInfoMap.key1Find key with
  | none => some n
  | some p => do
    let info ← n.heap p
    let n := n.setInfo p { info with state := .autoDisConnect, sendtick := now }
    return { n with
      sendUdpQue := n.sendUdpQue ++ [{ cmd := .disConnect, conv := info.conv
                                       nTranId := info.nTranId, nDestTranId := info.nDestTranId
                                       addr := info.addr }] }

/-- One command of `HandleCmd`. -/
def handleCmd (n : CKKkcp) : CKKkcp :=
  match n.sendUdpQue with
  | [] => n
  | cmd :: rest =>
    let n := { n with sendUdpQue := rest }
    match cmd.cmd with
    | .connect => n.sendControl (putsyn cmd.conv cmd.nDestTranId) cmd.nTranId cmd.nDestTranId cmd.addr
    | .disConnect => n.sendKcpDisconnect cmd.conv cmd.addr cmd.nTranId cmd.nDestTranId

/-- The conversation `StablySend` takes: the first one if none is given. -/
def sendId (n : CKKkcp) (id : UInt32) : UInt32 :=
  if id = 0 then n.conIPInfoMap.key2begin.getD id else id

/-- `StablySend`, with the record whose control block is given the data. -/
def stablySend (n : CKKkcp) (now : ℕ) (id : UInt32) : Option (CKKkcp × Option ℕ) :=
  let n := if id = 0 then { n with conId := n.conIPInfoMap.key2begin.getD n.conId } else n
  match n.conIPInfoMap.key2Find (n.sendId id) with
  | none => some (n, none)
  | some p => do
    let info ← n.heap p
    let _ ← info.kcp
    return (n.setInfo p (if info.sponsor then { info with sendtick := now }
      else { info with rectick := now }), some p)

/-! ### Steps of a node -/

/-- The address object with the sender of a datagram. -/
def adr (n : CKKkcp) (ip : UInt32) (port : UInt16) : KKAddress := ⟨ip, port, n.adrTranId⟩

def step (n : CKKkcp) : Event → Option CKKkcp
  | .connect now ip port => n.connect inetAddr now ip port
  | .connectBy now tranIp port nDestTranId => n.connectBy inetAddr now tranIp port nDestTranId
  | .connectTranServer now ip port => n.connectTranServer inetAddr now ip port
  | .disConnect id => n.disConnect id
  | .disConnectFrom now ip port nDestTranId => n.disConnectFrom now ip port nDestTranId
  | .stablySend now id => (n.stablySend now id).map (·.1)
  | .handleCmd => some n.handleCmd
  | .connMgrPass now => n.connMgrPass now
  | .control now ip port nTranId nDestTranId c =>
    n.onConHandle now c nTranId nDestTranId (n.adr ip port)
  | .tranId now ip port tranId => n.onTranId now tranId (n.adr ip port)
  | .kcp now ip port nTranId nDestTranId => n.onKcp now nTranId nDestTranId (n.adr ip port)

end CKKkcp

end KkLicode.Kcp
