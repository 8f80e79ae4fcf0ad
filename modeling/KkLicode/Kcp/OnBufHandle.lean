import KkLicode.Base.Buffer
import KkLicode.Kcp.KKKcp
import KkLicode.Kcp.TranServer

/-! `OnBufHandle`: what a node does with the bytes it receives. All datagrams are
received into one buffer, and the handlers look at as much of it as the message
they see has, however short the datagram was. A step that reads behind the end of
the buffer has no result. -/

namespace KkLicode.Kcp

/-- The compilers for the code differ in the bytes of an `unsigned long`. -/
inductive DataModel where
  | ilp32 | lp64
  deriving DecidableEq, Repr

def DataModel.sizeofLong : DataModel → ℕ
  | .ilp32 => 4
  | .lp64 => 8

theorem DataModel.four_le_sizeofLong (m : DataModel) : 4 ≤ m.sizeofLong := by
  cases m <;> decide

def UDPCTLMSG : UInt32 := 0xAF

/-- `butTranspondHeadr`. -/
def butTranspondHeadr (nTranId nDestTranId : UInt32) : List UInt8 :=
  0xAD :: (htonl nTranId ++ htonl nDestTranId)

/-- The header `SendSign` puts in front of a message. -/
def Datagram.header (d : Datagram) : List UInt8 :=
  match d.relay with
  | none => []
  | some (nTranId, nDestTranId) => butTranspondHeadr nTranId nDestTranId

/-- `htons`, as bytes. -/
def htons (n : UInt16) : List UInt8 := [(n >>> 8).toUInt8, n.toUInt8]

/-- The bytes of a control message, as they are put together. -/
def Control.bytes (c : Control) : List UInt8 :=
  0xAF :: (htonl UDPCTLMSG ++ (htonl (.ofNat c.msgId.code) ++ (htonl c.conv ++ (htons c.mtu ++
    List.replicate (c.len.toNat - 15) 0))))

section

variable (m : DataModel)

/-- The `unsigned long` at an offset, of which `ntohl` takes the first four bytes. -/
def readLong (buf : List UInt8) (i : ℕ) : Option UInt32 :=
  if i + m.sizeofLong ≤ buf.length then some (ntohl buf i) else none

/-- The two bytes at an offset. -/
def readShort (buf : List UInt8) (i : ℕ) : Option UInt16 :=
  if i + 2 ≤ buf.length then
    some ((buf.getD i 0).toUInt16 <<< 8 ||| (buf.getD (i + 1) 0).toUInt16)
  else none

/-- The control message with a number. -/
def KKConState.ofCode (msgId : UInt32) : KKConState :=
  ([unLink, syn, synAck, ack, link, disConnect, kckLost, kcpHeart].find? fun m =>
    m.code = msgId.toNat).getD unKown

/-- What `OnConHandle` reads. A heart has no MTU, and three messages have no conversation either. -/
def readControl (buf : List UInt8) (buflen : UInt16) : Option Control := do
  let msgId ← readLong m buf 0
  let c : Control := { msgId := .ofCode msgId, len := buflen + 5 }
  match c.msgId with
  | .syn | .synAck | .ack | .link =>
    let conv ← readLong m buf 4
    let mtu ← readShort buf 8
    return { c with conv := conv, mtu := mtu }
  | .kcpHeart =>
    let conv ← readLong m buf 4
    return { c with conv := conv }
  | _ => return c

/-- The message behind the relay headers, with the ids of the last one. Of KCP data it is known
whether it ends in the buffer, and of the answer of a relay server whether it has the id. -/
inductive Message where
  | control (nTranId nDestTranId : UInt32) (c : Control)
  | kcp (nTranId nDestTranId : UInt32) (whole : Bool)
  | tranId (id : Option UInt32)
  | udpData
  | none
  deriving DecidableEq, Repr

/-- The head of a datagram, as `OnBufHandle` takes it apart. The length of what a relay header has
left wraps around. -/
def readMessage : List UInt8 → UInt16 → UInt32 → UInt32 → Option Message
  | [], _, _, _ => none
  | typex :: buf, recLen, nTranId, nDestTranId =>
    if typex = 0xAF then do
      let conv ← readLong m buf 0
      if conv = UDPCTLMSG then
        let c ← readControl m (buf.drop 4) (recLen - 5)
        return .control nTranId nDestTranId c
      else return .none
    else if typex = 0xAE then
      some (.kcp nTranId nDestTranId ((recLen - 1).toNat ≤ buf.length))
    else if typex = 0xAD then
      match buf with
      | a :: b :: c :: d :: a' :: b' :: c' :: d' :: buf =>
        if m.sizeofLong ≤ buf.length + 4 then
          readMessage buf (recLen - 9) (ntohl [a, b, c, d] 0) (ntohl [a', b', c', d'] 0)
        else none
      | _ => none
    else if typex = 0xAC then
      match buf with
      | [] => none
      | msgId :: buf => some (if msgId = UDPGETTRANID then .tranId (readLong m buf 0) else .none)
    else if typex = 0xAB ∧ recLen > 1 then
      if (recLen - 1).toNat ≤ buf.length then some .udpData else none
    else some .none

namespace CKKkcp

/-- `OnBufHandle`, for the message that was read. A control block is given data if there is one, and
the id a relay server gave out is looked at if its record is there. -/
def onMessage (n : CKKkcp) (now : ℕ) (adr : KKAddress) : Message → Option CKKkcp
  | .control nTranId nDestTranId c => n.onConHandle now c nTranId nDestTranId adr
  | .kcp nTranId nDestTranId whole =>
    match n.conIPInfoMap.key1Find (senderKey nTranId adr) with
    | none => n.onKcp now nTranId nDestTranId adr
    | some p => do
      let info ← n.heap p
      if info.kcp.isSome ∧ !whole then none else n.onKcp now nTranId nDestTranId adr
  | .tranId id =>
    match n.conIPInfoMap.key1Find adr.toString, id with
    | none, _ => some n
    | some _, none => none
    | some _, some id => n.onTranId now id adr
  | .udpData => some (n.putKKPacket { msgId := .udpData, addr := adr })
  | .none => some n

/-- `OnBufHandle`. -/
def onBufHandle (n : CKKkcp) (now : ℕ) (buf : List UInt8) (recLen : UInt16)
    (nTranId nDestTranId : UInt32) (adr : KKAddress) : Option CKKkcp :=
  (readMessage m buf recLen nTranId nDestTranId).bind (n.onMessage now adr)

end CKKkcp

end

/-! ### Heads -/

variable {m : DataModel}

theorem ntohl_htonl (n : UInt32) (l : List UInt8) : ntohl (htonl n ++ l) 0 = n :=
  Base.Buffer.getLong_long n l

theorem readLong_htonl (n : UInt32) {l : List UInt8} (h : m.sizeofLong ≤ l.length + 4) :
    readLong m (htonl n ++ l) 0 = some n := by
  have hlen : 0 + m.sizeofLong ≤ (htonl n ++ l).length := by
    simp only [List.length_append, htonl, List.length_cons, List.length_nil]
    omega
  rw [readLong, if_pos hlen, ntohl_htonl]

theorem readLong_htonl_next (k n : UInt32) {l : List UInt8} (h : m.sizeofLong ≤ l.length + 4) :
    readLong m (htonl k ++ (htonl n ++ l)) 4 = some n := by
  have hlen : 4 + m.sizeofLong ≤ (htonl k ++ (htonl n ++ l)).length := by
    simp only [List.length_append, htonl, List.length_cons, List.length_nil]
    omega
  have hnext : ntohl (htonl k ++ (htonl n ++ l)) 4 = ntohl (htonl n ++ l) 0 := rfl
  rw [readLong, if_pos hlen, hnext, ntohl_htonl]

theorem readShort_htons (m n : UInt32) (k : UInt16) (l : List UInt8) :
    readShort (htonl m ++ (htonl n ++ (htons k ++ l))) 8 = some k := by
  rw [readShort, if_pos (by simp [htonl, htons])]
  exact congrArg some (Base.Buffer.short_spec k)

/-- Behind the head of a handshake message its handler reads. -/
theorem readMessage_head {fields : List UInt8} (h : m.sizeofLong ≤ fields.length + 4)
    (recLen : UInt16) (s d : UInt32) :
    readMessage m (0xAF :: (htonl UDPCTLMSG ++ fields)) recLen s d =
      (readControl m fields (recLen - 5)).map (.control s d) := by
  have hdrop : (htonl UDPCTLMSG ++ fields).drop 4 = fields := rfl
  unfold readMessage
  rw [if_pos rfl, hdrop, readLong_htonl _ h, Option.map_eq_bind]
  rfl

/-- A handshake message is read as it was put together, whatever lies behind it. -/
theorem readMessage_bytes {c : Control}
    (hc : c.msgId = .syn ∨ c.msgId = .synAck ∨ c.msgId = .ack ∨ c.msgId = .link)
    {rest : List UInt8} (hrest : m.sizeofLong ≤ rest.length + 6) (s d : UInt32) :
    readMessage m (c.bytes ++ rest) c.len s d = some (.control s d c) := by
  have hlen : c.len - 5 + 5 = c.len := UInt16.sub_add_cancel ..
  have hcode : KKConState.ofCode (.ofNat c.msgId.code) = c.msgId := by
    rcases hc with h | h | h | h <;> rw [h] <;> rfl
  set tail := htons c.mtu ++ (List.replicate (c.len.toNat - 15) 0 ++ rest) with htail
  have htailLen : m.sizeofLong ≤ tail.length + 4 := by
    simp only [htail, htons, List.length_append, List.length_cons, List.length_nil]
    omega
  have hbytes : c.bytes ++ rest =
      0xAF :: (htonl UDPCTLMSG ++ (htonl (.ofNat c.msgId.code) ++ (htonl c.conv ++ tail))) := by
    simp [Control.bytes, htail]
  have hread : readControl m (htonl (.ofNat c.msgId.code) ++ (htonl c.conv ++ tail)) (c.len - 5) =
      some c := by
    have hconv := readLong_htonl_next (.ofNat c.msgId.code) c.conv htailLen
    have hmtu : readShort (htonl (.ofNat c.msgId.code) ++ (htonl c.conv ++ tail)) 8 = some c.mtu :=
      readShort_htons ..
    unfold readControl
    rw [readLong_htonl _ (by rw [List.length_append]; omega)]
    simp only [hconv, hmtu, Option.bind_eq_bind, Option.bind_some, hcode, hlen]
    rcases hc with h | h | h | h <;> simp only [h] <;> rw [← h] <;> rfl
  rw [hbytes, readMessage_head (by simp only [List.length_append]; omega), hread]
  rfl

theorem htonl_inj {a b : UInt32} (h : htonl a = htonl b) : a = b := by
  rw [← ntohl_htonl a [], h, ntohl_htonl]

theorem butTranspondHeadr_inj {a b a' b' : UInt32}
    (h : butTranspondHeadr a b = butTranspondHeadr a' b') : a = a' ∧ b = b' := by
  obtain ⟨ha, hb⟩ := List.append_inj (List.cons.inj h).2 rfl
  exact ⟨htonl_inj ha, htonl_inj hb⟩

theorem readMessage_relay (a b c d a' b' c' d' : UInt8) (buf : List UInt8) (recLen : UInt16)
    (nTranId nDestTranId : UInt32) :
    readMessage m (0xAD :: a :: b :: c :: d :: a' :: b' :: c' :: d' :: buf) recLen nTranId
        nDestTranId =
      if m.sizeofLong ≤ buf.length + 4 then
        readMessage m buf (recLen - 9) (ntohl [a, b, c, d] 0) (ntohl [a', b', c', d'] 0)
      else none := rfl

/-- The ids of a relay header are those of the message behind it, if the header is all there. -/
theorem readMessage_butTranspondHeadr (s d : UInt32) (buf : List UInt8) (recLen : UInt16)
    (nTranId nDestTranId : UInt32) :
    readMessage m (butTranspondHeadr s d ++ buf) recLen nTranId nDestTranId =
      if m.sizeofLong ≤ buf.length + 4 then readMessage m buf (recLen - 9) s d else none := by
  have hs : ntohl (htonl s) 0 = s := by simpa using ntohl_htonl s []
  have hd : ntohl (htonl d) 0 = d := by simpa using ntohl_htonl d []
  conv_rhs => rw [← hs, ← hd]
  rfl

/-- The ids of a message are those of its relay header. -/
def Message.HasIds (s d : UInt32) : Message → Prop
  | .control nTranId nDestTranId _ => nTranId = s ∧ nDestTranId = d
  | .kcp nTranId nDestTranId _ => nTranId = s ∧ nDestTranId = d
  | _ => True

/-- Without another relay header the ids are those that were given. -/
theorem readMessage_hasIds {buf : List UInt8} {recLen : UInt16} {s d : UInt32} {msg : Message}
    (hbuf : buf.head? ≠ some 0xAD) (h : readMessage m buf recLen s d = some msg) : msg.HasIds s d := by
  cases buf with
  | nil => cases h
  | cons typex buf =>
    have hne : typex ≠ 0xAD := fun he => hbuf (he ▸ rfl)
    unfold readMessage at h
    rw [if_neg hne] at h
    split_ifs at h with haf hae hac hab
    · obtain ⟨conv, -, h⟩ := Option.bind_eq_some_iff.mp h
      split_ifs at h
      · obtain ⟨c, -, h⟩ := Option.bind_eq_some_iff.mp h
        cases h
        exact ⟨rfl, rfl⟩
      · cases h
        trivial
    · cases h
      exact ⟨rfl, rfl⟩
    · split at h
      · cases h
      · cases h
        split_ifs <;> trivial
    · cases h
      trivial
    · cases h
      trivial

theorem onBufHandle_butTranspondHeadr {n : CKKkcp} {now : ℕ} {s d nTranId nDestTranId : UInt32}
    {buf : List UInt8} {recLen : UInt16} {adr : KKAddress} :
    n.onBufHandle m now (butTranspondHeadr s d ++ buf) recLen nTranId nDestTranId adr =
      if m.sizeofLong ≤ buf.length + 4 then n.onBufHandle m now buf (recLen - 9) s d adr
      else none := by
  rw [CKKkcp.onBufHandle, readMessage_butTranspondHeadr]
  split_ifs <;> rfl

end KkLicode.Kcp
