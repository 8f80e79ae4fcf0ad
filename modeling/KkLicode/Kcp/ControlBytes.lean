import KkLicode.Kcp.OnBufHandle

/-! The control messages on their way: put together by their builders, sent by `SendSign`
with or without a relay header, and taken apart by `OnBufHandle`. What `OnConHandle` is
given has the type, the conversation and the MTU where its handlers read them. -/

namespace KkLicode.Kcp

/-- The messages that the builders put together. -/
def builders (cov : UInt32) (mtu : UInt16) (nDestTranId : UInt32) : List Control :=
  [putsyn cov nDestTranId, putsynack cov mtu, putack cov mtu, putlink cov mtu, putkcpheart cov,
    putkcpdisconnect cov, putkcplost cov, putunlink]

/-- The message without the fields that its handler does not read. -/
def Control.handled (c : Control) : Control :=
  match c.msgId with
  | .syn | .synAck | .ack | .link => c
  | .kcpHeart => { c with mtu := 0 }
  | _ => { c with conv := 0, mtu := 0 }

/-- What `OnConHandle` is given of the message. -/
def Control.fields (c : Control) : List UInt8 :=
  htonl (.ofNat c.msgId.code) ++ (htonl c.conv ++ (htons c.mtu ++ List.replicate (c.len.toNat - 15) 0))

/-- The type of a message that is sent, with its number. -/
structure Control.Sent (c : Control) : Prop where
  code : KKConState.ofCode (.ofNat c.msgId.code) = c.msgId
  len : 15 ≤ c.len.toNat
  short : c.len.toNat + 9 < 2 ^ 16

/-- The bytes are dispatched to `OnConHandle` with the relay ids `s` and `d`, and it finds the
fields of the message at the offsets at which its handlers read. -/
structure Control.DispatchedFrom (c : Control) (m : DataModel) (buf : List UInt8) (recLen : UInt16)
    (s d : UInt32) : Prop where
  message : readMessage m buf recLen 0 0 = some (.control s d c.handled)
  handler (n : CKKkcp) (now : ℕ) (adr : KKAddress) :
    n.onBufHandle m now buf recLen 0 0 adr = n.onConHandle now c.handled s d adr
  fields : ∃ head given, buf = head ++ given ∧ head.length = (if d > 0 then 14 else 5) ∧
    readLong m given 0 = some (.ofNat c.msgId.code) ∧ readLong m given 4 = some c.conv ∧
    readShort given 8 = some c.mtu

variable {m : DataModel} {c : Control} {cov : UInt32} {mtu : UInt16} {nDestTranId s d : UInt32}

theorem sent_of_mem_builders (h : c ∈ builders cov mtu nDestTranId) : c.Sent := by
  have hshort : 15 ≤ (15 : UInt16).toNat ∧ (15 : UInt16).toNat + 9 < 2 ^ 16 := by decide
  simp only [builders, List.mem_cons, List.not_mem_nil, or_false] at h
  rcases h with rfl | rfl | rfl | rfl | rfl | rfl | rfl | rfl
  · -- only the length of a SYN depends on the relay
    have hsyn : ∀ len ∈ [(1500 - 64 - 9 : UInt16), 1500 - 64], 15 ≤ len.toNat ∧ len.toNat + 9 < 2 ^ 16 := by
      simp
    rw [putsyn]
    split_ifs
    · exact ⟨rfl, (hsyn _ (by simp)).1, (hsyn _ (by simp)).2⟩
    · exact ⟨rfl, (hsyn _ (by simp)).1, (hsyn _ (by simp)).2⟩
  all_goals exact ⟨rfl, hshort.1, hshort.2⟩

theorem Control.length_bytes (h : c.Sent) : c.bytes.length = c.len.toNat := by
  have := h.len
  simp only [Control.bytes, htonl, htons, List.length_cons, List.length_append, List.length_nil,
    List.length_replicate]
  omega

/-- The conversation is read with the MTU and what is behind the message. -/
theorem Control.readLong_fields (h : c.Sent) {rest : List UInt8}
    (hrest : m.sizeofLong ≤ rest.length + 6) :
    readLong m (c.fields ++ rest) 0 = some (.ofNat c.msgId.code) ∧
      readLong m (c.fields ++ rest) 4 = some c.conv ∧ readShort (c.fields ++ rest) 8 = some c.mtu := by
  have hlen := h.len
  simp only [Control.fields, List.append_assoc, readShort_htons, and_true]
  refine ⟨readLong_htonl _ ?_, readLong_htonl_next _ _ ?_⟩
  · simp only [htonl, htons, List.length_append, List.length_cons, List.length_nil]
    omega
  · simp only [htons, List.length_append, List.length_cons, List.length_nil]
    omega

/-- The handler reads what is at the offsets. -/
theorem readControl_fields (h : c.Sent) {rest : List UInt8} (hrest : m.sizeofLong ≤ rest.length + 6) :
    readControl m (c.fields ++ rest) (c.len - 5) = some c.handled := by
  have hlen : c.len - 5 + 5 = c.len := UInt16.sub_add_cancel ..
  obtain ⟨hmsg, hconv, hmtu⟩ := Control.readLong_fields h hrest
  unfold readControl
  simp only [hmsg, hconv, hmtu, Option.bind_eq_bind, Option.bind_some, h.code, hlen]
  obtain ⟨msgId, conv, mtu, len⟩ := c
  cases msgId <;> rfl

/-- The message behind its five bytes of head. -/
theorem readMessage_control (h : c.Sent) {rest : List UInt8} (hrest : m.sizeofLong ≤ rest.length + 6) :
    readMessage m (c.bytes ++ rest) c.len s d = some (.control s d c.handled) := by
  have hlen : m.sizeofLong ≤ (c.fields ++ rest).length + 4 := by
    simp only [Control.fields, htonl, htons, List.length_append, List.length_cons, List.length_nil]
    omega
  rw [show c.bytes ++ rest = 0xAF :: (htonl UDPCTLMSG ++ (c.fields ++ rest)) by
    simp [Control.bytes, Control.fields], readMessage_head hlen, readControl_fields h hrest]
  rfl

/-- The fields stand behind the head of the datagram. -/
theorem Control.DispatchedFrom.of_message (hc : c.Sent) {head rest : List UInt8} {recLen : UInt16}
    {nTranId nDestTranId : UInt32} (hrest : m.sizeofLong ≤ rest.length + 6)
    (hhead : head.length = if nDestTranId > 0 then 9 else 0)
    (h : readMessage m (head ++ c.bytes ++ rest) recLen 0 0 =
      some (.control nTranId nDestTranId c.handled)) :
    c.DispatchedFrom m (head ++ c.bytes ++ rest) recLen nTranId nDestTranId := by
  refine ⟨h, fun n now adr => ?_, head ++ (0xAF :: htonl UDPCTLMSG), c.fields ++ rest, ?_, ?_,
    Control.readLong_fields hc hrest⟩
  · rw [CKKkcp.onBufHandle, h]
    rfl
  · simp [Control.bytes, Control.fields]
  · rw [List.length_append, hhead]
    split_ifs <;> rfl

theorem header_sendControl (n : CKKkcp) (c : Control) (s d : UInt32) (addr : KKAddress) :
    ∃ sent, (n.sendControl c s d addr).sent = n.sent ++ [sent] ∧ sent.body = .control c ∧
      sent.header = if d > 0 then butTranspondHeadr s d else [] := by
  refine ⟨_, rfl, rfl, ?_⟩
  rw [Datagram.header]
  split_ifs <;> rfl

/-- Whatever a builder puts together is dispatched as it was sent, directly or through a relay,
with any bytes behind it in the buffer, of which an `unsigned long` of eight bytes takes two. -/
theorem sendControl_dispatched (m : DataModel) (n : CKKkcp) (cov : UInt32) (mtu : UInt16)
    (s d : UInt32) (addr : KKAddress) (c : Control) (h : c ∈ builders cov mtu d) (rest : List UInt8)
    (hrest : m.sizeofLong ≤ rest.length + 6) :
    ∃ sent, (n.sendControl c s d addr).sent = n.sent ++ [sent] ∧ sent.body = .control c ∧
      c.DispatchedFrom m (sent.header ++ c.bytes ++ rest) (.ofNat (sent.header ++ c.bytes).length)
        (if d > 0 then s else 0) (if d > 0 then d else 0) := by
  have hsent := sent_of_mem_builders h
  obtain ⟨sent, hlast, hbody, hheader⟩ := header_sendControl n c s d addr
  refine ⟨sent, hlast, hbody, ?_⟩
  rw [hheader]
  split_ifs with hd
  · have hlen : UInt16.ofNat (butTranspondHeadr s d ++ c.bytes).length - 9 = c.len := by
      have hshort := hsent.short
      have hnine : (9 : UInt16).toNat = 9 := rfl
      rw [List.length_append, Control.length_bytes hsent, show (butTranspondHeadr s d).length = 9 from rfl]
      refine UInt16.toNat_inj.mp ?_
      rw [UInt16.toNat_sub, UInt16.toNat_ofNat', hnine]
      omega
    have hbehind : m.sizeofLong ≤ (c.bytes ++ rest).length + 4 := by
      have := hsent.len
      rw [List.length_append, Control.length_bytes hsent]
      omega
    refine .of_message hsent hrest (by rw [if_pos hd]; rfl) ?_
    rw [List.append_assoc, readMessage_butTranspondHeadr, if_pos hbehind, hlen,
      readMessage_control hsent hrest]
  · refine .of_message hsent hrest rfl ?_
    rw [List.nil_append, Control.length_bytes hsent, UInt16.ofNat_toNat,
      readMessage_control hsent hrest]

/-- A heart on its way from relay id 3 to 4, with two bytes of an earlier datagram behind it. -/
theorem sendControl_dispatched_heart :
    ∃ sent, ((CKKkcp.start true).sendControl (putkcpheart 101) 3 4 ⟨1, 1, 0⟩).sent =
        (CKKkcp.start true).sent ++ [sent] ∧ sent.body = .control (putkcpheart 101) ∧
      (putkcpheart 101).DispatchedFrom .lp64 (sent.header ++ (putkcpheart 101).bytes ++ [7, 7])
        (.ofNat (sent.header ++ (putkcpheart 101).bytes).length) 3 4 :=
  sendControl_dispatched .lp64 (CKKkcp.start true) 101 1200 3 4 ⟨1, 1, 0⟩ (putkcpheart 101)
    (by simp [builders]) [7, 7] (by decide)

end KkLicode.Kcp
