import KkLicode.Kcp.OnBufHandle

/-! Which bytes of the receive buffer a datagram makes a node read. The handlers
read the fields of the message they see at fixed offsets and never compare these
with the length, so a datagram that ends early is read on into what earlier ones
left in the buffer. -/

namespace KkLicode.Kcp

/-- The offsets that a call reads, and the calls of `OnBufHandle` that are nested in it. -/
structure Access where
  reads : List ℕ
  depth : ℕ := 0
  deriving DecidableEq, Repr

namespace CKKkcp

variable (m : DataModel) (n : CKKkcp) (adr : KKAddress)

/-- The offsets of a field. -/
abbrev field (off size : ℕ) : List ℕ := List.range' off size

/-- The sender has a control block, which `OnKcp` gives the data. -/
def hasKcp (nTranId : UInt32) : Bool :=
  ((n.conIPInfoMap.key1Find (senderKey nTranId adr)).bind n.heap).any (·.kcp.isSome)

/-- What `OnConHandle` reads. The handler of a heart also reads a byte of the conversation. -/
def onConHandleReads (buf : List UInt8) (off : ℕ) : List ℕ :=
  field off m.sizeofLong ++
    match (readLong m buf 0).map KKConState.ofCode with
    | some .syn | some .synAck | some .ack | some .link =>
      field (off + 4) m.sizeofLong ++ field (off + 8) 2
    | some .kcpHeart => field (off + 4) m.sizeofLong ++ [off + 5]
    | _ => []

/-- `OnKcp` reads nothing itself; `ikcp_input` is given the rest of the datagram. -/
def onKcpReads (nTranId : UInt32) (off : ℕ) (buflen : UInt16) : List ℕ :=
  if n.hasKcp adr nTranId then field off buflen.toNat else []

/-- The id that a relay server gave out is read for an entry. -/
def onTranBufHandleReads (buf : List UInt8) (off : ℕ) : List ℕ :=
  off :: if buf.head? = some UDPGETTRANID ∧ (n.conIPInfoMap.key1Find adr.toString).isSome then
    field (off + 1) m.sizeofLong else []

/-- What `OnBufHandle` reads of the buffer, of which it sees the bytes from `off` on. -/
def onBufHandleReads : List UInt8 → ℕ → UInt16 → UInt32 → Access
  | [], off, _, _ => { reads := [off] }
  | typex :: buf, off, recLen, nTranId =>
    if typex = 0xAF then
      { reads := off :: (field (off + 1) m.sizeofLong ++
          if readLong m buf 0 = some UDPCTLMSG then onConHandleReads m (buf.drop 4) (off + 5) else []) }
    else if typex = 0xAE then
      { reads := off :: n.onKcpReads adr nTranId (off + 1) (recLen - 1) }
    else if typex = 0xAD then
      let header := off :: (field (off + 1) m.sizeofLong ++ field (off + 5) m.sizeofLong)
      match buf with
      | a :: b :: c :: d :: _ :: _ :: _ :: _ :: buf =>
        let rest := onBufHandleReads buf (off + 9) (recLen - 9) (ntohl [a, b, c, d] 0)
        { reads := header ++ rest.reads, depth := rest.depth + 1 }
      | _ => { reads := header, depth := 1 }
    else if typex = 0xAC then { reads := off :: n.onTranBufHandleReads m adr buf (off + 1) }
    else if typex = 0xAB ∧ recLen > 1 then { reads := off :: field (off + 1) (recLen - 1).toNat }
    else { reads := [off] }

/-- What a turn of `HandleRecUdp` reads for a datagram. -/
def handleRecUdpReads (b : RecBuf) (data : List UInt8) : Access :=
  if data = [] then { reads := [] }
  else n.onBufHandleReads m adr (b.receive data).bytes 0 (.ofNat (min data.length bufLen)) 0

end CKKkcp

/-- A control message is long enough for the fields that its handler reads. -/
def ControlComplete (m : DataModel) (buf : List UInt8) : Prop :=
  m.sizeofLong ≤ buf.length ∧
    match KKConState.ofCode (ntohl buf 0) with
    | .syn | .synAck | .ack | .link => 4 + m.sizeofLong ≤ buf.length ∧ 10 ≤ buf.length
    | .kcpHeart => 4 + m.sizeofLong ≤ buf.length
    | _ => True

/-- A message is long enough for the fields of its kind, also the one behind relay headers. -/
def Complete (m : DataModel) (n : CKKkcp) (adr : KKAddress) : List UInt8 → Prop
  | [] => False
  | typex :: buf =>
    if typex = 0xAF then
      m.sizeofLong ≤ buf.length ∧ (ntohl buf 0 = UDPCTLMSG → ControlComplete m (buf.drop 4))
    else if typex = 0xAD then
      match buf with
      | _ :: _ :: _ :: _ :: _ :: _ :: _ :: _ :: rest =>
        m.sizeofLong ≤ rest.length + 4 ∧ Complete m n adr rest
      | _ => False
    else if typex = 0xAC then
      buf ≠ [] ∧ (buf.head? = some UDPGETTRANID → (n.conIPInfoMap.key1Find adr.toString).isSome →
        m.sizeofLong + 1 ≤ buf.length)
    else True

variable {m : DataModel} {n : CKKkcp} {adr : KKAddress} {data stale buf : List UInt8} {off k : ℕ}
  {recLen : UInt16} {nTranId : UInt32}

theorem forall_field {bound : ℕ} (hk : 0 < k) :
    (∀ i ∈ CKKkcp.field off k, i < bound) ↔ off + k ≤ bound := by
  constructor
  · intro h
    have := h (off + (k - 1)) (List.mem_range'_1.mpr ⟨by omega, by omega⟩)
    omega
  · intro h i hi
    exact (List.mem_range'_1.mp hi).2.trans_le h

theorem readLong_append_left {i : ℕ} (h : i + m.sizeofLong ≤ buf.length) :
    readLong m (buf ++ stale) i = readLong m buf i := by
  have hlong := m.four_le_sizeofLong
  have hget : ∀ j < i + 4, (buf ++ stale).getD j 0 = buf.getD j 0 := fun j hj => by
    rw [List.getD_eq_getElem?_getD, List.getElem?_append_left (by omega),
      List.getD_eq_getElem?_getD]
  rw [readLong, readLong, if_pos (by simp; omega), if_pos h, ntohl, ntohl, hget i (by omega),
    hget (i + 1) (by omega), hget (i + 2) (by omega), hget (i + 3) (by omega)]

theorem readLong_zero (h : m.sizeofLong ≤ buf.length) : readLong m buf 0 = some (ntohl buf 0) :=
  if_pos (by rwa [Nat.zero_add])

theorem readLong_append (h : m.sizeofLong ≤ buf.length) :
    readLong m (buf ++ stale) 0 = some (ntohl buf 0) :=
  (readLong_append_left (by rwa [Nat.zero_add])).trans (readLong_zero h)

/-- The reads of `OnConHandle` stay in the message if and only if it is complete. -/
theorem onConHandleReads_iff :
    (∀ i ∈ CKKkcp.onConHandleReads m (buf ++ stale) off, i < off + buf.length) ↔
      ControlComplete m buf := by
  have hlong := m.four_le_sizeofLong
  have hpos : 0 < m.sizeofLong := by omega
  have hhead := @forall_field off m.sizeofLong (off + buf.length) hpos
  have hconv := @forall_field (off + 4) m.sizeofLong (off + buf.length) hpos
  have hmtu := @forall_field (off + 8) 2 (off + buf.length) Nat.two_pos
  rw [CKKkcp.onConHandleReads, ControlComplete, List.forall_mem_append, hhead]
  by_cases hlen : m.sizeofLong ≤ buf.length
  · rw [readLong_append hlen, Option.map_some]
    cases KKConState.ofCode (ntohl buf 0) <;>
      simp only [List.forall_mem_append, hconv, hmtu, List.mem_singleton, forall_eq,
        List.not_mem_nil, false_imp_iff, implies_true, and_true] <;> omega
  · exact iff_of_false (fun h => hlen (by omega)) fun h => hlen h.1

/-- Every call reads the first of its bytes, also where there is none. -/
theorem off_mem_onBufHandleReads : off ∈ (n.onBufHandleReads m adr buf off recLen nTranId).reads := by
  cases buf with
  | nil => simp [CKKkcp.onBufHandleReads]
  | cons typex buf =>
    unfold CKKkcp.onBufHandleReads
    by_cases had : typex = 0xAD
    · rw [if_neg (by simp [had]), if_neg (by simp [had]), if_pos had]
      dsimp only
      split <;> simp
    · rw [if_neg had]
      split_ifs <;> simp

theorem ofNat_succ_sub_one (k : ℕ) : UInt16.ofNat (k + 1) - 1 = .ofNat k := by
  rw [UInt16.ofNat_add]
  exact UInt16.add_sub_cancel _ _

theorem ofNat_add_nine_sub (k : ℕ) : UInt16.ofNat (k + 9) - 9 = .ofNat k := by
  rw [UInt16.ofNat_add]
  exact UInt16.add_sub_cancel _ _

/-- A control message is read on where it ends behind its first byte. -/
example : (CKKkcp.onBufHandleReads .ilp32 (.start true) {} [0xAF] 0 1 0).reads = [0, 1, 2, 3, 4] := by
  unfold CKKkcp.onBufHandleReads
  decide

/-! ### The kinds of messages -/

theorem complete_control : Complete m n adr (0xAF :: buf) ↔
    m.sizeofLong ≤ buf.length ∧ (ntohl buf 0 = UDPCTLMSG → ControlComplete m (buf.drop 4)) := by
  unfold Complete
  rw [if_pos rfl]

theorem complete_tran : Complete m n adr (0xAC :: buf) ↔
    buf ≠ [] ∧ (buf.head? = some UDPGETTRANID →
      (n.conIPInfoMap.key1Find adr.toString).isSome → m.sizeofLong + 1 ≤ buf.length) := by
  unfold Complete
  rw [if_neg (by decide), if_neg (by decide), if_pos rfl]

theorem complete_short (h : buf.length < 8) : ¬ Complete m n adr (0xAD :: buf) := by
  unfold Complete
  rw [if_neg (by decide), if_pos rfl]
  split
  · simp at h
    omega
  · exact id

theorem complete_other {typex : UInt8} (haf : typex ≠ 0xAF) (had : typex ≠ 0xAD)
    (hac : typex ≠ 0xAC) : Complete m n adr (typex :: buf) := by
  unfold Complete
  rw [if_neg haf, if_neg had, if_neg hac]
  trivial

/-- The fields of a head are read from what was received if and only if they are there. -/
theorem control_iff :
    (∀ i ∈ (n.onBufHandleReads m adr (0xAF :: (buf ++ stale)) off recLen nTranId).reads,
      i < off + 1 + buf.length) ↔ Complete m n adr (0xAF :: buf) := by
  have hlong := m.four_le_sizeofLong
  have hpos : 0 < m.sizeofLong := by omega
  rw [complete_control]
  unfold CKKkcp.onBufHandleReads
  rw [if_pos rfl]
  simp only [List.forall_mem_cons, List.forall_mem_append, forall_field hpos]
  by_cases hbuf : m.sizeofLong ≤ buf.length
  · have hread : readLong m (buf ++ stale) 0 = some (ntohl buf 0) := readLong_append hbuf
    by_cases hmsg : ntohl buf 0 = UDPCTLMSG
    · have hdrop : (buf ++ stale).drop 4 = buf.drop 4 ++ stale :=
        List.drop_append_of_le_length (by omega)
      have hshift : off + 1 + buf.length = off + 5 + (buf.drop 4).length := by
        rw [List.length_drop]
        omega
      rw [if_pos (hread.trans (congrArg some hmsg)), hdrop, hshift, onConHandleReads_iff]
      simp only [hmsg, true_imp_iff]
      rw [List.length_drop]
      exact ⟨fun h => ⟨hbuf, h.2.2⟩, fun h => ⟨by omega, by omega, h.2⟩⟩
    · rw [if_neg fun h => hmsg (Option.some.inj (hread.symm.trans h))]
      simp only [hmsg, false_imp_iff, hbuf, and_true, List.not_mem_nil, implies_true, iff_true]
      omega
  · exact iff_of_false (fun h => hbuf (by omega)) fun h => hbuf h.1

theorem tran_iff :
    (∀ i ∈ (n.onBufHandleReads m adr (0xAC :: (buf ++ stale)) off recLen nTranId).reads,
      i < off + 1 + buf.length) ↔ Complete m n adr (0xAC :: buf) := by
  have hpos : 0 < m.sizeofLong := lt_of_lt_of_le (by omega) m.four_le_sizeofLong
  rw [complete_tran]
  unfold CKKkcp.onBufHandleReads
  rw [if_neg (by decide), if_neg (by decide), if_neg (by decide), if_pos rfl]
  simp only [CKKkcp.onTranBufHandleReads, List.forall_mem_cons]
  cases buf with
  | nil => simp
  | cons msgId buf =>
    have hhead : (msgId :: buf ++ stale).head? = (msgId :: buf).head? := rfl
    rw [hhead]
    split_ifs with hfound
    · simp only [forall_field hpos, hfound.1, hfound.2, true_imp_iff, List.length_cons]
      simp
      omega
    · have hneg : ¬ ((msgId :: buf).head? = some UDPGETTRANID ∧
          (n.conIPInfoMap.key1Find adr.toString).isSome) := hfound
      simp only [List.not_mem_nil, false_imp_iff, implies_true, and_true, List.length_cons]
      refine iff_of_true ⟨by omega, by omega⟩ ⟨List.cons_ne_nil _ _, fun hid hsome => ?_⟩
      exact absurd ⟨hid, hsome⟩ hneg

/-- The data of KCP, and those for the application, are what was received. -/
theorem other_iff {typex : UInt8} (haf : typex ≠ 0xAF) (had : typex ≠ 0xAD) (hac : typex ≠ 0xAC)
    (hlen : buf.length + 1 < 65536) :
    ∀ i ∈ (n.onBufHandleReads m adr (typex :: (buf ++ stale)) off (.ofNat (buf.length + 1))
      nTranId).reads, i < off + 1 + buf.length := by
  have hrest : ∀ i ∈ CKKkcp.field (off + 1) (UInt16.ofNat (buf.length + 1) - 1).toNat,
      i < off + 1 + buf.length := by
    rw [ofNat_succ_sub_one, UInt16.toNat_ofNat_of_lt' (show buf.length < 65536 by omega)]
    exact fun i hi => (List.mem_range'_1.mp hi).2
  unfold CKKkcp.onBufHandleReads
  rw [if_neg haf, if_neg had, if_neg hac]
  intro i hi
  have hoff : off < off + 1 + buf.length := by omega
  split_ifs at hi with hae hab
  · cases List.mem_cons.mp hi with
    | inl hi => exact hi ▸ hoff
    | inr hi =>
      rw [CKKkcp.onKcpReads] at hi
      split_ifs at hi with hkcp
      · exact hrest i hi
      · simp at hi
  · cases List.mem_cons.mp hi with
    | inl hi => exact hi ▸ hoff
    | inr hi => exact hrest i hi
  · exact List.mem_singleton.mp hi ▸ hoff

/-- What a relay header makes the node read itself. -/
theorem header_subset {i : ℕ}
    (h : i ∈ off :: (CKKkcp.field (off + 1) m.sizeofLong ++ CKKkcp.field (off + 5) m.sizeofLong)) :
    i ∈ (n.onBufHandleReads m adr (0xAD :: buf) off recLen nTranId).reads := by
  unfold CKKkcp.onBufHandleReads
  rw [if_neg (by decide), if_neg (by decide), if_pos rfl]
  dsimp only
  split
  · exact List.mem_append_left _ h
  · exact h

theorem length_lt_eight (h : ∀ a b c d a' b' c' d' rest,
    buf = a :: b :: c :: d :: a' :: b' :: c' :: d' :: rest → False) : buf.length < 8 := by
  rcases buf with _ | ⟨a, _ | ⟨b, _ | ⟨c, _ | ⟨d, _ | ⟨a', _ | ⟨b', _ | ⟨c', _ | ⟨d', rest⟩⟩⟩⟩⟩⟩⟩⟩
  case cons.cons.cons.cons.cons.cons.cons.cons => exact (h _ _ _ _ _ _ _ _ _ rfl).elim
  all_goals simp

/-- Behind a relay header the rest is read as a datagram of its own. -/
theorem relay_reads (a b c d a' b' c' d' : UInt8) (rest : List UInt8) :
    n.onBufHandleReads m adr
        (0xAD :: a :: b :: c :: d :: a' :: b' :: c' :: d' :: rest) off recLen nTranId =
      { reads := off :: (CKKkcp.field (off + 1) m.sizeofLong ++
          CKKkcp.field (off + 5) m.sizeofLong) ++
          (n.onBufHandleReads m adr rest (off + 9) (recLen - 9) (ntohl [a, b, c, d] 0)).reads
        depth := (n.onBufHandleReads m adr rest (off + 9) (recLen - 9)
          (ntohl [a, b, c, d] 0)).depth + 1 } := rfl

theorem complete_relay {a b c d a' b' c' d' : UInt8} {rest : List UInt8} :
    Complete m n adr (0xAD :: a :: b :: c :: d :: a' :: b' :: c' :: d' :: rest) ↔
      m.sizeofLong ≤ rest.length + 4 ∧ Complete m n adr rest := Iff.rfl

/-! ### Datagrams -/

theorem end_eq (typex : UInt8) (buf : List UInt8) :
    off + (typex :: buf).length = off + 1 + buf.length := by
  rw [List.length_cons]
  omega

/-- The reads stay in what was received if and only if it is complete, whatever is behind it. -/
theorem onBufHandleReads_iff (hlen : data.length < 65536) :
    (∀ i ∈ (n.onBufHandleReads m adr (data ++ stale) off (.ofNat data.length) nTranId).reads,
      i < off + data.length) ↔ Complete m n adr data := by
  have hlong := m.four_le_sizeofLong
  have hpos : 0 < m.sizeofLong := by omega
  induction data using Complete.induct generalizing off nTranId with
  | case1 =>
    refine iff_of_false (fun h => ?_) id
    exact absurd (h off off_mem_onBufHandleReads) (by simp)
  | case2 buf =>
    rw [end_eq]
    exact control_iff
  | case3 a b c d a' b' c' d' rest _ ih =>
    have hlen' : rest.length < 65536 := by
      simp only [List.length_cons] at hlen
      omega
    have hrest : (∀ i ∈ (n.onBufHandleReads m adr (rest ++ stale) (off + 9) (.ofNat rest.length)
        (ntohl [a, b, c, d] 0)).reads, i < off + 9 + rest.length) ↔ Complete m n adr rest := ih hlen'
    have hlast : off + (0xAD :: a :: b :: c :: d :: a' :: b' :: c' :: d' :: rest).length =
        off + 9 + rest.length := by
      simp only [List.length_cons]
      omega
    have hrecLen : UInt16.ofNat (0xAD :: a :: b :: c :: d :: a' :: b' :: c' :: d' :: rest).length - 9 =
        .ofNat rest.length := ofNat_add_nine_sub rest.length
    rw [complete_relay, ← hrest, hlast]
    simp only [List.cons_append, relay_reads, hrecLen, List.forall_mem_cons, List.forall_mem_append,
      forall_field hpos]
    rw [← and_assoc]
    refine and_congr_left' ?_
    omega
  | case4 buf hbuf =>
    have hshort := length_lt_eight hbuf
    refine iff_of_false (fun h => ?_) (complete_short hshort)
    -- the last byte of the header is read, and was not received
    have hlast := h (off + 8) (header_subset (List.mem_cons_of_mem _ (List.mem_append_right _
      (List.mem_range'_1.mpr ⟨by omega, by omega⟩))))
    rw [end_eq] at hlast
    omega
  | case5 buf =>
    rw [end_eq]
    exact tran_iff
  | case6 typex buf haf had hac =>
    rw [end_eq, List.length_cons]
    exact iff_of_true (other_iff haf had hac hlen) (complete_other haf had hac)

/-- Each relay header takes nine bytes. -/
theorem depth_of_complete (h : Complete m n adr data) :
    9 * (n.onBufHandleReads m adr (data ++ stale) off recLen nTranId).depth ≤ data.length := by
  induction data using Complete.induct generalizing off recLen nTranId with
  | case1 => exact h.elim
  | case3 a b c d a' b' c' d' rest _ ih =>
    have hrest := @ih (off + 9) (recLen - 9) (ntohl [a, b, c, d] 0) h.2
    simp only [List.cons_append, relay_reads, List.length_cons]
    omega
  | case4 buf hbuf => exact absurd h (complete_short (length_lt_eight hbuf))
  | case2 buf => simp [CKKkcp.onBufHandleReads]
  | case5 buf => simp [CKKkcp.onBufHandleReads]
  | case6 typex buf haf had hac =>
    rw [List.cons_append]
    unfold CKKkcp.onBufHandleReads
    rw [if_neg haf, if_neg had, if_neg hac]
    split_ifs <;> simp

/-! ### What is behind a datagram -/

theorem readShort_append_left {i : ℕ} (h : i + 2 ≤ buf.length) :
    readShort (buf ++ stale) i = readShort buf i := by
  have hget : ∀ j < i + 2, (buf ++ stale).getD j 0 = buf.getD j 0 := fun j hj => by
    rw [List.getD_eq_getElem?_getD, List.getElem?_append_left (by omega),
      List.getD_eq_getElem?_getD]
  rw [readShort, readShort, if_pos (by simp; omega), if_pos h, hget i (by omega),
    hget (i + 1) (by omega)]

theorem readControl_append (h : ControlComplete m buf) :
    readControl m (buf ++ stale) recLen = readControl m buf recLen := by
  have hlong := m.four_le_sizeofLong
  have hmsg : readLong m buf 0 = some (ntohl buf 0) := readLong_zero h.1
  have hfields := h.2
  unfold readControl
  rw [readLong_append_left (by have := h.1; omega), hmsg]
  simp only [Option.bind_eq_bind, Option.bind_some]
  generalize KKConState.ofCode (ntohl buf 0) = msgId at hfields ⊢
  cases msgId
  case syn | synAck | ack | link =>
    have hconv : readLong m (buf ++ stale) 4 = readLong m buf 4 := readLong_append_left (by omega)
    have hmtu : readShort (buf ++ stale) 8 = readShort buf 8 := readShort_append_left (by omega)
    dsimp only
    rw [hconv, hmtu]
  case kcpHeart =>
    have hconv : readLong m (buf ++ stale) 4 = readLong m buf 4 := readLong_append_left (by omega)
    dsimp only
    rw [hconv]
  all_goals rfl

/-- What a node does with a complete datagram does not depend on what is behind it. -/
theorem onBufHandle_append {now : ℕ} {nDestTranId : UInt32} (hlen : data.length < 65536)
    (h : Complete m n adr data) :
    n.onBufHandle m now (data ++ stale) (.ofNat data.length) nTranId nDestTranId adr =
      n.onBufHandle m now data (.ofNat data.length) nTranId nDestTranId adr := by
  have hlong := m.four_le_sizeofLong
  unfold CKKkcp.onBufHandle
  induction data using Complete.induct generalizing nTranId nDestTranId with
  | case1 => exact h.elim
  | case2 buf =>
    obtain ⟨hhead, hcontrol⟩ := complete_control.mp h
    have hread : readLong m (buf ++ stale) 0 = readLong m buf 0 := readLong_append_left (by omega)
    have hmsg : readLong m buf 0 = some (ntohl buf 0) := if_pos (by omega)
    rw [List.cons_append]
    unfold readMessage
    simp only [if_true, hread, hmsg, Option.bind_eq_bind, Option.bind_some]
    split_ifs with hctl
    · have hdrop : (buf ++ stale).drop 4 = buf.drop 4 ++ stale :=
        List.drop_append_of_le_length (by omega)
      rw [hdrop, readControl_append (hcontrol hctl)]
    · rfl
  | case3 a b c d a' b' c' d' rest _ ih =>
    have hlen' : rest.length < 65536 := by
      simp only [List.length_cons] at hlen
      omega
    have hrecLen : UInt16.ofNat (0xAD :: a :: b :: c :: d :: a' :: b' :: c' :: d' :: rest).length - 9 =
        .ofNat rest.length := ofNat_add_nine_sub rest.length
    have hshort : m.sizeofLong ≤ (rest ++ stale).length + 4 := by
      have := h.1
      rw [List.length_append]
      omega
    simp only [List.cons_append, readMessage_relay, if_pos h.1, if_pos hshort, hrecLen]
    exact ih hlen' h.2
  | case4 buf hbuf => exact absurd h (complete_short (length_lt_eight hbuf))
  | case5 buf =>
    obtain ⟨hne, hid⟩ := complete_tran.mp h
    cases buf with
    | nil => exact absurd rfl hne
    | cons msgId buf =>
      rw [List.cons_append, List.cons_append]
      unfold readMessage
      rw [if_neg (by decide), if_neg (by decide), if_neg (by decide), if_pos rfl,
        if_neg (by decide), if_neg (by decide), if_neg (by decide), if_pos rfl]
      simp only [Option.bind_some]
      by_cases hmsg : msgId = UDPGETTRANID
      · simp only [hmsg, if_true, CKKkcp.onMessage]
        cases hfind : n.conIPInfoMap.key1Find adr.toString with
        | none => rfl
        | some p =>
          have hread : readLong m (buf ++ stale) 0 = readLong m buf 0 := by
            have hlen := hid (by rw [hmsg]; rfl) (by rw [hfind]; rfl)
            rw [List.length_cons] at hlen
            exact readLong_append_left (by omega)
          rw [hread]
      · simp only [hmsg, if_false]
  | case6 typex buf haf had hac =>
    have hrecLen : UInt16.ofNat (typex :: buf).length - 1 = .ofNat buf.length :=
      ofNat_succ_sub_one buf.length
    have hbuf : (UInt16.ofNat (typex :: buf).length - 1).toNat = buf.length := by
      rw [List.length_cons] at hlen
      rw [hrecLen, UInt16.toNat_ofNat_of_lt' (show buf.length < 65536 by omega)]
    rw [List.cons_append]
    unfold readMessage
    simp only [if_neg haf, if_neg had, if_neg hac, hbuf, List.length_append, Nat.le_add_right,
      le_refl]

/-- What a turn of the loop reads is what it has received, and each nested call has used up nine
bytes. -/
def CKKkcp.ReadsWithin (m : DataModel) (n : CKKkcp) (adr : KKAddress) (b : RecBuf)
    (data : List UInt8) : Prop :=
  (∀ i ∈ (n.handleRecUdpReads m adr b data).reads, i < min data.length bufLen) ∧
    (n.handleRecUdpReads m adr b data).depth ≤ min data.length bufLen / 9

/-- Of the bytes that fit into the buffer a datagram is read only if its message is complete. -/
theorem readsWithin_iff (m : DataModel) (n : CKKkcp) (adr : KKAddress) (b : RecBuf)
    (data : List UInt8) :
    n.ReadsWithin m adr b data ↔ data = [] ∨ Complete m n adr (data.take bufLen) := by
  rw [CKKkcp.ReadsWithin, CKKkcp.handleRecUdpReads]
  split_ifs with hdata
  · simp [hdata]
  · have hlen : (data.take bufLen).length = min data.length bufLen := by
      rw [List.length_take, Nat.min_comm]
    have hshort : (data.take bufLen).length < 65536 :=
      hlen.trans_lt ((Nat.min_le_right _ _).trans_lt (by decide))
    have hreads := @onBufHandleReads_iff m n adr _ (b.bytes.drop data.length) 0 0 hshort
    rw [hlen, Nat.zero_add] at hreads
    simp only [RecBuf.receive, hdata, false_or]
    rw [hreads, and_iff_left_iff_imp]
    intro hcomplete
    have hdepth := @depth_of_complete m n adr _ (b.bytes.drop data.length) 0
      (.ofNat (min data.length bufLen)) 0 hcomplete
    rw [hlen] at hdepth
    omega

/-- One byte that announces a relay header. -/
theorem not_readsWithin_short : ¬ ∀ (m : DataModel) (n : CKKkcp) (adr : KKAddress) (b : RecBuf)
    (data : List UInt8), n.ReadsWithin m adr b data := by
  intro h
  have hreads := (h .ilp32 (.start true) ⟨1, 1, 0⟩ ⟨List.replicate bufLen 0, List.length_replicate⟩
    [0xAD]).1 1 (by
      rw [CKKkcp.handleRecUdpReads, if_neg (List.cons_ne_nil _ _)]
      exact header_subset (List.mem_cons_of_mem _ (List.mem_append_left _
        (List.mem_range'_1.mpr ⟨le_rfl, by decide⟩))))
  exact absurd hreads (by decide)

end KkLicode.Kcp
