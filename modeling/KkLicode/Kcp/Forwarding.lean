import KkLicode.Base.Runs
import KkLicode.Kcp.TranServer

/-! What the relay forwards. The bytes sent on are the whole receive buffer: the
datagram, and behind it what earlier datagrams left there. -/

namespace KkLicode.Kcp

open Base

theorem RecBuf.receive_bytes (b : RecBuf) (data : List UInt8) :
    (b.receive data).bytes = data.take bufLen ++ b.bytes.drop data.length := rfl

theorem RecBuf.receive_eq_iff (b : RecBuf) (data : List UInt8) :
    (b.receive data).bytes = data ↔ data.length = bufLen := by
  constructor
  · intro h
    rw [← (b.receive data).length_eq, h]
  · intro h
    have hdrop : b.bytes.drop data.length = [] := List.drop_eq_nil_of_le (by rw [b.length_eq, h])
    rw [receive_bytes, hdrop, List.append_nil, List.take_of_length_le h.le]

/-- The first byte of a datagram is the first byte of the buffer behind. -/
theorem RecBuf.receive_getD (b : RecBuf) {data : List UInt8} {i : ℕ} (hi : i < data.length)
    (hb : i < bufLen) : (b.receive data).bytes.getD i 0 = data.getD i 0 := by
  have ht : i < (data.take bufLen).length := by
    rw [List.length_take]
    omega
  simp only [List.getD_eq_getElem?_getD, receive_bytes, List.getElem?_append_left ht,
    List.getElem?_take_of_lt hb]

/-- The bytes of a datagram. -/
def RelayEvent.data : RelayEvent → List UInt8
  | .idle _ => []
  | .datagram _ _ _ data => data

namespace CKKTranServer

/-- The relay when it starts, with whatever the allocated buffer has. -/
def start (recBuf : RecBuf) : CKKTranServer := { recBuf := recBuf }

/-- The bytes that are sent on when a datagram with the forwarding head comes from a
registered client for a registered one. -/
def forwarded (s : CKKTranServer) : RelayEvent → Option (List UInt8)
  | .idle _ => none
  | .datagram now ip port data =>
    let addr : KKAddress := ⟨ip, port, 0⟩
    if data.head? = some 0xAD ∧ (s.tranInfoMap.key1Find addr.toString).isSome ∧
        (s.tranInfoMap.key2Find (ntohl (s.recBuf.receive data).bytes 5)).isSome then
      ((s.step (.datagram now ip port data)).bind fun s' => s'.sent.getLast?).map (·.2)
    else none

/-- A step of a run, with what it forwards. -/
def advance (s : Option CKKTranServer) (e : RelayEvent) : Option CKKTranServer × Option (List UInt8) :=
  (s.bind fun s => s.step e, s.bind fun s => s.forwarded e)

variable {s s' : CKKTranServer} {now : UInt64} {ip : UInt32} {port : UInt16} {data buf : List UInt8}
  {addr : KKAddress} {p q : ℕ}

/-- A datagram with the forwarding head is handled by the branch that forwards. -/
theorem step_forward (h : data.head? = some 0xAD) : s.step (.datagram now ip port data) =
    onForward { s with recBuf := s.recBuf.receive data } now (s.recBuf.receive data).bytes
      ⟨ip, port, 0⟩ := by
  obtain ⟨rest, rfl⟩ : ∃ rest, data = 0xAD :: rest := by
    cases data with
    | nil => cases h
    | cons x rest => exact ⟨rest, by rw [Option.some.inj h]⟩
  have hhead := s.recBuf.receive_getD (show 0 < (0xAD :: rest).length by simp) (by decide)
  simp only [step, onTranBufHandle, hhead]
  rfl

/-- The client that is registered under the id gets the buffer. -/
theorem onForward_eq (hp : s.tranInfoMap.key1Find addr.toString = some p)
    (hq : s.tranInfoMap.key2Find (ntohl buf 5) = some q) (h : s.onForward now buf addr = some s') :
    ∃ dest, s'.sent = s.sent ++ [(dest, buf)] := by
  unfold onForward at h
  simp only [hp] at h
  obtain ⟨t, ht, h⟩ := Option.bind_eq_some_iff.mp h
  obtain ⟨info, hi, ht⟩ := Option.bind_eq_some_iff.mp ht
  cases ht
  simp only [setInfo, hq] at h
  obtain ⟨dest, hd, h⟩ := Option.bind_eq_some_iff.mp h
  cases h
  exact ⟨dest.addr, rfl⟩

/-- What is sent on is the buffer. -/
theorem forwarded_eq {bytes : List UInt8}
    (h : s.forwarded (.datagram now ip port data) = some bytes) :
    bytes = (s.recBuf.receive data).bytes := by
  unfold forwarded at h
  dsimp only at h
  split_ifs at h with hc
  obtain ⟨hhead, hp, hq⟩ := hc
  obtain ⟨p, hp⟩ := Option.isSome_iff_exists.mp hp
  obtain ⟨q, hq⟩ := Option.isSome_iff_exists.mp hq
  obtain ⟨x, hx, rfl⟩ := Option.map_eq_some_iff.mp h
  obtain ⟨s', hs, hl⟩ := Option.bind_eq_some_iff.mp hx
  rw [step_forward hhead] at hs
  obtain ⟨dest, hd⟩ := onForward_eq (s := { s with recBuf := s.recBuf.receive data }) hp hq hs
  rw [hd, List.getLast?_concat] at hl
  rw [← Option.some.inj hl]

theorem forwarded_eq_data_iff {e : RelayEvent} {bytes : List UInt8}
    (h : s.forwarded e = some bytes) : bytes = e.data ↔ e.data.length = bufLen := by
  cases e with
  | idle now => cases h
  | datagram now ip port data =>
    rw [forwarded_eq h]
    exact s.recBuf.receive_eq_iff data

/-- In a run every datagram is sent on as it came, whatever was in the buffer, if and only if every
one that is sent on fills the buffer. -/
theorem forwarded_iff (recBuf : RecBuf) (es : List RelayEvent) :
    (∀ x ∈ Runs.trace advance (some (start recBuf)) es, ∀ bytes ∈ x.2, bytes = x.1.data) ↔
      ∀ x ∈ Runs.trace advance (some (start recBuf)) es, x.2.isSome → x.1.data.length = bufLen := by
  have one (x) (hx : x ∈ Runs.trace advance (some (start recBuf)) es) (bytes) (hb : bytes ∈ x.2) :
      bytes = x.1.data ↔ x.1.data.length = bufLen := by
    obtain ⟨t, ht⟩ := Runs.exists_of_mem_trace _ hx
    obtain ⟨s, -, hs⟩ := Option.bind_eq_some_iff.mp (ht.symm.trans hb)
    exact forwarded_eq_data_iff hs
  constructor
  · intro h x hx hsome
    obtain ⟨bytes, hb⟩ := Option.isSome_iff_exists.mp hsome
    exact (one x hx bytes hb).mp (h x hx bytes hb)
  · intro h x hx bytes hb
    exact (one x hx bytes hb).mpr (h x hx (Option.isSome_iff_exists.mpr ⟨bytes, hb⟩))

def noData : List UInt8 := [0xAD, 0, 0, 0, 1, 0, 0, 0, 2]

/-- Two clients register, a stranger sends a byte behind a head that is ignored, and the
first client sends the second one a datagram without data. -/
def stranger (secret : UInt8) : List RelayEvent :=
  [.datagram 0 1 1 [0xAC, UDPGETTRANID], .datagram 0 2 2 [0xAC, UDPGETTRANID],
   .datagram 0 3 3 [0, 0, 0, 0, 0, 0, 0, 0, 0, secret], .datagram 0 1 1 noData]

def emptyBuf : RecBuf := ⟨List.replicate bufLen 0, List.length_replicate⟩

/-- What is sent on has the stranger's byte. -/
theorem forwarded_stranger :
    (Runs.trace advance (some (start emptyBuf)) (stranger 7)).getLast?.map
        (fun x => (x.1.data, x.2)) =
      some (noData, some (noData ++ 7 :: List.replicate 2038 0)) ∧
    (Runs.trace advance (some (start emptyBuf)) (stranger 9)).getLast?.map
        (fun x => (x.1.data, x.2)) =
      some (noData, some (noData ++ 9 :: List.replicate 2038 0)) ∧
    noData ++ 7 :: List.replicate 2038 0 ≠ noData := by
  decide +kernel

end CKKTranServer

end KkLicode.Kcp
