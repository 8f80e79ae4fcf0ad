import Mathlib.Data.List.Infix
import KkLicode.Ikcp.Conversation
import KkLicode.Kcp.OnBufHandle

/-! What `CKKkcp` does with the control block of a connection: how it gives bytes of
the application to it, how its datagrams go through the socket and come out of
`OnBufHandle` at the other node, and how its messages become packets. The messages of
one node come out at the other one in order, through any run of the network. -/

namespace KkLicode.Kcp

open Base Ikcp

def KCP_MAXPKT_LEN : ℕ := 2000

def MAXBUF : ℤ := 1048576

/-- The size of `m_pTemp`, and of the buffer that datagrams are received into. -/
def UDP_BUFFER : ℕ := 2048

/-! ### Datagrams -/

/-- What `kk_udp_output` puts together in `m_pTemp`, with the relay ids if there are any. -/
def kkUdpOutput (relay : Option (UInt32 × UInt32)) (buf : List UInt8) : List UInt8 :=
  (match relay with
    | some (nTranId, nDestTranId) => butTranspondHeadr nTranId nDestTranId
    | none => []) ++ 0xAE :: buf

/-- The bytes that `OnBufHandle` hands to `OnKcp`, if the datagram is one of KCP data. -/
def kcpData : List UInt8 → UInt16 → Option (List UInt8)
  | [], _ => none
  | typex :: buf, recLen =>
    if typex = 0xAE then some (buf.take (recLen - 1).toNat)
    else if typex = 0xAD then
      match buf with
      | _ :: _ :: _ :: _ :: _ :: _ :: _ :: _ :: buf => kcpData buf (recLen - 9)
      | _ => none
    else none

theorem length_kkUdpOutput_le (relay : Option (UInt32 × UInt32)) (buf : List UInt8) :
    (kkUdpOutput relay buf).length ≤ buf.length + 10 := by
  cases relay with
  | none => simp [kkUdpOutput]
  | some ids => simp [kkUdpOutput, butTranspondHeadr, htonl]

/-- What one node puts together, the other one hands to `ikcp_input`, whatever was in its buffer. -/
theorem kcpData_kkUdpOutput (relay : Option (UInt32 × UInt32)) {buf : List UInt8}
    (h : buf.length + 10 ≤ UDP_BUFFER) (rest : List UInt8) :
    kcpData (kkUdpOutput relay buf ++ rest) (.ofNat (kkUdpOutput relay buf).length) = some buf := by
  have hlen : buf.length + 10 ≤ 2048 := h
  have hplain : ∀ n : UInt16, (n - 1).toNat = buf.length → kcpData (0xAE :: (buf ++ rest)) n = some buf :=
    fun n hn => by
      unfold kcpData
      rw [if_pos rfl, hn, List.take_left]
  cases relay with
  | none =>
    refine hplain _ ?_
    rw [kkUdpOutput, List.nil_append, List.length_cons, UInt16.toNat_sub, UInt16.toNat_ofNat', UInt16.toNat_one]
    omega
  | some ids =>
    have hhead : (kkUdpOutput (some ids) buf).length = buf.length + 10 := by
      simp [kkUdpOutput, butTranspondHeadr, htonl]
    rw [hhead, kkUdpOutput, List.append_assoc, List.cons_append]
    unfold butTranspondHeadr kcpData
    refine hplain _ ?_
    rw [UInt16.toNat_sub, UInt16.toNat_sub, UInt16.toNat_ofNat', UInt16.toNat_one]
    show (2 ^ 16 - 1 + (2 ^ 16 - 9 + (buf.length + 10) % 2 ^ 16) % 2 ^ 16) % 2 ^ 16 = buf.length
    omega

/-! ### The node -/

/-- The loop of `StablySend`, and what is left behind it. -/
def pieces : ℕ → List UInt8 → List (List UInt8)
  | 0, buf => if buf.length > 0 then [buf] else []
  | count + 1, buf => buf.take KCP_MAXPKT_LEN :: pieces count (buf.drop KCP_MAXPKT_LEN)

/-- A node's side of a connection: its end of the conversation, the relay ids, the bytes that the
application gave to it, and the packets of KCP data for the application. -/
structure Conn where
  side : End
  relay : Option (UInt32 × UInt32) := none
  given : List UInt8 := []
  packets : List (List UInt8) := []

/-- What happens at a node. Data that is received is a datagram that the other node sent, with what
the buffer held behind it. -/
inductive ConnEvent where
  | stablySend (buf : List UInt8)
  | kkSend (buf : List UInt8)
  | receive (i : ℕ) (rest : List UInt8) (ic : UInt32)
  | tick (ic : UInt32)
  deriving DecidableEq, Repr

namespace Conn

variable (c peer : Conn)

/-- `StablySend`. -/
def stablySend (buf : List UInt8) : Conn :=
  { c with
    side := (pieces (buf.length / KCP_MAXPKT_LEN) buf).foldl End.send c.side
    given := c.given ++ buf }

/-- `KKSend`. -/
def kkSend (buf : List UInt8) : Conn :=
  { c with
    side := c.side.send buf
    given := if (c.side.kcp.send buf).2 < 0 then c.given else c.given ++ buf }

/-- `GetRecKcpData`: a message of no bytes makes no packet. -/
def getRecKcpData : Conn :=
  { c with
    side := c.side.recv MAXBUF
    packets := match (c.side.kcp.recv MAXBUF).2 with
      | .ok data => if data.length > 0 then c.packets ++ [data] else c.packets
      | .error _ => c.packets }

/-- `OnKcp`, for the control block of the sender. -/
def onKcp (buf : List UInt8) (ic : UInt32) : Conn :=
  { c with side := (c.side.input buf).update peer.side ic }.getRecKcpData

/-- A datagram in the buffer of `HandleRecUdp`, of which only what fits is received. -/
def receive (datagram rest : List UInt8) (ic : UInt32) : Conn :=
  match kcpData (datagram.take UDP_BUFFER ++ rest) (.ofNat (datagram.take UDP_BUFFER).length) with
  | some buf => c.onKcp peer buf ic
  | none => c

/-- What `ConnMgrThread2` does with a control block in every turn. -/
def tick (ic : UInt32) : Conn :=
  if c.side.kcp.check ic ≠ 0 then { c with side := c.side.update peer.side ic }.getRecKcpData else c

def event : ConnEvent → Conn
  | .stablySend buf => c.stablySend buf
  | .kkSend buf => c.kkSend buf
  | .receive i rest ic =>
    match peer.side.wire[i]? with
    | some p => c.receive peer (kkUdpOutput peer.relay p.data) rest ic
    | none => c
  | .tick ic => c.tick peer ic

/-- The events of the end that a node's event consists of. -/
def script : ConnEvent → List EndEvent
  | .stablySend buf => (pieces (buf.length / KCP_MAXPKT_LEN) buf).map .send
  | .kkSend buf => [.send buf]
  | .receive i _ ic => if i < peer.side.wire.length then [.deliver i, .update ic, .recv MAXBUF] else []
  | .tick ic => if c.side.kcp.check ic ≠ 0 then [.update ic, .recv MAXBUF] else []

/-- A datagram is received in time. -/
def Timely : ConnEvent → Prop
  | .receive i _ _ => c.side.Timely peer.side (.deliver i)
  | _ => True

instance : ∀ ev, Decidable (Timely c peer ev)
  | .stablySend _ => isTrue trivial
  | .kkSend _ => isTrue trivial
  | .receive i _ _ => inferInstanceAs (Decidable (End.Timely _ _ (.deliver i)))
  | .tick _ => isTrue trivial

end Conn

/-! ### A node's event as events of its end -/

theorem pieces_flatten (count : ℕ) (buf : List UInt8) : (pieces count buf).flatten = buf := by
  induction count generalizing buf with
  | zero =>
    rw [pieces]
    split_ifs with h
    · rw [List.flatten_singleton]
    · exact (List.length_eq_zero_iff.mp (by omega)).symm
  | succ count ih => rw [pieces, List.flatten_cons, ih, List.take_append_drop]

/-- No piece is longer than the limit. -/
theorem length_le_of_mem_pieces {count : ℕ} {buf : List UInt8} (h : buf.length < (count + 1) * KCP_MAXPKT_LEN)
    {p : List UInt8} (hp : p ∈ pieces count buf) : p.length ≤ KCP_MAXPKT_LEN := by
  induction count generalizing buf with
  | zero =>
    rw [pieces] at hp
    split_ifs at hp
    · obtain rfl := List.mem_singleton.mp hp
      rw [Nat.zero_add, Nat.one_mul] at h
      exact Nat.le_of_lt h
    · cases hp
  | succ count ih =>
    rw [pieces] at hp
    rcases List.mem_cons.mp hp with rfl | hp
    · exact List.length_take_le _ _
    · refine ih ?_ hp
      rw [KCP_MAXPKT_LEN] at h ⊢
      rw [List.length_drop]
      omega

namespace Conn

variable {c peer : Conn}

theorem foldl_send (x y : End) (l : List (List UInt8)) :
    (l.map EndEvent.send).foldl (fun x ev => x.event y ev) x = l.foldl End.send x := by
  rw [List.foldl_map]
  rfl

/-- The control block goes through the events of the script. -/
theorem event_side (hwire : ∀ p ∈ peer.side.wire, p.data.length + 10 ≤ UDP_BUFFER) (ev : ConnEvent) :
    (c.event peer ev).side = (c.script peer ev).foldl (fun x ev => x.event peer.side ev) c.side := by
  cases ev with
  | stablySend buf => exact (foldl_send _ _ _).symm
  | kkSend buf => rfl
  | receive i rest ic =>
    rw [event, script]
    cases hp : peer.side.wire[i]? with
    | none =>
      rw [if_neg (Nat.not_lt.mpr (List.getElem?_eq_none_iff.mp hp))]
      rfl
    | some p =>
      have hlen := hwire p (List.mem_of_getElem? hp)
      have htake : (kkUdpOutput peer.relay p.data).take UDP_BUFFER = kkUdpOutput peer.relay p.data :=
        List.take_of_length_le ((length_kkUdpOutput_le _ _).trans hlen)
      dsimp only
      rw [if_pos (List.getElem?_eq_some_iff.mp hp).1, receive, htake, kcpData_kkUdpOutput _ hlen]
      simp only [List.foldl_cons, List.foldl_nil, End.event, hp]
      rfl
  | tick ic =>
    rw [event, script, tick]
    split_ifs <;> rfl

/-- The pieces that `StablySend` makes are all accepted. -/
theorem foldl_send_accepted {x : End} {l : List (List UInt8)} (hl : ∀ p ∈ l, p.length ≤ KCP_MAXPKT_LEN)
    (hstream : x.kcp.stream = 0) (hmss : 26 ≤ x.kcp.mss.toNat) :
    (l.foldl End.send x).accepted = x.accepted ++ l := by
  induction l generalizing x with
  | nil => exact (List.append_nil _).symm
  | cons p l ih =>
    have hset : (x.send p).kcp.settings = x.kcp.settings := congrArg View.settings (Ikcpcb.send_view p)
    have hfits : ¬Ikcpcb.fragmentCount x.kcp.mss.toNat p.length > 255 := by
      have hp : p.length ≤ 2000 := hl p List.mem_cons_self
      rw [Ikcpcb.fragmentCount, not_lt]
      split_ifs
      · decide
      · exact Nat.div_le_of_le_mul (by omega)
    have hret : (x.send p).accepted = x.accepted ++ [p] := by
      rw [End.send, Ikcpcb.send_result hstream, if_neg hfits, if_pos rfl]
    have hnext : (x.send p).kcp.mss = x.kcp.mss := congrArg Settings.mss hset
    rw [List.foldl_cons, ih (fun q hq => hl q (List.mem_cons_of_mem _ hq))
      ((congrArg Settings.stream hset).trans hstream) (hnext.symm ▸ hmss), hret, List.append_assoc]
    rfl

/-- What the application gave and was handed, in terms of the messages of the end. -/
structure Kept (c : Conn) : Prop where
  given : c.given = c.side.accepted.flatten
  packets : c.packets = c.side.returned.filter fun m => m.length > 0

theorem Kept.getRecKcpData (h : c.Kept) : c.getRecKcpData.Kept where
  given := h.given
  packets := by
    rw [Conn.getRecKcpData, End.recv]
    cases (c.side.kcp.recv MAXBUF).2 with
    | error code => exact h.packets
    | ok data =>
      have hlen : (0 : ℤ) ≤ MAXBUF := by decide
      dsimp only
      rw [if_pos hlen, List.filter_append, ← h.packets, List.filter_singleton]
      split_ifs with hdata <;> simp [hdata]

theorem Kept.update (h : c.Kept) (y : End) (ic : UInt32) : { c with side := c.side.update y ic }.Kept :=
  ⟨h.given, h.packets⟩

theorem Kept.event (h : c.Kept) (hstream : c.side.kcp.stream = 0) (hmss : 26 ≤ c.side.kcp.mss.toNat)
    (ev : ConnEvent) : (c.event peer ev).Kept := by
  cases ev with
  | stablySend buf =>
    have hpieces : ∀ p ∈ pieces (buf.length / KCP_MAXPKT_LEN) buf, p.length ≤ KCP_MAXPKT_LEN := fun p hp =>
      length_le_of_mem_pieces (by rw [KCP_MAXPKT_LEN]; omega) hp
    have hreturned : ∀ (l : List (List UInt8)) (x : End), (l.foldl End.send x).returned = x.returned := by
      intro l
      induction l with
      | nil => exact fun x => rfl
      | cons p l ih => exact fun x => ih (x.send p)
    refine ⟨?_, (h.packets).trans (by rw [Conn.event, stablySend, hreturned])⟩
    rw [Conn.event, stablySend, foldl_send_accepted hpieces hstream hmss, List.flatten_append, pieces_flatten,
      ← h.given]
  | kkSend buf =>
    refine ⟨?_, h.packets⟩
    have hfails : (-2 : ℤ) < 0 := by decide
    rw [Conn.event, kkSend, End.send, Ikcpcb.send_result hstream]
    by_cases hcount : Ikcpcb.fragmentCount c.side.kcp.mss.toNat buf.length > 255
    · rw [if_pos hcount, if_pos hfails, if_neg hfails.ne]
      exact h.given
    · rw [if_neg hcount, if_neg (lt_irrefl _), if_pos rfl, List.flatten_append, List.flatten_singleton, ← h.given]
  | receive i rest ic =>
    rw [Conn.event]
    cases peer.side.wire[i]? with
    | none => exact h
    | some p =>
      dsimp only
      rw [receive]
      cases kcpData ((kkUdpOutput peer.relay p.data).take UDP_BUFFER ++ rest)
          (.ofNat ((kkUdpOutput peer.relay p.data).take UDP_BUFFER).length) with
      | none => exact h
      | some buf => exact Kept.getRecKcpData ⟨h.given, h.packets⟩
  | tick ic =>
    rw [Conn.event, tick]
    split_ifs
    · exact (h.update _ _).getRecKcpData
    · exact h

end Conn

/-! ### Two nodes -/

abbrev ConnPair := Bool → Conn

def ConnPair.step (n : ConnPair) (a : Bool × ConnEvent) : ConnPair × Unit :=
  (Function.update n a.1 ((n a.1).event (n !a.1) a.2), ())

def ConnPair.Timely (n : ConnPair) (a : Bool × ConnEvent) : Prop := (n a.1).Timely (n !a.1) a.2

instance (n : ConnPair) (a : Bool × ConnEvent) : Decidable (n.Timely a) :=
  inferInstanceAs (Decidable (Conn.Timely _ _ _))

/-- What `CreateKcp` sets. -/
def kcpSettings (mtu : UInt16) : List Setting := [.nodelay 1 5 2 1, .mtu (.ofInt (mtu.toNat - 1)), .minrto 10]

theorem createKcp_eq (conv : UInt32) (mtu : UInt16) :
    Ikcpcb.createKcp conv mtu = configured conv (kcpSettings mtu) := by
  have hlt := mtu.toNat_lt
  have hmtu : (Int32.ofInt (mtu.toNat - 1)).toInt = mtu.toNat - 1 :=
    Int32.toInt_ofInt_of_le (by omega) (by omega)
  rw [configured, kcpSettings]
  simp only [List.foldl_cons, List.foldl_nil, Setting.apply, hmtu]
  rfl

theorem createKcp_rcvWnd (conv : UInt32) (mtu : UInt16) :
    (Ikcpcb.createKcp conv mtu).rcvWnd = IKCP_WND_RCV := by
  rw [Ikcpcb.createKcp, Ikcpcb.setmtu]
  split_ifs <;> rfl

/-- An MTU that is too small is not taken. -/
theorem createKcp_mtu (conv : UInt32) (mtu : UInt16) :
    (Ikcpcb.createKcp conv mtu).mtu.toNat = if mtu.toNat < 51 then 1400 else mtu.toNat - 1 := by
  have hlt := mtu.toNat_lt
  have hover : (IKCP_OVERHEAD : ℤ) = 24 := rfl
  rw [Ikcpcb.createKcp, Ikcpcb.setmtu]
  split_ifs with hsmall hle hle
  · rfl
  · omega
  · rw [not_or] at hsmall
    omega
  · dsimp only
    rw [Ikcpcb.toNat_ofInt_of_nonneg (by omega) (by omega)]
    omega

namespace ConnPair

/-- Two nodes when the handshake is over, each with the MTU that it has learnt. -/
def start (conv : UInt32) (mtu : Bool → UInt16) (relay : Bool → Option (UInt32 × UInt32)) : ConnPair :=
  fun e => { side := { kcp := Ikcpcb.createKcp conv (mtu e) }, relay := relay e }

variable {conv : UInt32} {mtu : Bool → UInt16} {relay : Bool → Option (UInt32 × UInt32)}

theorem start_side : (fun e => (start conv mtu relay e).side) =
    World.start conv fun e => kcpSettings (mtu e) := by
  funext e
  rw [World.start, ← createKcp_eq]
  rfl

/-- The control blocks came to their state by events of the conversation. -/
structure Ok (conv : UInt32) (mtu : Bool → UInt16) (n : ConnPair) : Prop where
  run : ∃ acts, Runs.Steps World.step World.Timely (World.start conv fun e => kcpSettings (mtu e)) acts ∧
    Runs.final World.step (World.start conv fun e => kcpSettings (mtu e)) acts = fun e => (n e).side
  kept : ∀ e, (n e).Kept

theorem wnd_le (e : Bool) : (configured conv (kcpSettings (mtu e))).rcvWnd.toNat ≤ 65535 := by
  rw [← createKcp_eq, createKcp_rcvWnd]
  decide

theorem Ok.world {n : ConnPair} (h : n.Ok conv mtu) :
    World.Ok conv (fun e => (configured conv (kcpSettings (mtu e))).settings) fun e => (n e).side := by
  obtain ⟨acts, hsteps, hfinal⟩ := h.run
  rw [← hfinal]
  exact World.run_ok wnd_le hsteps

theorem script_steps {n : ConnPair} {e : Bool} {ev : ConnEvent} (h : n.Timely (e, ev)) :
    Runs.Steps World.step World.Timely (fun e => (n e).side) (World.here e ((n e).script (n !e) ev)) := by
  cases ev with
  | stablySend buf =>
    refine World.steps_here _ fun ev hev i => ?_
    obtain ⟨p, -, rfl⟩ := List.mem_map.mp hev
    exact EndEvent.noConfusion
  | kkSend buf => exact World.steps_here [.send buf] (by simp)
  | receive i rest ic =>
    rw [Conn.script]
    split_ifs
    · exact ⟨h, World.steps_here [.update ic, .recv MAXBUF] (by simp)⟩
    · exact World.steps_here _ (by simp)
  | tick ic =>
    rw [Conn.script]
    split_ifs
    · exact World.steps_here _ (by simp)
    · exact World.steps_here _ (by simp)

theorem step_ok (hmtu : ∀ e, (mtu e).toNat ≤ 2039) {n : ConnPair} (h : n.Ok conv mtu) {a : Bool × ConnEvent}
    (htimely : n.Timely a) : (n.step a).1.Ok conv mtu := by
  obtain ⟨e, ev⟩ := a
  have hworld := h.world
  have hwire : ∀ p ∈ (n !e).side.wire, p.data.length + 10 ≤ UDP_BUFFER := fun p hp => by
    have hlen : p.data.length ≤ (configured conv (kcpSettings (mtu !e))).mtu.toNat := hworld.within (!e) p hp
    have hle := hmtu !e
    rw [← createKcp_eq, createKcp_mtu] at hlen
    show p.data.length + 10 ≤ 2048
    split_ifs at hlen <;> omega
  have hside := (n e).event_side hwire ev
  constructor
  · obtain ⟨acts, hsteps, hfinal⟩ := h.run
    refine ⟨acts ++ World.here e ((n e).script (n !e) ev), ?_, ?_⟩
    · rw [Runs.steps_append, hfinal]
      exact ⟨hsteps, script_steps htimely⟩
    · rw [Runs.final_append, hfinal, World.final_here, ← hside]
      funext e'
      exact (Function.apply_update (fun _ c => c.side) n e _ e').symm
  · intro e'
    rcases eq_or_ne e' e with rfl | hne
    · have hok := (hworld.view e').settings
      have hmss : (n e').side.kcp.mss.toNat + 24 = (n e').side.kcp.mtu.toNat := hok.mss
      have hmin : 50 ≤ (n e').side.kcp.mtu.toNat := hok.mtu.1
      have hself : (n.step (e', ev)).1 e' = (n e').event (n !e') ev := Function.update_self ..
      rw [hself]
      refine (h.kept e').event ?_ (by omega) ev
      exact (congrArg Settings.stream (hworld.settings e')).trans (Ikcpcb.fresh_configured conv _).stream
    · have hother : (n.step (e, ev)).1 e' = n e' := Function.update_of_ne hne ..
      rw [hother]
      exact h.kept e'

variable {acts : List (Bool × ConnEvent)}

theorem run_ok (hmtu : ∀ e, (mtu e).toNat ≤ 2039)
    (hrun : Runs.Steps step Timely (start conv mtu relay) acts) :
    (Runs.final step (start conv mtu relay) acts).Ok conv mtu :=
  hrun.invariant (P := fun n => n.Ok conv mtu) (fun _ _ hn htimely => step_ok hmtu hn htimely)
    ⟨⟨[], trivial, start_side.symm⟩, fun _ => ⟨rfl, rfl⟩⟩

/-- Nothing that a node puts together for the socket is longer than its buffer. -/
theorem staged_le (hmtu : ∀ e, (mtu e).toNat ≤ 2039)
    (hrun : Runs.Steps step Timely (start conv mtu relay) acts) (e : Bool) :
    ∀ p ∈ (Runs.final step (start conv mtu relay) acts e).side.wire,
      (kkUdpOutput (relay e) p.data).length ≤ UDP_BUFFER := by
  intro p hp
  have hlen : p.data.length ≤ (configured conv (kcpSettings (mtu e))).mtu.toNat :=
    (run_ok hmtu hrun).world.within e p hp
  have hle := hmtu e
  have hstaged := length_kkUdpOutput_le (relay e) p.data
  rw [← createKcp_eq, createKcp_mtu] at hlen
  show (kkUdpOutput (relay e) p.data).length ≤ 2048
  split_ifs at hlen <;> omega

theorem staged_le_relay :
    (kkUdpOutput (some (3, 4))
      [7, 0, 0, 0, 81, 0, 32, 0, 100, 0, 0, 0, 0, 0, 0, 0, 0, 0, 0, 0, 2, 0, 0, 0, 97, 98]).length ≤ UDP_BUFFER :=
  @staged_le 7 (fun _ => 2039) (fun _ => some (3, 4)) [(false, .stablySend [97, 98]), (false, .tick 100)]
    (by decide) (by decide) false
    ⟨[7, 0, 0, 0, 81, 0, 32, 0, 100, 0, 0, 0, 0, 0, 0, 0, 0, 0, 0, 0, 2, 0, 0, 0, 97, 98], 1, 0⟩ (by decide)

end ConnPair

end KkLicode.Kcp
