import Mathlib.Logic.Function.Basic
import KkLicode.Ikcp.Direction

/-! Two control blocks and the network between them, which may lose, repeat and
reorder datagrams. In every run in which nothing is delivered too late, both
directions are transfers. -/

namespace KkLicode.Ikcp

open Base SelectiveRepeat Ikcpcb

abbrev World := Bool → End

def World.step (w : World) (a : Bool × EndEvent) : World × Unit :=
  (Function.update w a.1 ((w a.1).event (w !a.1) a.2), ())

def World.Timely (w : World) (a : Bool × EndEvent) : Prop := (w a.1).Timely (w !a.1) a.2

instance (w : World) (a : Bool × EndEvent) : Decidable (w.Timely a) :=
  inferInstanceAs (Decidable (End.Timely _ _ _))

/-- Two ends that were set up for one conversation. -/
def World.start (conv : UInt32) (l : Bool → List Setting) : World := fun e => { kcp := configured conv (l e) }

namespace World

/-! ### Events at one end -/

/-- Events that follow each other at one end, while the other end rests. -/
def here (e : Bool) (evs : List EndEvent) : List (Bool × EndEvent) := evs.map fun ev => (e, ev)

theorem final_here (w : World) (e : Bool) (evs : List EndEvent) :
    Runs.final step w (here e evs) =
      Function.update w e (evs.foldl (fun x ev => x.event (w !e) ev) (w e)) := by
  induction evs generalizing w with
  | nil => exact (Function.update_eq_self e w).symm
  | cons ev evs ih =>
    have hself : (w.step (e, ev)).1 e = (w e).event (w !e) ev := Function.update_self ..
    have hother : (w.step (e, ev)).1 (!e) = w !e := Function.update_of_ne (Bool.not_ne_self e) ..
    rw [here, List.map_cons, Runs.final_cons]
    refine (ih _).trans ?_
    rw [hself, hother, step, Function.update_idem, List.foldl_cons]

/-- Only a delivery can be too late. -/
theorem steps_here {w : World} {e : Bool} (evs : List EndEvent) (h : ∀ ev ∈ evs, ∀ i, ev ≠ .deliver i) :
    Runs.Steps step Timely w (here e evs) := by
  induction evs generalizing w with
  | nil => trivial
  | cons ev evs ih =>
    refine ⟨?_, ih fun ev' hev' => h ev' (List.mem_cons_of_mem _ hev')⟩
    cases ev with
    | deliver i => exact absurd rfl (h _ List.mem_cons_self i)
    | send buffer => trivial
    | recv len => trivial
    | update current => trivial

/-! ### Both directions -/

/-- The ends have their settings, and both directions are transfers. -/
structure Ok (conv : UInt32) (c : Bool → Settings) (w : World) : Prop where
  view : ∀ e, (w e).kcp.view.Ok
  settings : ∀ e, (w e).kcp.settings = c e
  within : ∀ e, ∀ p ∈ (w e).wire, p.data.length ≤ (c e).mtu.toNat
  dirs : ∀ e, ∃ t, Dir conv (c e).mss.toNat (c !e).rcvWnd.toNat (w e) (w !e) t

section Step

variable {conv : UInt32} {c : Bool → Settings} {w : World}
  (hc : ∀ e, (c e).conv = conv ∧ (c e).stream = 0) (h : w.Ok conv c)

include hc h

theorem event_sender {e : Bool} {ev : EndEvent} (htimely : (w e).Timely (w !e) ev) :
    ∃ t, Dir conv (c e).mss.toNat (c !e).rcvWnd.toNat ((w e).event (w !e) ev) (w !e) t := by
  obtain ⟨t, hdir⟩ := h.dirs e
  have hok := h.view e
  have hset := h.settings e
  have hconv : (w e).kcp.conv = conv := (congrArg Settings.conv hset).trans (hc e).1
  have hwnd : (c !e).rcvWnd.toNat ≤ 65535 := h.settings (!e) ▸ (h.view !e).settings.rcvWnd
  cases ev with
  | send buffer =>
    exact hdir.send_sender hok ((congrArg Settings.stream hset).trans (hc e).2)
      (congrArg (fun s : Settings => s.mss.toNat) hset) buffer
  | recv len => exact hdir.recv_sender len
  | update current => exact hdir.update_sender hok hconv hwnd current
  | deliver i =>
    rw [End.event]
    cases hp : (w !e).wire[i]? with
    | none => exact ⟨t, hdir⟩
    | some p => exact hdir.input_sender hok hconv hwnd (List.mem_of_getElem? hp) (htimely p hp).2

theorem event_receiver {e : Bool} {ev : EndEvent} (htimely : (w e).Timely (w !e) ev) :
    ∃ t, Dir conv (c !e).mss.toNat (c e).rcvWnd.toNat (w !e) ((w e).event (w !e) ev) t := by
  obtain ⟨t, hdir⟩ := h.dirs !e
  rw [Bool.not_not] at hdir
  have hok := h.view e
  have hconv : (w e).kcp.conv = conv := (congrArg Settings.conv (h.settings e)).trans (hc e).1
  have hwnd : (c e).rcvWnd.toNat ≤ 65535 := h.settings e ▸ hok.settings.rcvWnd
  have hmss : 0 < (c !e).mss.toNat := by
    have hset := (h.view !e).settings
    have hsum : (w !e).kcp.settings.mss.toNat + 24 = (w !e).kcp.settings.mtu.toNat := hset.mss
    have hmtu : 50 ≤ (w !e).kcp.settings.mtu.toNat := hset.mtu.1
    rw [h.settings] at hsum hmtu
    omega
  cases ev with
  | send buffer => exact hdir.send_receiver buffer
  | recv len => exact hdir.recv_receiver hok hmss len
  | update current => exact hdir.update_receiver hok hconv current
  | deliver i =>
    rw [End.event]
    cases hp : (w !e).wire[i]? with
    | none => exact ⟨t, hdir⟩
    | some p => exact hdir.input_receiver hok hconv hwnd (List.mem_of_getElem? hp) (htimely p hp).1

omit hc in
theorem event_within {e : Bool} {ev : EndEvent} :
    ∀ p ∈ ((w e).event (w !e) ev).wire, p.data.length ≤ (c e).mtu.toNat := by
  cases ev with
  | send buffer => exact h.within e
  | recv len => exact h.within e
  | update current =>
    intro p hp
    rcases List.mem_append.mp hp with hp | hp
    · exact h.within e p hp
    · obtain ⟨d, hd, rfl⟩ := List.mem_map.mp hp
      have hlen := (call_datagram (h.view e) (c := .update current) hd).1
      rwa [show (w e).kcp.mtu = _ from congrArg Settings.mtu (h.settings e)] at hlen
  | deliver i =>
    rw [End.event]
    cases (w !e).wire[i]? with
    | none => exact h.within e
    | some p => exact h.within e

theorem step_ok {a : Bool × EndEvent} (htimely : w.Timely a) : (w.step a).1.Ok conv c := by
  obtain ⟨e, ev⟩ := a
  have hself : (w.step (e, ev)).1 e = (w e).event (w !e) ev := Function.update_self ..
  have hother : (w.step (e, ev)).1 (!e) = w !e := Function.update_of_ne (Bool.not_ne_self e) ..
  -- one end is the one that takes the step, the other one is its peer
  have hends : ∀ {P : Bool → Prop}, P e → P (!e) → ∀ e', P e' := fun {P} h1 h2 e' => by
    rcases Bool.eq_or_eq_not e' e with rfl | rfl
    · exact h1
    · exact h2
  refine ⟨hends ?_ ?_, hends ?_ ?_, hends ?_ ?_, hends ?_ ?_⟩
  · rw [hself]
    rcases End.event_kcp (w e) (w !e) ev with heq | ⟨call, heq⟩
    · rw [heq]
      exact h.view e
    · rw [heq]
      exact call_ok (h.view e) call
  · rw [hother]
    exact h.view !e
  · rw [hself]
    rcases End.event_kcp (w e) (w !e) ev with heq | ⟨call, heq⟩
    · rw [heq]
      exact h.settings e
    · rw [heq, call_settings]
      exact h.settings e
  · rw [hother]
    exact h.settings !e
  · rw [hself]
    exact event_within h
  · rw [hother]
    exact h.within !e
  · rw [hself, hother]
    exact event_sender hc h htimely
  · rw [Bool.not_not, hself, hother]
    exact event_receiver hc h htimely

end Step

/-! ### Runs -/

variable {conv : UInt32} {l : Bool → List Setting} {acts : List (Bool × EndEvent)}

theorem start_ok (hwnd : ∀ e, (configured conv (l e)).rcvWnd.toNat ≤ 65535) : (start conv l).Ok conv fun e => (configured conv (l e)).settings := by
  refine ⟨fun e => (fresh_configured conv (l e)).ok (hwnd e), fun e => rfl,
    fun e p hp => absurd hp List.not_mem_nil, fun e => ⟨⟨[], ∅, 0, ∅, 0⟩, ?_⟩⟩
  have hs := (fresh_configured conv (l e)).send
  have hr := (fresh_configured conv (l !e)).receive
  have hacks := (fresh_configured conv (l !e)).acks
  refine ⟨Transfer.inv_empty, rfl, ?_, ⟨?_, ?_⟩, ?_, ?_, List.prefix_refl _, ?_, ?_⟩
  · show (configured conv (l e)).sendSide.Sends _ _
    rw [hs]
    refine ⟨rfl, by simp, ?_, rfl⟩
    ext p
    simp [SendSide.held]
  · show (configured conv (l !e)).receiveSide.Receives _ _ _
    rw [hr]
    refine ⟨rfl, rfl, ?_, rfl⟩
    ext p
    simp [ReceiveSide.early]
  · show ∀ a ∈ (configured conv (l !e)).acklist, _
    rw [hacks]
    simp
  · exact fun p hp => absurd hp List.not_mem_nil
  · exact fun p hp => absurd hp List.not_mem_nil
  · exact fun m hm => absurd hm List.not_mem_nil
  · exact fun m hm => absurd hm List.not_mem_nil

theorem run_ok (hwnd : ∀ e, (configured conv (l e)).rcvWnd.toNat ≤ 65535)
    (hrun : Runs.Steps step Timely (start conv l) acts) :
    (Runs.final step (start conv l) acts).Ok conv fun e => (configured conv (l e)).settings :=
  hrun.invariant (P := fun w => Ok conv _ w)
    (fun _ _ hw htimely => step_ok
      (fun e => ⟨(fresh_configured conv (l e)).conv, (fresh_configured conv (l e)).stream⟩) hw htimely)
    (start_ok hwnd)

/-- Whatever the network loses, repeats or reorders, the messages that an end returns are those that
the other end accepted, in order and without a gap. -/
theorem returned_in_order (hwnd : ∀ e, (configured conv (l e)).rcvWnd.toNat ≤ 65535)
    (hrun : Runs.Steps step Timely (start conv l) acts) (e : Bool) :
    (Runs.final step (start conv l) acts (!e)).returned <+: (Runs.final step (start conv l) acts e).accepted := by
  obtain ⟨t, hdir⟩ := (run_ok hwnd hrun).dirs e
  exact hdir.messages

/-- Two messages are sent in one datagram, which is delivered twice. -/
theorem returned_in_order_twice :
    (Runs.final step (start 7 fun _ => [.nodelay 1 5 2 1, .mtu 1435, .minrto 10])
      [(false, .send [97, 98]), (false, .send [99]), (false, .update 100), (true, .deliver 0),
        (true, .deliver 0), (true, .recv 9), (true, .update 100), (false, .deliver 0)] true).returned <+:
    (Runs.final step (start 7 fun _ => [.nodelay 1 5 2 1, .mtu 1435, .minrto 10])
      [(false, .send [97, 98]), (false, .send [99]), (false, .update 100), (true, .deliver 0),
        (true, .deliver 0), (true, .recv 9), (true, .update 100), (false, .deliver 0)] false).accepted :=
  returned_in_order (by decide) (by decide) false

/-- No fragment of an accepted message is lost on the way: in order, they were returned, wait for the
application of the other end, have a number, or wait for one; and each with a number is in the
`snd_buf` of its end or in the `rcv_buf` of the other end. -/
theorem nothing_lost (hwnd : ∀ e, (configured conv (l e)).rcvWnd.toNat ≤ 65535)
    (hrun : Runs.Steps step Timely (start conv l) acts) (e : Bool) :
    let s := Runs.final step (start conv l) acts e
    let r := Runs.final step (start conv l) acts !e
    ∃ (rest : List (List UInt8)) (numbered : List Content), s.accepted = r.returned ++ rest ∧
      rest.flatMap (cut s.kcp.mss.toNat) =
        r.kcp.rcvQueue.map (·.content) ++ (numbered ++ s.kcp.sndQueue.map (·.content)) ∧
      ∀ j a, numbered[j]? = some a →
        (∃ seg ∈ s.kcp.sndBuf, seg.sn = r.kcp.rcvNxt + .ofNat j ∧ seg.content = a) ∨
          ∃ seg ∈ r.kcp.rcvBuf, seg.sn = r.kcp.rcvNxt + .ofNat j ∧ seg.content = a := by
  have hok := run_ok hwnd hrun
  obtain ⟨t, hdir⟩ := hok.dirs e
  obtain ⟨rest, hacc, hqueue⟩ := hdir.pending
  refine ⟨rest, t.sent.drop t.taken, hacc, ?_, fun j a ha => hdir.untaken ha⟩
  rw [show (Runs.final step (start conv l) acts e).kcp.mss = _ from congrArg Settings.mss (hok.settings e)]
  exact hqueue.symm

/-- Of a message of two fragments the second one is lost. -/
theorem nothing_lost_half :
    ∃ (rest : List (List UInt8)) (numbered : List Content), [List.replicate 30 9] = [] ++ rest ∧
      rest.flatMap (cut 26) = [(1, List.replicate 26 9)] ++ (numbered ++ []) := by
  obtain ⟨rest, numbered, hacc, hqueue, -⟩ := @nothing_lost 7 (fun _ => [.nodelay 1 5 2 1, .mtu 50])
    [(false, .send (List.replicate 30 9)), (false, .update 100), (true, .deliver 0)] (by decide) (by decide) false
  exact ⟨rest, numbered, hacc, hqueue⟩

/-- When `ikcp_waitsnd` says that nothing waits, every accepted message was returned or waits at the
other end with all its fragments. -/
theorem all_arrived (hwnd : ∀ e, (configured conv (l e)).rcvWnd.toNat ≤ 65535)
    (hrun : Runs.Steps step Timely (start conv l) acts) (e : Bool) :
    let s := Runs.final step (start conv l) acts e
    let r := Runs.final step (start conv l) acts !e
    s.kcp.waitsnd = 0 → s.kcp.sndQueue.length < 2 ^ 31 →
      ∃ rest : List (List UInt8), s.accepted = r.returned ++ rest ∧
        rest.flatMap (cut s.kcp.mss.toNat) = (r.kcp.rcvQueue ++ r.kcp.rcvBuf).map (·.content) := by
  intro s r hwait hlen
  have hok := run_ok hwnd hrun
  obtain ⟨t, hdir⟩ := hok.dirs e
  have hcount : s.kcp.Counted := counted_of_ok (hok.view e)
  have hbuf : s.kcp.sndBuf.length ≤ 65535 := length_sndBuf (hok.view e)
  have hsum := congrArg UInt32.toNat hwait
  rw [waitsnd, UInt32.toNat_add, hcount.nsndBuf, hcount.nsndQue, UInt32.toNat_ofNat', UInt32.toNat_zero] at hsum
  have hsndBuf : s.kcp.sndBuf = [] := List.length_eq_zero_iff.mp (by omega)
  have hsndQueue : s.kcp.sndQueue = [] := List.length_eq_zero_iff.mp (by omega)
  obtain ⟨rest, hacc, hqueue⟩ := hdir.pending
  refine ⟨rest, hacc, ?_⟩
  rw [show s.kcp.mss = _ from congrArg Settings.mss (hok.settings e), List.map_append,
    hdir.rcvBuf_eq (hok.view !e) hsndBuf]
  rw [show (Runs.final step (start conv l) acts e).kcp.sndQueue = [] from hsndQueue, List.map_nil,
    List.append_nil] at hqueue
  exact hqueue.symm

/-- Both messages were acknowledged, and one was returned. -/
theorem all_arrived_one :
    ∃ rest : List (List UInt8), [[97, 98], [99]] = [[97, 98]] ++ rest ∧ rest.flatMap (cut 1410) = [(0, [99])] :=
  @all_arrived 7 (fun _ => [.nodelay 1 5 2 1, .mtu 1434])
    [(false, .send [97, 98]), (false, .send [99]), (false, .update 100), (true, .deliver 0),
      (true, .recv 9), (true, .update 100), (false, .deliver 0)] (by decide) (by decide) false
    (by decide) (by decide)

/-- A message that has more fragments than the window of the other end blocks the conversation: no
message from it on is ever returned. -/
theorem blocked (hwnd : ∀ e, (configured conv (l e)).rcvWnd.toNat ≤ 65535)
    (hrun : Runs.Steps step Timely (start conv l) acts) (e : Bool)
    {before after : List (List UInt8)} {m : List UInt8}
    (hacc : (Runs.final step (start conv l) acts e).accepted = before ++ m :: after)
    (hlarge : (configured conv (l !e)).rcvWnd.toNat <
      fragmentCount (configured conv (l e)).mss.toNat m.length) :
    (Runs.final step (start conv l) acts !e).returned <+: before := by
  obtain ⟨t, hdir⟩ := (run_ok hwnd hrun).dirs e
  have horder := hdir.messages
  rw [hacc] at horder
  rcases Nat.lt_or_ge before.length (Runs.final step (start conv l) acts !e).returned.length with hlt | hle
  · -- the large message would be one of those that were returned
    have hget := horder.getElem hlt
    rw [List.getElem_append_right (Nat.le_refl _)] at hget
    simp only [Nat.sub_self, List.getElem_cons_zero] at hget
    exact absurd (hdir.fit m (hget ▸ List.getElem_mem hlt)) (Nat.not_le_of_lt hlarge)
  · exact List.prefix_of_prefix_length_le horder (List.prefix_append _ _) hle

/-- The second message has two fragments, and the window is one segment. -/
theorem blocked_second :
    (Runs.final step (start 7 fun _ => [.mtu 50, .wndsize 1 1])
      [(false, .send [1]), (false, .send (List.replicate 27 0)), (false, .send [2])] true).returned <+: [[1]] :=
  @blocked 7 (fun _ => [.mtu 50, .wndsize 1 1])
    [(false, .send [1]), (false, .send (List.replicate 27 0)), (false, .send [2])] (by decide) (by decide) false
    [[1]] [[2]] (List.replicate 27 0) (by decide) (by decide)

end World

end KkLicode.Ikcp
