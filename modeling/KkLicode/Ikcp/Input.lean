import KkLicode.Ikcp.Flush

/-! What `ikcp_input` does with the bytes that arrive. A datagram that the other end
flushed is taken segment by segment, without an error; of other bytes every segment
up to the first error is taken. -/

namespace KkLicode.Ikcp

open Base Serial32

namespace Ikcpcb

variable {kcp : Ikcpcb} {seg : IkcpSeg} {segs : List IkcpSeg} {data : List UInt8}
  {maxack : Option UInt32}

/-- A segment of a flush: it fits on the wire, and is one of the conversation. -/
structure Sendable (conv : UInt32) (seg : IkcpSeg) : Prop extends seg.Fits where
  conv : seg.conv = conv
  known : knownCmd seg.cmd

/-! ### The rule of the loop -/

theorem inputAck_view (ts sn : UInt32) :
    (kcp.inputAck ts sn).view = { kcp.view with send := (kcp.inputAck ts sn).sendSide } := by
  unfold inputAck
  dsimp only
  rw [parseAck_shrinkBuf_view]
  split_ifs
  · rw [updateAck_view]
  · rfl

theorem inputPush_view : (kcp.inputPush seg).view =
    { kcp.view with acks := (kcp.inputPush seg).acklist, receive := (kcp.inputPush seg).receiveSide } := by
  unfold inputPush
  dsimp only
  split_ifs
  · rw [parseData_view]
    have hacks : ((kcp.ackPush seg.sn seg.ts).parseData seg).acklist =
        (kcp.ackPush seg.sn seg.ts).acklist := congrArg View.acks parseData_view
    rw [hacks]
    rfl
  · rfl
  · rfl

theorem inputSeg_settings (seg : IkcpSeg) : (kcp.inputSeg seg).settings = kcp.settings := by
  unfold inputSeg
  dsimp only
  split_ifs
  · exact congrArg View.settings (inputAck_view _ _)
  · exact congrArg View.settings inputPush_view
  · rfl
  · rfl

/-- What every segment keeps, the loop keeps, whatever the bytes are. -/
theorem inputLoop_rule {P : Ikcpcb → Prop}
    (hstep : ∀ k b, P k → P (k.inputSeg (IkcpSeg.decode b))) (turns : ℕ) (data : List UInt8)
    (maxack : Option UInt32) (h : P kcp) :
    P (inputLoop turns kcp data maxack).1 := by
  induction turns generalizing kcp data maxack with
  | zero => exact h
  | succ turns ih =>
    rw [inputLoop]
    dsimp only
    split_ifs
    · exact h
    · exact h
    · exact h
    · exact ih _ _ (hstep _ _ h)
    · exact h

/-- A row of segments is taken one by one. -/
theorem inputLoop_row {turns : ℕ} (hturns : (row segs).length ≤ turns)
    (h : ∀ seg ∈ segs, Sendable kcp.conv seg) :
    inputLoop turns kcp (row segs) maxack =
      (segs.foldl (fun k seg => k.inputSeg seg.wire) kcp,
        segs.foldl (fun m seg => newestAck m seg.wire) maxack, 0) := by
  induction segs generalizing turns kcp maxack with
  | nil =>
    cases turns with
    | zero => rfl
    | succ turns =>
      rw [inputLoop, row_nil, if_pos (by decide)]
      rfl
  | cons seg segs ih =>
    have hseg := h seg List.mem_cons_self
    have hrow : row (seg :: segs) = seg.bytes ++ row segs := List.flatMap_cons
    have hlen : (row (seg :: segs)).length = IKCP_OVERHEAD + seg.data.length + (row segs).length := by
      rw [hrow, List.length_append, IkcpSeg.length_bytes]
    have hread : LittleEndian.read (row (seg :: segs)) 20 4 = seg.data.length := by
      rw [hrow, IkcpSeg.bytes, List.append_assoc]
      exact (IkcpSeg.read_encodeSeg _).2.2.2.2.2.2.2.trans (Nat.mod_eq_of_lt hseg.len)
    have hdecode : IkcpSeg.decode (row (seg :: segs)) = seg.wire := by
      rw [hrow, IkcpSeg.decode_bytes hseg.toFits]
    have hdrop : (row (seg :: segs)).drop (IKCP_OVERHEAD + seg.data.length) = row segs := by
      rw [hrow, List.drop_left' seg.length_bytes]
    have hover : 0 < IKCP_OVERHEAD := by decide
    have hconv : ¬seg.wire.conv ≠ kcp.conv := not_not.mpr hseg.conv
    have hknown : ¬¬knownCmd seg.wire.cmd := not_not.mpr hseg.known
    obtain ⟨turns, rfl⟩ := Nat.exists_eq_succ_of_ne_zero (show turns ≠ 0 by omega)
    rw [inputLoop]
    dsimp only
    rw [hread, hdecode, hdrop, if_neg (by omega), if_neg hconv, if_neg (by omega), if_neg hknown]
    have hnext : (kcp.inputSeg seg.wire).conv = kcp.conv :=
      congrArg Settings.conv (inputSeg_settings seg.wire)
    exact ih (by omega) fun t ht => hnext ▸ h t (List.mem_cons_of_mem _ ht)

/-! ### A whole datagram -/

/-- What `ikcp_input` does behind the loop does not show in the view. -/
theorem input_view {k : Ikcpcb} (hlen : ¬data.length < IKCP_OVERHEAD)
    (hloop : inputLoop data.length kcp data none = (k, maxack, 0)) :
    (kcp.input data).1.view = k.view ∧ (kcp.input data).2 = 0 := by
  rw [input, if_neg hlen, hloop]
  dsimp only
  rw [if_neg (not_not.mpr rfl)]
  refine ⟨?_, rfl⟩
  split_ifs
  · exact openWindow_view.trans parseMaxack_view
  · exact parseMaxack_view

theorem length_row (hne : segs ≠ []) : ¬(row segs).length < IKCP_OVERHEAD := by
  cases segs with
  | nil => exact absurd rfl hne
  | cons seg segs =>
    rw [row, List.flatMap_cons, List.length_append, IkcpSeg.length_bytes]
    omega

/-- A datagram of the conversation is taken segment by segment. -/
theorem input_row (hne : segs ≠ []) (h : ∀ seg ∈ segs, Sendable kcp.conv seg) :
    (kcp.input (row segs)).1.view = (segs.foldl (fun k seg => k.inputSeg seg.wire) kcp).view ∧
      (kcp.input (row segs)).2 = 0 :=
  input_view (length_row hne) (inputLoop_row (Nat.le_refl _) h)

/-- A datagram of another conversation is not taken. -/
theorem input_other {conv : UInt32} (hne : segs ≠ []) (h : ∀ seg ∈ segs, Sendable conv seg)
    (hconv : kcp.conv ≠ conv) : kcp.input (row segs) = (kcp, -1) := by
  cases segs with
  | nil => exact absurd rfl hne
  | cons seg segs =>
    have hseg := h seg List.mem_cons_self
    have hlen := length_row hne
    have hdecode : (IkcpSeg.decode (row (seg :: segs))).conv = conv := by
      rw [row, List.flatMap_cons, IkcpSeg.decode_bytes hseg.toFits]
      exact hseg.conv
    obtain ⟨turns, hturns⟩ := Nat.exists_eq_succ_of_ne_zero (n := (row (seg :: segs)).length)
      fun hzero => hlen (hzero ▸ by decide)
    rw [input, if_neg hlen, hturns, inputLoop, if_neg hlen]
    dsimp only
    rw [if_pos (hdecode.trans_ne hconv.symm)]
    rfl

end Ikcpcb

end KkLicode.Ikcp
