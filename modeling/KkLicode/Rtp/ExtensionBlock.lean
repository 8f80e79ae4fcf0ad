import KkLicode.Rtp.RtpExtensionProcessor
import Mathlib.Tactic.Push

/-! Which blocks the walk of `RtpExtensionProcessor` follows. A byte of padding is
a byte of the packet like any other: the walk takes it for an element of one byte
and steps over two. So an even run of padding brings it to the next element, and
an odd one behind the first byte of it. -/

namespace KkLicode.Rtp

open Base.BigEndian RtpExtensionProcessor

/-- An element of a block with one-byte headers. -/
structure Element where
  id : BitVec 4
  /-- One less than the number of data bytes. -/
  length : BitVec 4
  data : List UInt8
  length_data : data.length = length.toNat + 1
  id_ne_zero : id ≠ 0
  id_ne_reserved : id ≠ 15

namespace Element

def extByte (e : Element) : UInt8 := .ofBitVec (e.id ++ e.length)

def bytes (e : Element) : List UInt8 := e.extByte :: e.data

/-- The map has an entry for the element, and an element for the sending time has room for it. -/
def Handled (extMap : ExtensionMap) (e : Element) : Prop :=
  e.id.toNat < 10 ∧ (extMap[e.id.toNat]? = some .ABS_SEND_TIME → 3 ≤ e.data.length)

theorem extByte_fields : ∀ id length : BitVec 4,
    (UInt8.ofBitVec (id ++ length) >>> 4).toNat = id.toNat ∧
      (UInt8.ofBitVec (id ++ length) &&& 0x0F).toNat = length.toNat := by
  decide

theorem toNat_extId (e : Element) : (e.extByte >>> 4).toNat = e.id.toNat :=
  (extByte_fields e.id e.length).1

theorem toNat_extLength (e : Element) : (e.extByte &&& 0x0F).toNat = e.length.toNat :=
  (extByte_fields e.id e.length).2

theorem extId_ne_zero (e : Element) : e.extByte >>> 4 ≠ 0 := by
  intro h
  refine e.id_ne_zero (BitVec.eq_of_toNat_eq ?_)
  rw [← e.toNat_extId, h]
  rfl

theorem length_bytes (e : Element) : e.bytes.length = e.length.toNat + 2 := by
  rw [bytes, List.length_cons, e.length_data]

end Element

/-- What the bytes of a packet are, one piece after the other. -/
inductive Piece where
  | byte (b : UInt8)
  | element (e : Element)

def Piece.bytes : Piece → List UInt8
  | .byte b => [b]
  | .element e => e.bytes

/-- The places of the elements of the pieces that begin at `pos`. -/
def elementPlaces : ℕ → List Piece → List ℕ
  | _, [] => []
  | pos, .byte _ :: ps => elementPlaces (pos + 1) ps
  | pos, .element e :: ps => pos :: elementPlaces (pos + e.bytes.length) ps

/-- The places of the data bytes, three for each element at most, that are mapped to the sending
time. -/
def sendTimePlaces (extMap : ExtensionMap) : ℕ → List Piece → List ℕ
  | _, [] => []
  | pos, .byte _ :: ps => sendTimePlaces extMap (pos + 1) ps
  | pos, .element e :: ps =>
    (if extMap[e.id.toNat]? = some .ABS_SEND_TIME then List.range' (pos + 1) (min 3 e.data.length)
      else []) ++ sendTimePlaces extMap (pos + e.bytes.length) ps

/-- No piece is an element. -/
def Plain (ps : List Piece) : Prop := ∀ e, .element e ∉ ps

/-- The pieces that begin at `pos` let the walk, which goes on at `next` and ends at `stop`, find
the elements among them and nothing else. Where it steps on a byte, the byte is to have the upper
half of padding, and the lower half says how far the walk goes from there. -/
def Readable (extMap : ExtensionMap) (stop : ℕ) : ℕ → ℕ → List Piece → Prop
  | next, _, [] => stop ≤ next + 1
  | next, pos, .byte b :: ps =>
    if next = pos ∧ pos + 1 < stop then
      b >>> 4 = 0 ∧ Readable extMap stop (pos + (b &&& 0x0F).toNat + 2) (pos + 1) ps
    else Readable extMap stop next (pos + 1) ps
  | next, pos, .element e :: ps =>
    next = pos ∧ pos + 1 < stop ∧ e.Handled extMap ∧
      Readable extMap stop (pos + e.bytes.length) (pos + e.bytes.length) ps

variable {now : ℕ → ℕ} {extMap : ExtensionMap} {totalExtLength : UInt16} {w w' : Walk}
  {fuel next pos stop i : ℕ} {currentPlace : UInt16} {ps qs : List Piece} {pre : List UInt8}
  {e : Element} {b : UInt8}

theorem le_of_mem_elementPlaces (h : i ∈ elementPlaces pos ps) : pos ≤ i := by
  induction ps generalizing pos with
  | nil => simp [elementPlaces] at h
  | cons p ps ih =>
    cases p with
    | byte b => exact Nat.le_of_succ_le (ih h)
    | element e =>
      cases List.mem_cons.mp h with
      | inl h => exact h.ge
      | inr h => exact (Nat.le_add_right _ _).trans (ih h)

theorem lt_of_mem_sendTimePlaces (h : i ∈ sendTimePlaces extMap pos ps) : pos < i := by
  induction ps generalizing pos with
  | nil => simp [sendTimePlaces] at h
  | cons p ps ih =>
    cases p with
    | byte b => exact Nat.lt_of_succ_lt (ih h)
    | element e =>
      cases List.mem_append.mp h with
      | inl h =>
        split_ifs at h with hmap
        · exact (List.mem_range'_1.mp h).1
        · simp at h
      | inr h => exact (Nat.le_add_right _ _).trans_lt (ih h)

theorem elementPlaces_append :
    elementPlaces pos (ps ++ qs) =
      elementPlaces pos ps ++ elementPlaces (pos + (ps.flatMap Piece.bytes).length) qs := by
  induction ps generalizing pos with
  | nil => simp [elementPlaces]
  | cons p ps ih =>
    cases p with
    | byte b => simp [elementPlaces, ih, Piece.bytes, Nat.add_assoc, Nat.add_comm 1]
    | element e => simp [elementPlaces, ih, Piece.bytes, Nat.add_assoc]

theorem elementPlaces_eq_nil : elementPlaces pos ps = [] ↔ Plain ps := by
  induction ps generalizing pos with
  | nil => simp [elementPlaces, Plain]
  | cons p ps ih =>
    cases p with
    | byte b => simpa [elementPlaces, Plain] using ih
    | element e => simp only [elementPlaces, reduceCtorEq, false_iff]; exact fun h => h e (by simp)

/-- A walk that has ended finds nothing more. -/
theorem readable_of_stopped (h : stop ≤ next + 1) : Readable extMap stop next pos ps ↔ Plain ps := by
  induction ps generalizing pos with
  | nil => simp [Readable, Plain, h]
  | cons p ps ih =>
    cases p with
    | byte b =>
      have hneg : ¬ (next = pos ∧ pos + 1 < stop) := by omega
      rw [Readable, if_neg hneg, ih]
      simp [Plain]
    | element e =>
      have hneg : ¬ Plain (.element e :: ps) := fun hplain => hplain e (by simp)
      simp only [Readable, hneg, iff_false]
      omega

/-- One walk goes on to the next by finding the elements of the pieces and writing into those
mapped to the sending time alone. -/
structure Walked (extMap : ExtensionMap) (pos : ℕ) (ps : List Piece) (w w' : Walk) : Prop where
  visited : w'.visited = w.visited ++ elementPlaces pos ps
  written : ∃ added, w'.written = w.written ++ added ∧ ∀ i ∈ added, i ∈ sendTimePlaces extMap pos ps

theorem walked_refl_iff : Walked extMap pos ps w w ↔ Plain ps := by
  rw [← @elementPlaces_eq_nil pos]
  constructor
  · exact fun h => by simpa using h.visited
  · exact fun h => ⟨by simp [h], [], by simp⟩

/-- A walk that goes on behind an element does not find it. -/
theorem not_walked_of_onward (h : Onward next w w') (hlt : pos < next) :
    ¬ Walked extMap pos (.element e :: ps) w w' := by
  intro hwalked
  obtain ⟨found, hvisited, hfound⟩ := h.visited
  have heq : found = elementPlaces pos (.element e :: ps) :=
    List.append_cancel_left (hvisited.symm.trans hwalked.visited)
  have hmem : pos ∈ found := by simp [heq, elementPlaces]
  exact absurd (hfound pos hmem) (by omega)

/-- A place that is no element's is not to be found. -/
theorem not_walked_of_visited {w₁ : Walk} (h : Onward next w₁ w')
    (hw₁ : w₁.visited = w.visited ++ [pos]) : ¬ Walked extMap pos (.byte b :: ps) w w' := by
  intro hwalked
  obtain ⟨found, hvisited, -⟩ := h.visited
  rw [hw₁, List.append_assoc] at hvisited
  have heq : [pos] ++ found = elementPlaces (pos + 1) ps :=
    List.append_cancel_left (hvisited.symm.trans hwalked.visited)
  have hmem : pos ∈ elementPlaces (pos + 1) ps := by simp [← heq]
  exact absurd (le_of_mem_elementPlaces hmem) (by omega)

/-! ### One step of the loop -/

theorem extensionLoop_of_stopped (h : totalExtLength.toNat * 4 ≤ currentPlace.toNat) :
    extensionLoop now extMap totalExtLength fuel w next currentPlace = some w := by
  cases fuel with
  | zero => rfl
  | succ fuel => rw [extensionLoop, if_neg (by omega)]

theorem extensionLoop_succ (h : currentPlace.toNat < totalExtLength.toNat * 4)
    (hget : w.data[next]? = some b) :
    extensionLoop now extMap totalExtLength (fuel + 1) w next currentPlace =
      (processElement now extMap w next (b >>> 4)).bind fun w =>
        extensionLoop now extMap totalExtLength fuel w (next + (b &&& 0x0F).toNat + 2)
          (currentPlace + (b &&& 0x0F).toUInt16 + 2) := by
  rw [extensionLoop, if_pos h, hget]
  rfl

/-- Behind the buffer nothing can be read. -/
theorem extensionLoop_behind (h : currentPlace.toNat < totalExtLength.toNat * 4)
    (hlen : w.data.length ≤ next) :
    extensionLoop now extMap totalExtLength (fuel + 1) w next currentPlace = none := by
  rw [extensionLoop, if_pos h, List.getElem?_eq_none hlen]
  rfl

theorem toNat_currentPlace (hlt : currentPlace.toNat < 1500) (b : UInt8) :
    (currentPlace + (b &&& 0x0F).toUInt16 + 2).toNat =
      currentPlace.toNat + (b &&& 0x0F).toNat + 2 := by
  have hb : (b &&& 0x0F).toNat < 256 := UInt8.toNat_lt _
  rw [UInt16.toNat_add, UInt16.toNat_add, UInt8.toNat_toUInt16]
  have htwo : (2 : UInt16).toNat = 2 := rfl
  rw [htwo]
  omega

/-- An element that is handled is found and, if it is mapped to the sending time, written into; the
bytes behind it stay. -/
theorem processElement_of_handled {suf : List UInt8} (hdata : w.data = pre ++ (e.bytes ++ suf))
    (h : e.Handled extMap) :
    ∃ w₁ pre', processElement now extMap w pre.length (e.extByte >>> 4) = some w₁ ∧
      w₁.data = pre' ++ suf ∧ pre'.length = pre.length + e.bytes.length ∧
      w₁.visited = w.visited ++ [pre.length] ∧
      ∃ added, w₁.written = w.written ++ added ∧
        ∀ i ∈ added, extMap[e.id.toNat]? = some .ABS_SEND_TIME ∧
          i ∈ List.range' (pre.length + 1) (min 3 e.data.length) := by
  obtain ⟨hid, hroom⟩ := h
  have hget : extMap[e.id.toNat]? = some extMap[e.id.toNat] := by simp [hid]
  rw [processElement, if_pos e.extId_ne_zero, e.toNat_extId, hget]
  simp only [Option.bind_some]
  split_ifs with hext
  · have hthree : 3 ≤ e.data.length := hroom (hget.trans (congrArg some hext))
    have hbytes : e.bytes.length = e.data.length + 1 := rfl
    have hlen : pre.length + 3 < w.data.length := by simp [hdata]; omega
    let t := absSendTime (now pre.length)
    let data := ((w.data.set (pre.length + 1) (t >>> 16).toUInt8).set (pre.length + 2)
      (t >>> 8).toUInt8).set (pre.length + 3) t.toUInt8
    have hdrop : data.drop (pre.length + e.bytes.length) = suf := by
      rw [List.drop_set_of_lt (by omega), List.drop_set_of_lt (by omega),
        List.drop_set_of_lt (by omega), hdata, ← List.append_assoc]
      exact List.drop_left' (by simp)
    refine ⟨_, data.take (pre.length + e.bytes.length), by
      rw [processAbsSendTime, setAbsSendTime, if_pos hlen], ?_, ?_, rfl,
      [pre.length + 1, pre.length + 2, pre.length + 3], rfl, ?_⟩
    · exact (List.take_append_drop _ data).symm.trans (congrArg _ hdrop)
    · simp [data, hdata]
    · intro i hi
      simp only [List.mem_cons, List.not_mem_nil, or_false] at hi
      exact ⟨congrArg some hext, List.mem_range'_1.mpr (by omega)⟩
  · exact ⟨_, pre ++ e.bytes, rfl, by simp [hdata], by simp, rfl, [], by simp⟩

/-- An element that is not handled is not followed, whatever the walk does behind it. -/
theorem not_walked_of_not_handled {w₁ : Walk} (h : ¬ e.Handled extMap)
    (hstep : processElement now extMap w pos (e.extByte >>> 4) = some w₁) (h' : Onward next w₁ w') :
    ¬ Walked extMap pos (.element e :: ps) w w' := by
  rw [processElement, if_pos e.extId_ne_zero, e.toNat_extId] at hstep
  obtain ⟨extension, hget, hstep⟩ := Option.bind_eq_some_iff.mp hstep
  have hid : e.id.toNat < 10 := by
    by_contra hge
    simp [Vector.getElem?_eq_none (Nat.le_of_not_lt hge)] at hget
  have hshort : extMap[e.id.toNat]? = some .ABS_SEND_TIME ∧ e.data.length < 3 := by
    by_contra hneg
    exact h ⟨hid, fun hext => Nat.le_of_not_lt fun hlt => hneg ⟨hext, hlt⟩⟩
  have hext : extension = .ABS_SEND_TIME := Option.some.inj (hget.symm.trans hshort.1)
  simp only [hext, if_true, processAbsSendTime, setAbsSendTime, Option.ite_none_right_eq_some,
    Option.some.injEq] at hstep
  obtain ⟨-, rfl⟩ := hstep
  intro hwalked
  obtain ⟨added, hwritten, hadded⟩ := hwalked.written
  obtain ⟨added', hwritten', -, -⟩ := h'.written
  rw [List.append_assoc] at hwritten'
  have heq : added = [pos + 1, pos + 2, pos + 3] ++ added' :=
    List.append_cancel_left (hwritten.symm.trans hwritten')
  -- the first byte behind the element is written
  have hlen := e.length_data
  have hbytes : e.bytes.length = e.data.length + 1 := rfl
  have hmem : pos + e.bytes.length ∈ added := by
    rw [heq]
    simp only [List.mem_append, List.mem_cons, List.not_mem_nil, or_false]
    omega
  have hmem' := hadded _ hmem
  rw [sendTimePlaces, if_pos hshort.1, List.mem_append, List.mem_range'_1] at hmem'
  cases hmem' with
  | inl hin => omega
  | inr hin => exact absurd (lt_of_mem_sendTimePlaces hin) (lt_irrefl _)

/-- A byte that is no element's first is stepped on without effect if it has the upper half of
padding. -/
theorem processElement_byte (h : b >>> 4 = 0) :
    processElement now extMap w next (b >>> 4) = some w := by
  rw [processElement, if_neg (not_not_intro h)]

theorem visited_processElement {w₁ : Walk} (h : b >>> 4 ≠ 0)
    (hstep : processElement now extMap w next (b >>> 4) = some w₁) :
    w₁.visited = w.visited ++ [next] := by
  rw [processElement, if_pos h] at hstep
  obtain ⟨extension, -, hstep⟩ := Option.bind_eq_some_iff.mp hstep
  dsimp only at hstep
  split_ifs at hstep with hext
  · simp only [processAbsSendTime, setAbsSendTime, Option.ite_none_right_eq_some,
      Option.some.injEq] at hstep
    rw [← hstep.2]
  · rw [← Option.some.inj hstep]

/-- What the walk from `next` does is right for the pieces that begin at `pos`. -/
def WalksAlong (now : ℕ → ℕ) (extMap : ExtensionMap) (totalExtLength : UInt16) (fuel : ℕ) (w : Walk)
    (next : ℕ) (currentPlace : UInt16) (pos : ℕ) (ps : List Piece) : Prop :=
  ∃ w', extensionLoop now extMap totalExtLength fuel w next currentPlace = some w' ∧
    Walked extMap pos ps w w'

theorem walksAlong_of_stopped (h : totalExtLength.toNat * 4 ≤ currentPlace.toNat) :
    WalksAlong now extMap totalExtLength fuel w next currentPlace pos ps ↔ Plain ps := by
  rw [WalksAlong, extensionLoop_of_stopped h]
  simp only [Option.some.injEq, exists_eq_left', walked_refl_iff]

theorem walked_byte_iff :
    Walked extMap pos (.byte b :: ps) w w' ↔ Walked extMap (pos + 1) ps w w' :=
  ⟨fun h => ⟨h.visited, h.written⟩, fun h => ⟨h.visited, h.written⟩⟩

/-- A step that finds an element and writes into it leaves the other pieces to the rest of the
walk. -/
theorem walked_element_iff {w₁ : Walk} (hvisited : w₁.visited = w.visited ++ [pos])
    (hwritten : ∃ added, w₁.written = w.written ++ added ∧
      ∀ i ∈ added, extMap[e.id.toNat]? = some .ABS_SEND_TIME ∧
        i ∈ List.range' (pos + 1) (min 3 e.data.length))
    (honward : Onward (pos + e.bytes.length) w₁ w') :
    Walked extMap pos (.element e :: ps) w w' ↔
      Walked extMap (pos + e.bytes.length) ps w₁ w' := by
  obtain ⟨added, hadded, hin⟩ := hwritten
  have hbytes : e.bytes.length = e.data.length + 1 := rfl
  constructor
  · intro h
    refine ⟨?_, ?_⟩
    · rw [h.visited, hvisited, List.append_assoc]
      rfl
    · obtain ⟨later, hlater, hbehind, -⟩ := honward.written
      obtain ⟨all, hall, hplaces⟩ := h.written
      have heq : all = added ++ later := by
        have hwhole : w.written ++ all = w.written ++ (added ++ later) := by
          rw [← hall, hlater, hadded, List.append_assoc]
        exact List.append_cancel_left hwhole
      refine ⟨later, hlater, fun i hi => ?_⟩
      have hbehind := hbehind i hi
      cases List.mem_append.mp (hplaces i (heq ▸ List.mem_append_right _ hi)) with
      | inl hmem =>
        split_ifs at hmem with hmap
        · have := (List.mem_range'_1.mp hmem).2
          omega
        · simp at hmem
      | inr hmem => exact hmem
  · intro h
    refine ⟨?_, ?_⟩
    · rw [h.visited, hvisited, List.append_assoc]
      rfl
    · obtain ⟨later, hlater, hplaces⟩ := h.written
      refine ⟨added ++ later, by rw [hlater, hadded, List.append_assoc], fun i hi => ?_⟩
      rw [sendTimePlaces]
      cases List.mem_append.mp hi with
      | inl hi =>
        obtain ⟨hmap, hrange⟩ := hin i hi
        exact List.mem_append_left _ (by rwa [if_pos hmap])
      | inr hi => exact List.mem_append_right _ (hplaces i hi)

/-- The walk over the pieces, from wherever it has got to. -/
theorem walksAlong_iff_readable (hdata : w.data = pre ++ ps.flatMap Piece.bytes)
    (hcurrent : currentPlace.toNat + 15 = next) (hstop : stop = totalExtLength.toNat * 4 + 16)
    (hsize : w.data.length ≤ 1500) (hfuel : 0 < fuel) (henough : w.data.length < next + fuel)
    (hnext : pre.length ≤ next ∨ stop ≤ next + 1) :
    WalksAlong now extMap totalExtLength fuel w next currentPlace pre.length ps ↔
      Readable extMap stop next pre.length ps := by
  induction ps generalizing pre w fuel next currentPlace with
  | nil =>
    by_cases hstopped : stop ≤ next + 1
    · rw [readable_of_stopped hstopped, walksAlong_of_stopped (by omega)]
    obtain ⟨fuel, rfl⟩ : ∃ k, fuel = k + 1 := ⟨fuel - 1, by omega⟩
    have hlen : w.data.length ≤ next := by
      rw [hdata]
      simp
      omega
    rw [WalksAlong, extensionLoop_behind (by omega) hlen, Readable]
    simpa using hstopped
  | cons p ps ih =>
    by_cases hstopped : stop ≤ next + 1
    · rw [readable_of_stopped hstopped, walksAlong_of_stopped (by omega)]
    obtain ⟨fuel, rfl⟩ : ∃ k, fuel = k + 1 := ⟨fuel - 1, by omega⟩
    cases p with
    | byte b =>
      have hdata' : w.data = (pre ++ [b]) ++ ps.flatMap Piece.bytes := by simp [hdata, Piece.bytes]
      have hlen : (pre ++ [b]).length = pre.length + 1 := List.length_append
      by_cases hhere : next = pre.length
      · have hget : w.data[next]? = some b := by simp [hdata, hhere, Piece.bytes]
        have hin : next < w.data.length := by simp [hdata, hhere, Piece.bytes]
        rw [Readable, if_pos ⟨hhere, by omega⟩]
        by_cases hb : b >>> 4 = 0
        · have hcurrent' : (currentPlace + (b &&& 0x0F).toUInt16 + 2).toNat + 15 =
              next + (b &&& 0x0F).toNat + 2 := by
            rw [toNat_currentPlace (by omega)]
            omega
          have hrest := @ih w fuel _ _ _ hdata' hcurrent' hsize (by omega) (by omega) (by omega)
          rw [hlen, ← hhere] at hrest
          rw [WalksAlong, extensionLoop_succ (by omega) hget, processElement_byte hb, ← hhere]
          simp only [Option.bind_some, walked_byte_iff, hb, true_and]
          exact hrest
        · simp only [hb, false_and, iff_false]
          rintro ⟨w', hloop, hwalked⟩
          rw [extensionLoop_succ (by omega) hget] at hloop
          obtain ⟨w₁, hw₁, hloop⟩ := Option.bind_eq_some_iff.mp hloop
          rw [← hhere] at hwalked
          exact not_walked_of_visited (onward_extensionLoop hloop) (visited_processElement hb hw₁)
            hwalked
      · rw [Readable, if_neg fun h => hhere h.1, ← hlen, ← ih hdata' hcurrent hsize hfuel henough
          (by omega)]
        simp only [WalksAlong, walked_byte_iff, hlen]
    | element e =>
      have hsplit : w.data = pre ++ (e.bytes ++ ps.flatMap Piece.bytes) := hdata
      by_cases hhere : next = pre.length
      · subst hhere
        have hget : w.data[pre.length]? = some e.extByte := by simp [hsplit, Element.bytes]
        have hin : pre.length + e.bytes.length ≤ w.data.length := by simp [hsplit]
        have hbytes := e.length_bytes
        have hextLength := e.toNat_extLength
        have hplace : pre.length + (e.extByte &&& 0x0F).toNat + 2 = pre.length + e.bytes.length := by
          omega
        rw [WalksAlong, extensionLoop_succ (by omega) hget, hplace]
        by_cases hhandled : e.Handled extMap
        · obtain ⟨w₁, pre', hw₁, hdata₁, hpre', hvisited, hwritten⟩ :=
            @processElement_of_handled now _ _ _ _ _ hsplit hhandled
          have hlen₁ : w₁.data.length = w.data.length := by
            simp [hdata₁, hsplit, hpre', Nat.add_assoc]
          have hcurrent' : (currentPlace + (e.extByte &&& 0x0F).toUInt16 + 2).toNat + 15 =
              pre.length + e.bytes.length := by
            rw [toNat_currentPlace (by omega)]
            omega
          have hrest := @ih w₁ fuel _ _ _ hdata₁ hcurrent' (by omega) (by omega) (by omega) (by omega)
          rw [hpre'] at hrest
          simp only [hw₁, Option.bind_some, Readable, true_and, hhandled,
            show pre.length + 1 < stop by omega, ← hrest]
          refine exists_congr fun w' => and_congr_right fun hloop => ?_
          exact walked_element_iff hvisited hwritten (onward_extensionLoop hloop)
        · simp only [Readable, hhandled, false_and, and_false, iff_false]
          rintro ⟨w', hloop, hwalked⟩
          obtain ⟨w₁, hw₁, hloop⟩ := Option.bind_eq_some_iff.mp hloop
          exact not_walked_of_not_handled hhandled hw₁ (onward_extensionLoop hloop) hwalked
      · have hnot : ¬ Readable extMap stop next pre.length (.element e :: ps) := fun h => hhere h.1
        simp only [hnot, iff_false]
        rintro ⟨w', hloop, hwalked⟩
        exact not_walked_of_onward (onward_extensionLoop hloop) (by omega) hwalked

end KkLicode.Rtp
