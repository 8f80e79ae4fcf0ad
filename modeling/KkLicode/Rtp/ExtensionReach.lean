import KkLicode.Rtp.ExtensionBlock

/-! How far the walk of `RtpExtensionProcessor` reaches, if it may use no byte but
those of the packet. Each turn goes on by two bytes at least, so within a packet the
place in the block does not wrap. What is mapped to the sending time is given three
bytes of time, however long it is: behind a shorter element the clock decides what
the walk takes for the next one. -/

namespace KkLicode.Rtp

namespace RtpExtensionProcessor

/-- The loop comes to its end by its own test. All that it reads and writes on the way is among the
bytes, and each number is one of the map. -/
inductive Ends (now : ℕ → ℕ) (extMap : ExtensionMap) (totalExtLength : UInt16) :
    Walk → ℕ → UInt16 → Prop
  | stop {w : Walk} {extBuffer : ℕ} {currentPlace : UInt16} :
    totalExtLength.toNat * 4 ≤ currentPlace.toNat → Ends now extMap totalExtLength w extBuffer currentPlace
  | turn {w w' : Walk} {extBuffer : ℕ} {currentPlace : UInt16} {extByte : UInt8} :
    currentPlace.toNat < totalExtLength.toNat * 4 → w.data[extBuffer]? = some extByte →
    processElement now extMap w extBuffer (extByte >>> 4) = some w' →
    Ends now extMap totalExtLength w' (extBuffer + (extByte &&& 0x0F).toNat + 2)
      (currentPlace + (extByte &&& 0x0F).toUInt16 + 2) →
    Ends now extMap totalExtLength w extBuffer currentPlace

/-- The bytes of a block, with `left` bytes of its length still to come, lead from one element to the
next until the block has ended. Each first byte is there, and its number is that of padding or one of
the map. An element for the sending time has three bytes behind the first one, and they belong to it
unless it is the last one. -/
inductive Contained (extMap : ExtensionMap) : ℕ → List UInt8 → Prop
  | ended {l : List UInt8} : Contained extMap 0 l
  | padding {left : ℕ} {b : UInt8} {l : List UInt8} :
    b >>> 4 = 0 → Contained extMap (left - ((b &&& 0x0F).toNat + 2)) (l.drop ((b &&& 0x0F).toNat + 1)) →
    Contained extMap left (b :: l)
  | element {left : ℕ} {b : UInt8} {l : List UInt8} :
    b >>> 4 ≠ 0 → (b >>> 4).toNat < 10 →
    (extMap[(b >>> 4).toNat]? = some .ABS_SEND_TIME → 3 ≤ l.length ∧
      (2 ≤ (b &&& 0x0F).toNat ∨ left ≤ (b &&& 0x0F).toNat + 2)) →
    Contained extMap (left - ((b &&& 0x0F).toNat + 2)) (l.drop ((b &&& 0x0F).toNat + 1)) →
    Contained extMap left (b :: l)

variable {now : ℕ → ℕ} {extMap : ExtensionMap} {totalExtLength : UInt16} {w w' : Walk}
  {fuel extBuffer left : ℕ} {currentPlace : UInt16} {b : UInt8} {l : List UInt8}

/-! ### The loop and its turns -/

theorem length_processElement {extId : UInt8}
    (h : processElement now extMap w extBuffer extId = some w') : w'.data.length = w.data.length := by
  unfold processElement at h
  split_ifs at h
  · obtain ⟨extension, -, h⟩ := Option.bind_eq_some_iff.mp h
    dsimp only at h
    split_ifs at h
    · simp only [processAbsSendTime, setAbsSendTime, Option.ite_none_right_eq_some,
        Option.some.injEq] at h
      obtain ⟨-, rfl⟩ := h
      simp
    · exact Option.some.inj h ▸ rfl
  · exact Option.some.inj h ▸ rfl

/-- There are turns enough for the loop to come to its end or to leave the bytes. -/
theorem isSome_extensionLoop_iff (hfuel : w.data.length < extBuffer + fuel) (hpos : 0 < fuel) :
    (extensionLoop now extMap totalExtLength fuel w extBuffer currentPlace).isSome ↔
      Ends now extMap totalExtLength w extBuffer currentPlace := by
  induction fuel generalizing w extBuffer currentPlace with
  | zero => omega
  | succ fuel ih =>
    by_cases hplace : currentPlace.toNat < totalExtLength.toNat * 4
    · cases hget : w.data[extBuffer]? with
      | none =>
        rw [extensionLoop_behind hplace (List.getElem?_eq_none_iff.mp hget)]
        refine iff_of_false (by simp) fun h => ?_
        cases h with
        | stop hstop => omega
        | turn _ hget' => exact Option.some_ne_none _ (hget'.symm.trans hget)
      | some b =>
        have hlt := (List.getElem?_eq_some_iff.mp hget).1
        rw [extensionLoop_succ hplace hget]
        constructor
        · intro h
          obtain ⟨w', hw', h⟩ := Option.bind_eq_some_iff.mp (Option.some_get h).symm
          have hlen := length_processElement hw'
          have h := Option.isSome_of_eq_some h
          exact .turn hplace hget hw' ((ih (by omega) (by omega)).mp h)
        · intro h
          cases h with
          | stop hstop => omega
          | turn _ hget' hw' h =>
            obtain rfl := Option.some.inj (hget.symm.trans hget')
            have hlen := length_processElement hw'
            rw [hw', Option.bind_some]
            exact (ih (by omega) (by omega)).mpr h
    · rw [extensionLoop_of_stopped (by omega)]
      exact iff_of_true rfl (.stop (by omega))

/-! ### One turn -/

theorem processElement_sendTime {extId : UInt8} (hid : extId ≠ 0)
    (hmap : extMap[extId.toNat]? = some .ABS_SEND_TIME) :
    processElement now extMap w extBuffer extId =
      setAbsSendTime { w with visited := w.visited ++ [extBuffer] } extBuffer
        (absSendTime (now extBuffer)) := by
  rw [processElement, if_pos hid, hmap, Option.bind_some]
  exact if_pos rfl

theorem processElement_other {extId : UInt8} (hid : extId ≠ 0) (hlt : extId.toNat < 10)
    (hmap : extMap[extId.toNat]? ≠ some .ABS_SEND_TIME) :
    processElement now extMap w extBuffer extId =
      some { w with visited := w.visited ++ [extBuffer] } := by
  have hget : extMap[extId.toNat]? = some extMap[extId.toNat] := by simp [hlt]
  rw [processElement, if_pos hid, hget, Option.bind_some]
  exact if_neg fun h => hmap (hget.trans (congrArg some h))

/-- A number that is none of the map. -/
theorem processElement_of_le {extId : UInt8} (h : 10 ≤ extId.toNat) :
    processElement now extMap w extBuffer extId = none := by
  have hid : extId ≠ 0 := fun h0 => by
    rw [h0] at h
    exact absurd h (by decide)
  rw [processElement, if_pos hid, Vector.getElem?_eq_none h]
  rfl

theorem drop_setAbsSendTime {aTime : UInt32} (h : setAbsSendTime w extBuffer aTime = some w') {i : ℕ}
    (hi : extBuffer + 4 ≤ i) : w'.data.drop i = w.data.drop i := by
  simp only [setAbsSendTime, Option.ite_none_right_eq_some, Option.some.injEq] at h
  obtain ⟨-, rfl⟩ := h
  rw [List.drop_set_of_lt (by omega), List.drop_set_of_lt (by omega), List.drop_set_of_lt (by omega)]

theorem getElem?_eq_of_drop {data : List UInt8} {i : ℕ} (h : data.drop i = b :: l) :
    data[i]? = some b := by
  rw [← List.head?_drop, h]
  rfl

theorem drop_of_drop {data : List UInt8} {i : ℕ} (h : data.drop i = b :: l) (k : ℕ) :
    data.drop (i + k + 2) = l.drop (k + 1) := by
  rw [Nat.add_assoc, ← List.drop_drop, h]
  rfl

/-! ### Bytes that contain the walk -/

/-- If the block is contained, the walk ends in it, whatever the clock says. -/
theorem ends_of_contained (h : Contained extMap left l) (hdrop : w.data.drop extBuffer = l)
    (hsize : w.data.length ≤ 1500) (hplace : currentPlace.toNat + 15 = extBuffer)
    (hleft : left = totalExtLength.toNat * 4 - currentPlace.toNat) :
    Ends now extMap totalExtLength w extBuffer currentPlace := by
  induction h generalizing w extBuffer currentPlace with
  | ended => exact .stop (by omega)
  | @padding left b l hb _ ih =>
    by_cases hstop : totalExtLength.toNat * 4 ≤ currentPlace.toNat
    · exact .stop hstop
    have hget := getElem?_eq_of_drop hdrop
    have hlt := (List.getElem?_eq_some_iff.mp hget).1
    have hbound : currentPlace.toNat < 1500 := by omega
    have hnext := toNat_currentPlace hbound b
    exact .turn (by omega) hget (processElement_byte hb)
      (ih (drop_of_drop hdrop _) hsize (by omega) (by omega))
  | @element left b l hb hid hroom _ ih =>
    by_cases hstop : totalExtLength.toNat * 4 ≤ currentPlace.toNat
    · exact .stop hstop
    have hget := getElem?_eq_of_drop hdrop
    have hlt := (List.getElem?_eq_some_iff.mp hget).1
    have hbound : currentPlace.toNat < 1500 := by omega
    have hnext := toNat_currentPlace hbound b
    have hrest := drop_of_drop hdrop (b &&& 0x0F).toNat
    by_cases hmap : extMap[(b >>> 4).toNat]? = some .ABS_SEND_TIME
    · obtain ⟨hthree, hlong⟩ := hroom hmap
      have hlen := congrArg List.length hdrop
      rw [List.length_drop, List.length_cons] at hlen
      obtain ⟨w', hw'⟩ : ∃ w', setAbsSendTime { w with visited := w.visited ++ [extBuffer] } extBuffer
          (absSendTime (now extBuffer)) = some w' := ⟨_, if_pos (by dsimp only; omega)⟩
      have hstep := (processElement_sendTime hb hmap).trans hw'
      refine .turn (by omega) hget hstep ?_
      rcases hlong with hlong | hlast
      · refine ih ?_ ((length_processElement hstep).trans_le hsize) (by omega) (by omega)
        rw [drop_setAbsSendTime hw' (by omega), ← hrest]
      · exact .stop (by omega)
    · exact .turn (by omega) hget (processElement_other hb hid hmap)
        (ih hrest hsize (by omega) (by omega))

/-- At the last microsecond of the first second, the two lower bytes of the time begin with the
number that is reserved. -/
theorem absSendTime_last : absSendTime 999999 = 0x3FFFE := by decide +kernel

/-- A first byte that was overwritten with that time leads out of the map. -/
theorem not_ends_of_overwritten {w w' : Walk} {k : ℕ}
    (h : setAbsSendTime w extBuffer (absSendTime 999999) = some w') (hk : k < 2)
    (hplace : currentPlace.toNat < totalExtLength.toNat * 4) :
    ¬ Ends now extMap totalExtLength w' (extBuffer + k + 2) currentPlace := by
  simp only [setAbsSendTime, Option.ite_none_right_eq_some, Option.some.injEq] at h
  obtain ⟨hlen, rfl⟩ := h
  rw [absSendTime_last]
  intro h
  cases h with
  | stop hstop => omega
  | @turn _ _ _ _ extByte _ hget hstep =>
    have hbyte : 10 ≤ (extByte >>> 4).toNat := by
      obtain rfl | rfl : k = 0 ∨ k = 1 := by omega
      · have hsecond : extByte = ((0x3FFFE : UInt32) >>> 8).toUInt8 := by
          simpa [show extBuffer + 2 < w.data.length by omega] using hget.symm
        rw [hsecond]
        decide
      · have hthird : extByte = (0x3FFFE : UInt32).toUInt8 := by
          simpa [show extBuffer + 3 < w.data.length by omega] using hget.symm
        rw [hthird]
        decide
    exact Option.some_ne_none _ (hstep.symm.trans (processElement_of_le hbyte))

/-- If the walk ends at that time, the block is contained. -/
theorem contained_of_ends
    (h : Ends (fun _ => 999999) extMap totalExtLength w extBuffer currentPlace)
    (hsize : w.data.length ≤ 1500) (hplace : currentPlace.toNat + 15 = extBuffer) :
    Contained extMap (totalExtLength.toNat * 4 - currentPlace.toNat) (w.data.drop extBuffer) := by
  induction h with
  | stop hstop =>
    rw [Nat.sub_eq_zero_of_le hstop]
    exact .ended
  | @turn w w' extBuffer currentPlace b hin hget hstep hends ih =>
    obtain ⟨hlt, hb⟩ := List.getElem?_eq_some_iff.mp hget
    have hdrop : w.data.drop extBuffer = b :: w.data.drop (extBuffer + 1) := by
      rw [List.drop_eq_getElem_cons hlt, hb]
    have hbound : currentPlace.toNat < 1500 := by omega
    have hnext := toNat_currentPlace hbound b
    have hrest := drop_of_drop hdrop (b &&& 0x0F).toNat
    have hih := ih ((length_processElement hstep).trans_le hsize) (by omega)
    rw [hnext, show totalExtLength.toNat * 4 - (currentPlace.toNat + (b &&& 0x0F).toNat + 2) =
      totalExtLength.toNat * 4 - currentPlace.toNat - ((b &&& 0x0F).toNat + 2) by omega] at hih
    rw [hdrop]
    by_cases hzero : b >>> 4 = 0
    · obtain rfl := Option.some.inj ((processElement_byte hzero).symm.trans hstep)
      exact .padding hzero (hrest ▸ hih)
    have hid : (b >>> 4).toNat < 10 := by
      by_contra hge
      exact Option.some_ne_none _ (hstep.symm.trans (processElement_of_le (Nat.not_lt.mp hge)))
    by_cases hmap : extMap[(b >>> 4).toNat]? = some .ABS_SEND_TIME
    · rw [processElement_sendTime hzero hmap] at hstep
      have hroom : extBuffer + 3 < w.data.length := by
        by_contra hshort
        rw [setAbsSendTime, if_neg hshort] at hstep
        exact Option.some_ne_none _ hstep.symm
      by_cases hlong : 2 ≤ (b &&& 0x0F).toNat
      · rw [drop_setAbsSendTime hstep (by omega), hrest] at hih
        exact .element hzero hid (fun _ => ⟨by rw [List.length_drop]; omega, .inl hlong⟩) hih
      · -- a shorter element can only be the last one
        have hlast : totalExtLength.toNat * 4 - currentPlace.toNat ≤ (b &&& 0x0F).toNat + 2 := by
          by_contra hmore
          exact not_ends_of_overwritten hstep (Nat.not_le.mp hlong) (by omega) hends
        refine .element hzero hid
          (fun _ => ⟨by rw [List.length_drop]; omega, .inr hlast⟩) ?_
        rw [Nat.sub_eq_zero_of_le hlast]
        exact .ended
    · obtain rfl := Option.some.inj ((processElement_other hzero hid hmap).symm.trans hstep)
      exact .element hzero hid (fun h => absurd h hmap) (hrest ▸ hih)

end RtpExtensionProcessor

end KkLicode.Rtp
