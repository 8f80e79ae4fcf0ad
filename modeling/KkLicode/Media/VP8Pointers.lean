import KkLicode.Media.VP8PictureID

/-! `RtpVP8Parser` as it goes over a packet: the pointer, the length that is left and
the number of parsed bytes are counted apart, and a byte outside of the packet cannot
be read or written. The counts agree with what is left of the packet, so that there is
a result for every packet of at least one byte, and it is that of the parser of
`RtpVP8Parser`. -/

namespace KkLicode.Media.RtpVP8Parser.Checked

structure Cursor where
  dataPtr : ℕ
  dataLength : ℤ
  parsedBytes : ℕ := 0

def Cursor.advance (c : Cursor) : Cursor := ⟨c.dataPtr + 1, c.dataLength - 1, c.parsedBytes + 1⟩

/-- An error is a return value of -1. There is no result where a byte outside of the packet is
read. -/
abbrev Result := ExceptT RTPPayloadVP8 Option

variable (mem : List UInt8)

def deref (i : ℕ) : Result UInt8 := ExceptT.lift mem[i]?

def parseVP8PictureID (vp8 : RTPPayloadVP8) (c : Cursor) : Result (RTPPayloadVP8 × Cursor) :=
  if c.dataLength ≤ 0 then throw vp8
  else do
    let b ← deref mem c.dataPtr
    let vp8 := { vp8 with pictureID := (b &&& 0x7F).toNat }
    if b &&& 0x80 ≠ 0 then
      let c := c.advance
      if c.dataLength ≤ 0 then throw vp8
      else do
        let b' ← deref mem c.dataPtr
        return ({ vp8 with pictureID := vp8.pictureID * 256 + b'.toNat }, c.advance)
    else return (vp8, c.advance)

def parseVP8Tl0PicIdx (vp8 : RTPPayloadVP8) (c : Cursor) : Result (RTPPayloadVP8 × Cursor) :=
  if c.dataLength ≤ 0 then throw vp8
  else do
    let b ← deref mem c.dataPtr
    return ({ vp8 with tl0PicIdx := b.toNat }, c.advance)

def parseVP8TIDAndKeyIdx (vp8 : RTPPayloadVP8) (c : Cursor) : Result (RTPPayloadVP8 × Cursor) :=
  if c.dataLength ≤ 0 then throw vp8
  else do
    let b ← deref mem c.dataPtr
    let vp8 :=
      if vp8.hasTID then { vp8 with tID := (b >>> 6 &&& 0x03).toNat, layerSync := b &&& 0x20 ≠ 0 }
      else vp8
    let vp8 := if vp8.hasKeyIdx then { vp8 with keyIdx := (b &&& 0x1F).toNat } else vp8
    return (vp8, c.advance)

/-- A part that is there if its bit is set. -/
def optional (bit : Bool) (part : RTPPayloadVP8 → Cursor → Result (RTPPayloadVP8 × Cursor))
    (r : RTPPayloadVP8 × Cursor) : Result (RTPPayloadVP8 × Cursor) :=
  if bit then part r.1 r.2 else return r

def parseVP8Extension (vp8 : RTPPayloadVP8) (dataPtr : ℕ) (dataLength : ℤ) :
    Result (RTPPayloadVP8 × Cursor) :=
  if dataLength ≤ 0 then throw vp8
  else do
    let c : Cursor := { dataPtr := dataPtr, dataLength := dataLength }
    let b ← deref mem c.dataPtr
    let vp8 := { vp8 with
      hasPictureID := b &&& 0x80 ≠ 0
      hasTl0PicIdx := b &&& 0x40 ≠ 0
      hasTID := b &&& 0x20 ≠ 0
      hasKeyIdx := b &&& 0x10 ≠ 0 }
    let r ← optional vp8.hasPictureID (parseVP8PictureID mem) (vp8, c.advance)
    let r ← optional r.1.hasTl0PicIdx (parseVP8Tl0PicIdx mem) r
    optional (r.1.hasTID || r.1.hasKeyIdx) (parseVP8TIDAndKeyIdx mem) r

def parseVP8FrameSize (vp8 : RTPPayloadVP8) (dataPtr : ℕ) (dataLength : ℤ) :
    Option RTPPayloadVP8 :=
  if vp8.frameType ≠ .kVP8IFrame then some vp8
  else if dataLength < 10 then some vp8
  else do
    let at14 (i : ℕ) : Option ℕ := do
      let high ← mem[dataPtr + (i + 1)]?
      let low ← mem[dataPtr + i]?
      return (high.toNat <<< 8 + low.toNat) &&& 0x3FFF
    let width ← at14 6
    let height ← at14 8
    return { vp8 with frameWidth := width, frameHeight := height }

/-- The fields, with `data` and `dataLength`, which have no value until the descriptor is read. -/
structure Descriptor where
  vp8 : RTPPayloadVP8
  data : Option (ℕ × ℤ)
  deriving DecidableEq, Repr

/-- The `P` bit is read only at the beginning of the first partition. -/
def parseFrameType (vp8 : RTPPayloadVP8) (dataPtr : ℕ) : Option VP8FrameTypes :=
  if vp8.beginningOfPartition ∧ vp8.partitionID = 0 then
    mem[dataPtr]?.map fun b : UInt8 => if b &&& 0x01 ≠ 0 then .kVP8PFrame else .kVP8IFrame
  else some .kVP8PFrame

/-- The part behind the descriptor. -/
def parsePayload (vp8 : RTPPayloadVP8) (dataPtr : ℕ) (dataLength : ℤ) : Option Descriptor :=
  if dataLength ≤ 0 then some ⟨vp8, none⟩
  else do
    let frameType ← parseFrameType mem vp8 dataPtr
    let vp8 ← parseVP8FrameSize mem { vp8 with frameType := frameType } dataPtr dataLength
    return ⟨vp8, some (dataPtr, dataLength)⟩

def parseVP8 : Option Descriptor := do
  let b : UInt8 ← mem[0]?
  let vp8 : RTPPayloadVP8 :=
    { nonReferenceFrame := b &&& 0x20 ≠ 0
      beginningOfPartition := b &&& 0x10 ≠ 0
      partitionID := (b &&& 0x0F).toNat }
  if vp8.partitionID > 8 then return ⟨vp8, none⟩
  else
    let dataPtr := 1
    let dataLength : ℤ := mem.length - 1
    if b &&& 0x80 ≠ 0 then
      match ← (parseVP8Extension mem vp8 dataPtr dataLength).run with
      | .error vp8 => return ⟨vp8, none⟩
      | .ok (vp8, c) => parsePayload mem vp8 (dataPtr + c.parsedBytes) (dataLength - c.parsedBytes)
    else parsePayload mem vp8 dataPtr dataLength

/-- A byte is written only where the packet has one. -/
def store (mem : List UInt8) (i : ℕ) (b : UInt8) : Option (List UInt8) :=
  if i < mem.length then some (mem.set i b) else none

def setVP8PictureID (pictureId : ℤ) : Option (List UInt8) := do
  let extension := (← mem[0]?) &&& 0x80 ≠ 0
  let dataLength : ℤ := mem.length - 1
  if extension then
    if dataLength ≤ 0 then return mem
    else
      let hasPictureId := (← mem[1]?) &&& 0x80 ≠ 0
      let dataLength := dataLength - 1
      if hasPictureId then
        if dataLength ≤ 0 then return mem
        else
          let picId : UInt16 := .ofInt pictureId
          let pictureIdLen : ℤ := if (← mem[2]?) &&& 0x80 ≠ 0 then 2 else 1
          if pictureIdLen > dataLength then return mem
          else if pictureIdLen = 2 then
            let mem ← store mem 2 ((0x80 : UInt8) ||| ((picId >>> 8) &&& 0x7F).toUInt8)
            store mem 3 (picId &&& 0xFF).toUInt8
          else store mem 2 (picId &&& 0x7F).toUInt8
      else return mem
  else return mem

/-! ### The counts -/

variable {mem} {start : ℕ} {vp8 : RTPPayloadVP8} {c : Cursor} {d rest : List UInt8} {b : UInt8}

/-- What is left is what the pointer and the counts say. -/
structure At (mem : List UInt8) (start : ℕ) (d : List UInt8) (c : Cursor) : Prop where
  inside : c.dataPtr ≤ mem.length
  left : mem.drop c.dataPtr = d
  length : c.dataLength = d.length
  parsed : c.dataPtr = start + c.parsedBytes

theorem At.getElem (h : At mem start (b :: rest) c) : mem[c.dataPtr]? = some b := by
  rw [← Nat.add_zero c.dataPtr, ← List.getElem?_drop, h.left]
  rfl

theorem At.advance (h : At mem start (b :: rest) c) : At mem start rest c.advance where
  inside := by
    have := congrArg List.length h.left
    rw [List.length_drop, List.length_cons] at this
    simp only [Cursor.advance]
    omega
  left := by rw [Cursor.advance, ← List.drop_drop, h.left, List.drop_one, List.tail_cons]
  length := by
    have := h.length
    rw [List.length_cons] at this
    simp only [Cursor.advance]
    omega
  parsed := by
    have := h.parsed
    simp only [Cursor.advance]
    omega

theorem At.deref_bind (h : At mem start (b :: rest) c) {α : Type} (f : UInt8 → Result α) :
    (deref mem c.dataPtr >>= f) = f b := by
  rw [deref, h.getElem]
  rfl

theorem At.nil (h : At mem start [] c) : c.dataLength ≤ 0 := by
  rw [h.length]
  exact Int.le_refl _

theorem At.cons (h : At mem start (b :: rest) c) : ¬ c.dataLength ≤ 0 := by
  have := h.length
  rw [List.length_cons] at this
  omega

/-- The same result with the counts for what is left. -/
inductive Agrees (mem : List UInt8) (start : ℕ) : Parsed → Result (RTPPayloadVP8 × Cursor) → Prop
  | error (vp8 : RTPPayloadVP8) : Agrees mem start (.error vp8) (throw vp8)
  | ok {vp8 : RTPPayloadVP8} {rest : List UInt8} {c : Cursor} (h : At mem start rest c) :
    Agrees mem start (.ok (vp8, rest)) (pure (vp8, c))

theorem Agrees.bind {p : Parsed} {r : Result (RTPPayloadVP8 × Cursor)} (h : Agrees mem start p r)
    {f : RTPPayloadVP8 × List UInt8 → Parsed}
    {g : RTPPayloadVP8 × Cursor → Result (RTPPayloadVP8 × Cursor)}
    (hfg : ∀ vp8 rest c, At mem start rest c → Agrees mem start (f (vp8, rest)) (g (vp8, c))) :
    Agrees mem start (p >>= f) (r >>= g) := by
  cases h with
  | error vp8 => exact .error vp8
  | ok h => exact hfg _ _ _ h

theorem optional_agrees {bit : Bool} {part : RTPPayloadVP8 → List UInt8 → Parsed}
    {part' : RTPPayloadVP8 → Cursor → Result (RTPPayloadVP8 × Cursor)}
    (hpart : ∀ vp8 d c, At mem start d c → Agrees mem start (part vp8 d) (part' vp8 c))
    (h : At mem start d c) :
    Agrees mem start (RtpVP8Parser.optional bit part (vp8, d)) (optional bit part' (vp8, c)) := by
  cases bit with
  | true => exact hpart vp8 d c h
  | false => exact .ok h

theorem parseVP8PictureID_agrees (vp8 : RTPPayloadVP8) (d : List UInt8) (c : Cursor)
    (h : At mem start d c) :
    Agrees mem start (RtpVP8Parser.parseVP8PictureID vp8 d) (parseVP8PictureID mem vp8 c) := by
  unfold parseVP8PictureID
  cases d with
  | nil =>
    rw [if_pos h.nil]
    exact .error vp8
  | cons b rest =>
    rw [if_neg h.cons, h.deref_bind]
    by_cases hm : b &&& 0x80 ≠ 0
    · cases rest with
      | nil =>
        rw [RtpVP8Parser.parseVP8PictureID]
        dsimp only
        rw [if_pos hm, if_pos hm, if_pos h.advance.nil]
        exact .error _
      | cons b' rest =>
        rw [RtpVP8Parser.parseVP8PictureID]
        dsimp only
        rw [if_pos hm, if_pos hm, if_neg h.advance.cons, h.advance.deref_bind]
        exact .ok h.advance.advance
    · unfold RtpVP8Parser.parseVP8PictureID
      dsimp only
      rw [if_neg hm, if_neg hm]
      exact .ok h.advance

/-- A field of one byte. -/
theorem At.agrees_byte {vp8 : RTPPayloadVP8} {parse : List UInt8 → RtpVP8Parser.Parsed}
    {field : UInt8 → RTPPayloadVP8} (hnil : parse [] = .error vp8)
    (hcons : ∀ b rest, parse (b :: rest) = .ok (field b, rest)) {d : List UInt8} {c : Cursor}
    (h : At mem start d c) :
    Agrees mem start (parse d) (if c.dataLength ≤ 0 then throw vp8
      else do
        let b ← deref mem c.dataPtr
        return (field b, c.advance)) := by
  cases d with
  | nil =>
    rw [hnil, if_pos h.nil]
    exact .error vp8
  | cons b rest =>
    rw [hcons, if_neg h.cons, h.deref_bind]
    exact .ok h.advance

theorem parseVP8Tl0PicIdx_agrees (vp8 : RTPPayloadVP8) (d : List UInt8) (c : Cursor)
    (h : At mem start d c) :
    Agrees mem start (RtpVP8Parser.parseVP8Tl0PicIdx vp8 d) (parseVP8Tl0PicIdx mem vp8 c) :=
  h.agrees_byte rfl fun _ _ => rfl

theorem parseVP8TIDAndKeyIdx_agrees (vp8 : RTPPayloadVP8) (d : List UInt8) (c : Cursor)
    (h : At mem start d c) :
    Agrees mem start (RtpVP8Parser.parseVP8TIDAndKeyIdx vp8 d)
      (parseVP8TIDAndKeyIdx mem vp8 c) :=
  h.agrees_byte rfl fun _ _ => rfl

theorem parseVP8Extension_agrees (vp8 : RTPPayloadVP8) {dataLength : ℤ} (hin : start ≤ mem.length)
    (hd : mem.drop start = d) (hlen : dataLength = d.length) :
    Agrees mem start (RtpVP8Parser.parseVP8Extension vp8 d)
      (parseVP8Extension mem vp8 start dataLength) := by
  have h : At mem start d { dataPtr := start, dataLength := dataLength } :=
    ⟨hin, hd, hlen, rfl⟩
  unfold parseVP8Extension
  cases d with
  | nil =>
    rw [if_pos h.nil]
    exact .error vp8
  | cons b rest =>
    rw [if_neg h.cons]
    dsimp only
    rw [h.deref_bind]
    refine (optional_agrees parseVP8PictureID_agrees h.advance).bind fun vp8 rest c h => ?_
    refine (optional_agrees parseVP8Tl0PicIdx_agrees h).bind fun vp8 rest c h => ?_
    exact optional_agrees parseVP8TIDAndKeyIdx_agrees h

/-- The fields and the place of the payload, as the pointers have them. -/
def describe (mem : List UInt8) (vp8 : RTPPayloadVP8) : Descriptor where
  vp8 := { vp8 with data := none }
  data := vp8.data.map fun payload => (mem.length - payload.length, (payload.length : ℤ))

theorem describe_of_none (h : vp8.data = none) : describe mem vp8 = ⟨vp8, none⟩ := by
  obtain ⟨⟩ := vp8
  cases h
  rfl

theorem describe_of_data (h : vp8.data = none) (payload : List UInt8) :
    describe mem { vp8 with data := some payload } =
      ⟨vp8, some (mem.length - payload.length, (payload.length : ℤ))⟩ := by
  obtain ⟨⟩ := vp8
  cases h
  rfl

theorem parseVP8FrameSize_data (vp8 : RTPPayloadVP8) (d : List UInt8) :
    (RtpVP8Parser.parseVP8FrameSize vp8 d).data = vp8.data := by
  unfold RtpVP8Parser.parseVP8FrameSize
  split_ifs <;> rfl

theorem parseVP8FrameSize_eq (vp8 : RTPPayloadVP8) {dataPtr : ℕ} (hd : mem.drop dataPtr = d) :
    parseVP8FrameSize mem vp8 dataPtr d.length = some (RtpVP8Parser.parseVP8FrameSize vp8 d) := by
  have hget : ∀ i, i < d.length → mem[dataPtr + i]? = some (d.getD i 0) := by
    intro i hi
    rw [← List.getElem?_drop, hd, List.getElem?_eq_getElem hi, List.getD_eq_getElem _ _ hi]
  unfold parseVP8FrameSize RtpVP8Parser.parseVP8FrameSize
  by_cases hf : vp8.frameType = .kVP8IFrame
  · by_cases hl : d.length < 10
    · rw [if_neg (not_not.mpr hf), if_pos (by omega), if_neg (not_not.mpr hf), if_pos hl]
    · rw [if_neg (not_not.mpr hf), if_neg (by omega), if_neg (not_not.mpr hf), if_neg hl]
      simp only [hget _ (show 6 < d.length by omega), hget _ (show 6 + 1 < d.length by omega),
        hget _ (show 8 < d.length by omega), hget _ (show 8 + 1 < d.length by omega),
        Option.bind_eq_bind, Option.bind_some]
      rfl
  · rw [if_pos hf, if_pos hf]

theorem parsePayload_eq (hnone : vp8.data = none) {dataPtr : ℕ} (hd : mem.drop dataPtr = d) :
    parsePayload mem vp8 dataPtr d.length =
      some (describe mem (RtpVP8Parser.parsePayload vp8 d)) := by
  unfold parsePayload
  cases d with
  | nil =>
    rw [if_pos (by simp)]
    exact congrArg some (describe_of_none hnone).symm
  | cons b rest =>
    have hlen : dataPtr = mem.length - (b :: rest).length := by
      have := congrArg List.length hd
      rw [List.length_drop] at this
      rw [List.length_cons] at this ⊢
      omega
    have hb : mem[dataPtr]? = some b := by
      rw [← Nat.add_zero dataPtr, ← List.getElem?_drop, hd]
      rfl
    have hframe : parseFrameType mem vp8 dataPtr =
        some (if vp8.beginningOfPartition ∧ vp8.partitionID = 0 then
          if b &&& 0x01 ≠ 0 then .kVP8PFrame else .kVP8IFrame
        else .kVP8PFrame) := by
      rw [parseFrameType, hb, Option.map_some]
      split_ifs <;> rfl
    rw [if_neg (by rw [List.length_cons]; omega), hframe, Option.bind_eq_bind, Option.bind_some,
      parseVP8FrameSize_eq _ hd, Option.bind_eq_bind, Option.bind_some]
    have hsize : ∀ t, (RtpVP8Parser.parseVP8FrameSize { vp8 with frameType := t }
        (b :: rest)).data = none :=
      fun t => (parseVP8FrameSize_data { vp8 with frameType := t } _).trans hnone
    unfold RtpVP8Parser.parsePayload
    dsimp only
    rw [describe_of_data (hsize _), ← hlen]
    rfl

/-- The counts of the parser are right for every packet: it reads no byte outside, and what it
finds is what is found in the list of the bytes. -/
theorem parseVP8_eq (mem : List UInt8) :
    parseVP8 mem = (RtpVP8Parser.parseVP8 mem).map (describe mem) := by
  cases mem with
  | nil => rfl
  | cons b d =>
    have hlen : ((b :: d).length : ℤ) - 1 = d.length := by
      rw [List.length_cons]
      omega
    unfold parseVP8 RtpVP8Parser.parseVP8
    dsimp only
    rw [List.getElem?_cons_zero, Option.bind_eq_bind, Option.bind_some, hlen]
    split_ifs with hp hx
    · rfl
    · generalize hv : RTPPayloadVP8.mk _ _ _ _ _ _ _ _ _ _ _ _ _ _ _ _ = v
      have hnone : v.data = none := hv ▸ rfl
      have hleft : Leaves d (RtpVP8Parser.parseVP8Extension v d) := parseVP8Extension_leaves hnone
      have hagree : Agrees (b :: d) 1 (RtpVP8Parser.parseVP8Extension v d)
          (parseVP8Extension (b :: d) v 1 d.length) := parseVP8Extension_agrees v (by simp) rfl rfl
      cases hp : RtpVP8Parser.parseVP8Extension v d with
      | error e =>
        rw [hp] at hagree hleft
        generalize parseVP8Extension (b :: d) v 1 d.length = r at hagree ⊢
        cases hagree
        exact congrArg some (describe_of_none hleft).symm
      | ok r =>
        rw [hp] at hagree hleft
        generalize parseVP8Extension (b :: d) v 1 d.length = r' at hagree ⊢
        cases hagree with
        | @ok e rest c hat =>
          have hcount : (d.length : ℤ) - c.parsedBytes = rest.length := by
            have hin := hat.inside
            have hleft := congrArg List.length hat.left
            have hparsed := hat.parsed
            rw [List.length_drop] at hleft
            rw [List.length_cons] at hin hleft
            omega
          show parsePayload (b :: d) e (1 + c.parsedBytes) ((d.length : ℤ) - c.parsedBytes) = _
          rw [hcount, ← hat.parsed]
          exact parsePayload_eq hleft.2 hat.left
    · exact parsePayload_eq rfl rfl

/-! ### The id written over -/

/-- The writer reads and writes no byte outside, and writes what the list of the bytes says. -/
theorem setVP8PictureID_eq (hne : mem ≠ []) (p : ℤ) :
    setVP8PictureID mem p = some (Rtp.setVP8PictureID mem p) := by
  match mem, hne with
  | [b0], _ => simp [setVP8PictureID, Rtp.setVP8PictureID]
  | [b0, b1], _ => simp [setVP8PictureID, Rtp.setVP8PictureID]
  | [b0, b1, b2], _ =>
    by_cases hx : b0 &&& 0x80 = 0
    · simp [setVP8PictureID, Rtp.setVP8PictureID, hx]
    by_cases hi : b1 &&& 0x80 = 0
    · simp [setVP8PictureID, Rtp.setVP8PictureID, hx, hi]
    by_cases hm : b2 &&& 0x80 = 0 <;>
      simp [setVP8PictureID, Rtp.setVP8PictureID, hx, hi, hm, store]
  | b0 :: b1 :: b2 :: b3 :: rest, _ =>
    have hleft : ¬((rest.length : ℤ) + 1 + 1 + 1 ≤ 0) ∧ ¬((rest.length : ℤ) + 1 + 1 ≤ 0) ∧
        ¬((rest.length : ℤ) + 1 + 1 < 2) ∧ ¬((rest.length : ℤ) + 1 + 1 < 1) := by omega
    by_cases hx : b0 &&& 0x80 = 0
    · simp [setVP8PictureID, Rtp.setVP8PictureID, hx]
    by_cases hi : b1 &&& 0x80 = 0
    · simp [setVP8PictureID, Rtp.setVP8PictureID, hx, hi]
    by_cases hm : b2 &&& 0x80 = 0 <;>
      simp [setVP8PictureID, Rtp.setVP8PictureID, hx, hi, hm, store, hleft]

theorem exists_parseVP8 (hne : mem ≠ []) : ∃ vp8, RtpVP8Parser.parseVP8 mem = some vp8 := by
  cases mem with
  | nil => exact absurd rfl hne
  | cons b d =>
    unfold RtpVP8Parser.parseVP8
    dsimp only
    split_ifs
    · exact ⟨_, rfl⟩
    · cases RtpVP8Parser.parseVP8Extension _ d with
      | error vp8 => exact ⟨_, rfl⟩
      | ok r => exact ⟨_, rfl⟩
    · exact ⟨_, rfl⟩

/-- Where a payload is found, the bytes from its place on are the payload. -/
theorem drop_of_describe (h : RtpVP8Parser.parseVP8 mem = some vp8) {position : ℕ} {length : ℤ}
    (hd : (describe mem vp8).data = some (position, length)) :
    ∃ payload, vp8.data = some payload ∧ position = mem.length - payload.length ∧
      length = payload.length ∧ mem.drop position = payload := by
  obtain ⟨payload, hpay, heq⟩ := Option.map_eq_some_iff.mp hd
  obtain ⟨rfl, rfl⟩ := Prod.mk.inj heq
  cases mem with
  | nil => cases h
  | cons b d =>
    have hsuffix := (parseVP8_data h hpay).2.trans (List.suffix_cons b d)
    exact ⟨payload, hpay, rfl, rfl, (List.suffix_iff_eq_drop.mp hsuffix).symm⟩

/-- For every packet of at least one byte and every integer, all reads and writes are inside, and
where an id and a payload were found only the id changes. -/
theorem setVP8PictureID_parsed (mem : List UInt8) (hne : mem ≠ []) (p : ℤ) :
    ∃ before written after, parseVP8 mem = some before ∧ setVP8PictureID mem p = some written ∧
      parseVP8 written = some after ∧ written.length = mem.length ∧
      ∀ position length, before.vp8.hasPictureID = true → before.data = some (position, length) →
        after.vp8 = { before.vp8 with pictureID := p % idModulus mem } ∧
          after.data = some (position, length) ∧ written.drop position = mem.drop position := by
  obtain ⟨vp8, hvp8⟩ := exists_parseVP8 hne
  have hne' : Rtp.setVP8PictureID mem p ≠ [] := by
    rw [← List.length_pos_iff, length_setVP8PictureID, List.length_pos_iff]
    exact hne
  obtain ⟨vp8', hvp8'⟩ := exists_parseVP8 hne'
  refine ⟨describe mem vp8, Rtp.setVP8PictureID mem p, describe (Rtp.setVP8PictureID mem p) vp8', ?_,
    setVP8PictureID_eq hne p, ?_, length_setVP8PictureID mem p, fun position length hid hd => ?_⟩
  · rw [parseVP8_eq, hvp8, Option.map_some]
  · rw [parseVP8_eq, hvp8', Option.map_some]
  · obtain ⟨payload, hpay, rfl, rfl, hdrop⟩ := drop_of_describe hvp8 hd
    have hnew := RtpVP8Parser.parseVP8_setVP8PictureID hvp8 hid hpay p
    obtain rfl := Option.some.inj (hvp8'.symm.trans hnew)
    have hd' : (describe (Rtp.setVP8PictureID mem p) (withPictureID (p % idModulus mem) vp8)).data =
        some (mem.length - payload.length, (payload.length : ℤ)) := by
      simp only [describe, withPictureID, hpay, Option.map_some, length_setVP8PictureID]
    obtain ⟨payload', hpay', hpos, -, hdrop'⟩ := drop_of_describe hvp8' hd'
    obtain rfl : payload = payload' := Option.some.inj (hpay.symm.trans hpay')
    exact ⟨rfl, hd', hdrop'.trans hdrop.symm⟩

/-- A packet with an id of two bytes, the numbers of its layers and one byte of payload. -/
def layered : List UInt8 := [0x90, 0xF0, 0x92, 0x34, 0x07, 0x85, 0x01]

theorem setVP8PictureID_parsed_layered : ∃ before written after, parseVP8 layered = some before ∧
    setVP8PictureID layered (-1) = some written ∧ parseVP8 written = some after ∧
      before.vp8.pictureID = 0x1234 ∧ after.vp8.pictureID = 0x7FFF ∧ after.data = some (6, 1) := by
  obtain ⟨before, written, after, hbefore, hwritten, hafter, -, hsame⟩ :=
    setVP8PictureID_parsed layered (by decide) (-1)
  have hparsed : ∃ d, parseVP8 layered = some d ∧ d.vp8.hasPictureID = true ∧
      d.vp8.pictureID = 0x1234 ∧ d.data = some (6, 1) := by decide
  obtain ⟨d, hd, hid, hvalue, hdata⟩ := hparsed
  obtain rfl := Option.some.inj (hbefore.symm.trans hd)
  obtain ⟨hvp8, hplace, -⟩ := hsame 6 1 hid hdata
  have hmod : (-1 : ℤ) % idModulus layered = 0x7FFF := by decide
  rw [hmod] at hvp8
  exact ⟨before, written, after, hbefore, hwritten, hafter, hvalue, by rw [hvp8], hplace⟩

end KkLicode.Media.RtpVP8Parser.Checked
