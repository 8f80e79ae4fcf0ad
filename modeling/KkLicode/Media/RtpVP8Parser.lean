import Mathlib.Data.List.Infix
import Mathlib.Data.Int.Notation
import Mathlib.Data.Nat.Notation

/-! `RtpVP8Parser`: the payload descriptor of a VP8 packet. A parser of a part
takes what is left of the packet; where it fails, what was found so far is the
result. -/

namespace KkLicode.Media

inductive VP8FrameTypes where
  | kVP8IFrame | kVP8PFrame
  deriving DecidableEq, Repr

structure RTPPayloadVP8 where
  nonReferenceFrame : Bool := false
  beginningOfPartition : Bool := false
  partitionID : ℤ := -1
  hasPictureID : Bool := false
  hasTl0PicIdx : Bool := false
  hasTID : Bool := false
  hasKeyIdx : Bool := false
  pictureID : ℤ := -1
  tl0PicIdx : ℤ := -1
  tID : ℤ := -1
  layerSync : Bool := false
  keyIdx : ℤ := -1
  frameWidth : ℤ := -1
  frameHeight : ℤ := -1
  frameType : VP8FrameTypes := .kVP8PFrame
  /-- Without a value until the descriptor is read. -/
  data : Option (List UInt8) := none
  deriving DecidableEq, Repr

namespace RtpVP8Parser

/-- The result of a part, and what is left of the packet. -/
abbrev Parsed := Except RTPPayloadVP8 (RTPPayloadVP8 × List UInt8)

def parseVP8PictureID (vp8 : RTPPayloadVP8) : List UInt8 → Parsed
  | [] => .error vp8
  | b :: rest =>
    let vp8 := { vp8 with pictureID := (b &&& 0x7F).toNat }
    if b &&& 0x80 ≠ 0 then
      match rest with
      | [] => .error vp8
      | b' :: rest => .ok ({ vp8 with pictureID := vp8.pictureID * 256 + b'.toNat }, rest)
    else .ok (vp8, rest)

def parseVP8Tl0PicIdx (vp8 : RTPPayloadVP8) : List UInt8 → Parsed
  | [] => .error vp8
  | b :: rest => .ok ({ vp8 with tl0PicIdx := b.toNat }, rest)

def parseVP8TIDAndKeyIdx (vp8 : RTPPayloadVP8) : List UInt8 → Parsed
  | [] => .error vp8
  | b :: rest =>
    let vp8 :=
      if vp8.hasTID then { vp8 with tID := (b >>> 6 &&& 0x03).toNat, layerSync := b &&& 0x20 ≠ 0 }
      else vp8
    let vp8 := if vp8.hasKeyIdx then { vp8 with keyIdx := (b &&& 0x1F).toNat } else vp8
    .ok (vp8, rest)

/-- Only key frames of some length have a size. -/
def parseVP8FrameSize (vp8 : RTPPayloadVP8) (data : List UInt8) : RTPPayloadVP8 :=
  if vp8.frameType ≠ .kVP8IFrame then vp8
  else if data.length < 10 then vp8
  else
    let at14 (i : ℕ) : ℕ := ((data.getD (i + 1) 0).toNat <<< 8 + (data.getD i 0).toNat) &&& 0x3FFF
    { vp8 with frameWidth := at14 6, frameHeight := at14 8 }

/-- A part that is there if its bit is set. -/
def optional (bit : Bool) (part : RTPPayloadVP8 → List UInt8 → Parsed)
    (r : RTPPayloadVP8 × List UInt8) : Parsed :=
  if bit then part r.1 r.2 else .ok r

def parseVP8Extension (vp8 : RTPPayloadVP8) : List UInt8 → Parsed
  | [] => .error vp8
  | b :: rest => do
    let vp8 := { vp8 with
      hasPictureID := b &&& 0x80 ≠ 0
      hasTl0PicIdx := b &&& 0x40 ≠ 0
      hasTID := b &&& 0x20 ≠ 0
      hasKeyIdx := b &&& 0x10 ≠ 0 }
    let r ← optional vp8.hasPictureID parseVP8PictureID (vp8, rest)
    let r ← optional r.1.hasTl0PicIdx parseVP8Tl0PicIdx r
    optional (r.1.hasTID || r.1.hasKeyIdx) parseVP8TIDAndKeyIdx r

/-- The part behind the descriptor. -/
def parsePayload (vp8 : RTPPayloadVP8) (data : List UInt8) : RTPPayloadVP8 :=
  match data with
  | [] => vp8
  | b :: _ =>
    let vp8 := { vp8 with
      frameType :=
        if vp8.beginningOfPartition ∧ vp8.partitionID = 0 then
          if b &&& 0x01 ≠ 0 then .kVP8PFrame else .kVP8IFrame
        else .kVP8PFrame }
    { parseVP8FrameSize vp8 data with data := some data }

/-- There is no result for a packet without a descriptor, which is read past its end. -/
def parseVP8 : List UInt8 → Option RTPPayloadVP8
  | [] => none
  | b :: rest =>
    let vp8 : RTPPayloadVP8 :=
      { nonReferenceFrame := b &&& 0x20 ≠ 0
        beginningOfPartition := b &&& 0x10 ≠ 0
        partitionID := (b &&& 0x0F).toNat }
    if vp8.partitionID > 8 then some vp8
    else if b &&& 0x80 ≠ 0 then
      match parseVP8Extension vp8 rest with
      | .error vp8 => some vp8
      | .ok (vp8, rest) => some (parsePayload vp8 rest)
    else some (parsePayload vp8 rest)

variable {vp8 vp8' : RTPPayloadVP8} {d rest payload : List UInt8} {b : UInt8}

/-- What a part leaves is an end of the packet. -/
def Leaves (d : List UInt8) : Parsed → Prop
  | .ok (vp8, rest) => rest <:+ d ∧ vp8.data = none
  | .error vp8 => vp8.data = none

theorem Leaves.bind {p : Parsed} {f : RTPPayloadVP8 × List UInt8 → Parsed} (h : Leaves d p)
    (hf : ∀ r : RTPPayloadVP8 × List UInt8, r.1.data = none → Leaves r.2 (f r)) :
    Leaves d (p >>= f) := by
  cases p with
  | error vp8 => exact h
  | ok r =>
    have hr := hf r h.2
    show Leaves d (f r)
    cases hfr : f r with
    | error vp8 =>
      rw [hfr] at hr
      exact hr
    | ok r' =>
      rw [hfr] at hr
      exact ⟨hr.1.trans h.1, hr.2⟩

theorem optional_leaves {bit : Bool} {part : RTPPayloadVP8 → List UInt8 → Parsed}
    (hp : ∀ {vp8 d}, vp8.data = none → Leaves d (part vp8 d)) {r : RTPPayloadVP8 × List UInt8}
    (h : r.1.data = none) : Leaves r.2 (optional bit part r) := by
  rw [optional]
  split_ifs
  · exact hp h
  · exact ⟨List.suffix_refl _, h⟩

theorem parseVP8PictureID_leaves (h : vp8.data = none) : Leaves d (parseVP8PictureID vp8 d) := by
  cases d with
  | nil => exact h
  | cons b rest =>
    unfold parseVP8PictureID
    dsimp only
    split_ifs
    · cases rest with
      | nil => exact h
      | cons b' rest => exact ⟨(List.suffix_cons _ _).trans (List.suffix_cons _ _), h⟩
    · exact ⟨List.suffix_cons _ _, h⟩

theorem parseVP8Tl0PicIdx_leaves (h : vp8.data = none) :
    Leaves d (parseVP8Tl0PicIdx vp8 d) := by
  cases d with
  | nil => exact h
  | cons b rest => exact ⟨List.suffix_cons _ _, h⟩

theorem parseVP8TIDAndKeyIdx_leaves (h : vp8.data = none) :
    Leaves d (parseVP8TIDAndKeyIdx vp8 d) := by
  cases d with
  | nil => exact h
  | cons b rest =>
    rw [parseVP8TIDAndKeyIdx]
    refine ⟨List.suffix_cons _ _, ?_⟩
    split_ifs <;> exact h

theorem parseVP8Extension_leaves (h : vp8.data = none) :
    Leaves d (parseVP8Extension vp8 d) := by
  cases d with
  | nil => exact h
  | cons b d =>
    have hpart : Leaves d (parseVP8Extension vp8 (b :: d)) := by
      refine (optional_leaves parseVP8PictureID_leaves ?_).bind fun r h => ?_
      · exact h
      refine (optional_leaves parseVP8Tl0PicIdx_leaves h).bind fun r h => ?_
      exact optional_leaves parseVP8TIDAndKeyIdx_leaves h
    cases hp : parseVP8Extension vp8 (b :: d) with
    | error vp8 =>
      rw [hp] at hpart
      exact hpart
    | ok r =>
      rw [hp] at hpart
      exact ⟨hpart.1.trans (List.suffix_cons _ _), hpart.2⟩

theorem parsePayload_data (h : vp8.data = none) :
    (parsePayload vp8 d).data = if d = [] then none else some d := by
  cases d with
  | nil => exact h
  | cons b d => rfl

/-- What is given out is an end of the packet behind its first byte, and not empty. -/
theorem parseVP8_data (h : parseVP8 (b :: d) = some vp8) (hd : vp8.data = some payload) :
    payload ≠ [] ∧ payload <:+ d := by
  have hpay {vp8 : RTPPayloadVP8} {rest : List UInt8} (hn : vp8.data = none) (hs : rest <:+ d)
      (hd : (parsePayload vp8 rest).data = some payload) : payload ≠ [] ∧ payload <:+ d := by
    rw [parsePayload_data hn, Option.ite_none_left_eq_some, Option.some.injEq] at hd
    obtain ⟨hne, rfl⟩ := hd
    exact ⟨hne, hs⟩
  unfold parseVP8 at h
  dsimp only at h
  split_ifs at h
  · obtain rfl := Option.some.inj h
    cases hd
  · generalize hv : RTPPayloadVP8.mk _ _ _ _ _ _ _ _ _ _ _ _ _ _ _ _ = v at h
    have hleft : Leaves d (parseVP8Extension v d) := parseVP8Extension_leaves (hv ▸ rfl)
    cases hp : parseVP8Extension v d with
    | error e =>
      rw [hp] at h hleft
      obtain rfl := Option.some.inj h
      rw [show e.data = none from hleft] at hd
      cases hd
    | ok r =>
      rw [hp] at h hleft
      obtain rfl := Option.some.inj h
      exact hpay hleft.2 hleft.1 hd
  · obtain rfl := Option.some.inj h
    exact hpay rfl (List.suffix_refl _) hd

/-- The shortest descriptor, at the start of a partition or not. -/
theorem parseVP8_plain (hb : b = 0x00 ∨ b = 0x10) (hd : d ≠ []) :
    ∃ vp8, parseVP8 (b :: d) = some vp8 ∧ vp8.data = some d := by
  rcases hb with rfl | rfl
  · exact ⟨_, rfl, (parsePayload_data rfl).trans (if_neg hd)⟩
  · exact ⟨_, rfl, (parsePayload_data rfl).trans (if_neg hd)⟩

end RtpVP8Parser

end KkLicode.Media
