import Mathlib.Data.Nat.Bitwise

/-! `RtpVP9Parser`: the payload descriptor of a VP9 packet. The parser is not told how
much of the packet is left, so it goes on behind its end where the descriptor does, and
the length it gives out is that of the whole packet. -/

namespace KkLicode.Media

inductive VP9FrameTypes where
  | kVP9IFrame | kVP9PFrame
  deriving DecidableEq, Repr

structure VP9ResolutionLayer where
  width : ℤ
  height : ℤ
  deriving DecidableEq, Repr

/-- `data` is given by its distance from the start of the packet. -/
structure RTPPayloadVP9 where
  hasPictureID : Bool := false
  interPicturePrediction : Bool := false
  hasLayerIndices : Bool := false
  flexibleMode : Bool := false
  beginningOfLayerFrame : Bool := false
  endingOfLayerFrame : Bool := false
  hasScalabilityStructure : Bool := false
  largePictureID : Bool := false
  pictureID : ℤ := -1
  temporalID : ℤ := -1
  isSwitchingUp : Bool := false
  spatialID : ℤ := -1
  isInterLayeredDepUsed : Bool := false
  tl0PicIdx : ℤ := -1
  referenceIdx : ℤ := -1
  additionalReferenceIdx : Bool := false
  spatialLayers : ℤ := -1
  hasResolution : Bool := false
  hasGof : Bool := false
  numberOfFramesInGof : ℤ := -1
  resolutions : List VP9ResolutionLayer := []
  data : ℕ := 0
  dataLength : ℕ := 0
  frameType : VP9FrameTypes := .kVP9PFrame
  deriving DecidableEq, Repr

namespace RtpVP9Parser

/-- The bytes of a short change places, as on the machines the code is made for. -/
def ntohs (x : UInt16) : UInt16 := x <<< 8 ||| x >>> 8

-- the bytes of the packet: there is no result where a byte behind them is read
variable (mem : List UInt8)

/-- The fields of the first byte. -/
def parseFlags (b : UInt8) : RTPPayloadVP9 where
  hasPictureID := b &&& 0x80 ≠ 0
  interPicturePrediction := b &&& 0x40 ≠ 0
  frameType := if b &&& 0x40 ≠ 0 then .kVP9PFrame else .kVP9IFrame
  hasLayerIndices := b &&& 0x20 ≠ 0
  flexibleMode := b &&& 0x10 ≠ 0
  beginningOfLayerFrame := b &&& 0x08 ≠ 0
  endingOfLayerFrame := b &&& 0x04 ≠ 0
  hasScalabilityStructure := b &&& 0x02 ≠ 0

/-- The id is an `int`, of which `ntohs` takes the lower sixteen bits. -/
def parsePictureID (vp9 : RTPPayloadVP9) (dataPtr : ℕ) : Option (RTPPayloadVP9 × ℕ) := do
  let b ← mem[dataPtr]?
  let vp9 := { vp9 with
    largePictureID := b &&& 0x80 ≠ 0
    pictureID := (b &&& 0x7F).toNat }
  if vp9.largePictureID then
    let b' ← mem[dataPtr + 1]?
    let pictureID := ntohs (.ofInt (vp9.pictureID * 2 ^ 16 + b'.toNat))
    return ({ vp9 with pictureID := pictureID.toNat }, dataPtr + 2)
  else return (vp9, dataPtr + 1)

/-- The reference indices, up to one without the `D` bit. -/
def parseReferences (vp9 : RTPPayloadVP9) (dataPtr : ℕ) : List UInt8 → Option (RTPPayloadVP9 × ℕ)
  | [] => none
  | b :: rest =>
    let vp9 := { vp9 with
      referenceIdx := ((b &&& 0xFE) >>> 1).toNat
      additionalReferenceIdx := b &&& 0x01 ≠ 0 }
    if vp9.additionalReferenceIdx then parseReferences vp9 (dataPtr + 1) rest
    else some (vp9, dataPtr + 1)

def parseLayerIndices (vp9 : RTPPayloadVP9) (dataPtr : ℕ) : Option (RTPPayloadVP9 × ℕ) := do
  let b ← mem[dataPtr]?
  let vp9 := { vp9 with
    temporalID := ((b &&& 0xE0) >>> 5).toNat
    isSwitchingUp := b &&& 0x10 ≠ 0
    spatialID := ((b &&& 0x0E) >>> 1).toNat
    isInterLayeredDepUsed := b &&& 0x01 ≠ 0 }
  if vp9.flexibleMode then parseReferences vp9 (dataPtr + 1) (mem.drop (dataPtr + 1))
  else
    let b' ← mem[dataPtr + 1]?
    return ({ vp9 with tl0PicIdx := b'.toNat }, dataPtr + 2)

def parseResolutions (vp9 : RTPPayloadVP9) (dataPtr : ℕ) : ℕ → Option (RTPPayloadVP9 × ℕ)
  | 0 => some (vp9, dataPtr)
  | n + 1 => do
    let w1 ← mem[dataPtr]?
    let w2 ← mem[dataPtr + 1]?
    let h1 ← mem[dataPtr + 2]?
    let h2 ← mem[dataPtr + 3]?
    let layer : VP9ResolutionLayer :=
      ⟨(w1.toNat <<< 8 + w2.toNat : ℕ), (h1.toNat <<< 8 + h2.toNat : ℕ)⟩
    parseResolutions { vp9 with resolutions := vp9.resolutions ++ [layer] } (dataPtr + 4) n

/-- The frames of the group; their reference indices are passed over without a look. -/
def skipFrames (dataPtr : ℕ) : ℕ → Option ℕ
  | 0 => some dataPtr
  | n + 1 => do
    let b ← mem[dataPtr]?
    skipFrames (dataPtr + 1 + ((b &&& 0x0C) >>> 2).toNat) n

def parseGof (vp9 : RTPPayloadVP9) (dataPtr : ℕ) : Option (RTPPayloadVP9 × ℕ) := do
  let b ← mem[dataPtr]?
  let dataPtr ← skipFrames mem (dataPtr + 1) b.toNat
  return ({ vp9 with numberOfFramesInGof := b.toNat }, dataPtr)

/-- A part that is there if its bit is set. -/
def optional (bit : Bool) (part : RTPPayloadVP9 → ℕ → Option (RTPPayloadVP9 × ℕ))
    (r : RTPPayloadVP9 × ℕ) : Option (RTPPayloadVP9 × ℕ) :=
  if bit then part r.1 r.2 else some r

def parseScalabilityStructure (vp9 : RTPPayloadVP9) (dataPtr : ℕ) :
    Option (RTPPayloadVP9 × ℕ) := do
  let b ← mem[dataPtr]?
  let vp9 := { vp9 with
    spatialLayers := ((b &&& 0xE0) >>> 5).toNat
    hasResolution := b &&& 0x10 ≠ 0
    hasGof := b &&& 0x08 ≠ 0 }
  let r ← optional vp9.hasResolution
    (fun vp9 dataPtr => parseResolutions mem vp9 dataPtr (vp9.spatialLayers + 1).toNat)
    (vp9, dataPtr + 1)
  optional r.1.hasGof (parseGof mem) r

def parseVP9 : Option RTPPayloadVP9 := do
  let b ← mem[0]?
  let vp9 := parseFlags b
  let r ← optional vp9.hasPictureID (parsePictureID mem) (vp9, 1)
  let r ← optional r.1.hasLayerIndices (parseLayerIndices mem) r
  let r ← optional r.1.hasScalabilityStructure (parseScalabilityStructure mem) r
  return { r.1 with data := r.2, dataLength := mem.length }

/-! ### What the parts leave -/

variable {mem} {vp9 : RTPPayloadVP9} {dataPtr : ℕ} {r : RTPPayloadVP9 × ℕ}

/-- A part goes forward and leaves the picture id alone. -/
structure Keeps (vp9 : RTPPayloadVP9) (dataPtr : ℕ) (r : RTPPayloadVP9 × ℕ) : Prop where
  forward : dataPtr ≤ r.2
  hasPictureID : r.1.hasPictureID = vp9.hasPictureID
  largePictureID : r.1.largePictureID = vp9.largePictureID
  pictureID : r.1.pictureID = vp9.pictureID

theorem Keeps.refl (vp9 : RTPPayloadVP9) (dataPtr : ℕ) : Keeps vp9 dataPtr (vp9, dataPtr) :=
  ⟨le_rfl, rfl, rfl, rfl⟩

theorem Keeps.after {vp9' : RTPPayloadVP9} {dataPtr' : ℕ} (h' : Keeps vp9' dataPtr' r)
    (h : Keeps vp9 dataPtr (vp9', dataPtr')) : Keeps vp9 dataPtr r where
  forward := h.forward.trans h'.forward
  hasPictureID := h'.hasPictureID.trans h.hasPictureID
  largePictureID := h'.largePictureID.trans h.largePictureID
  pictureID := h'.pictureID.trans h.pictureID

theorem parseReferences_keeps {l : List UInt8} (h : parseReferences vp9 dataPtr l = some r) :
    Keeps vp9 dataPtr r := by
  induction l generalizing vp9 dataPtr with
  | nil => cases h
  | cons b rest ih =>
    rw [parseReferences] at h
    dsimp only at h
    split_ifs at h
    · exact (ih h).after ⟨Nat.le_succ _, rfl, rfl, rfl⟩
    · obtain rfl := Option.some.inj h
      exact ⟨Nat.le_succ _, rfl, rfl, rfl⟩

theorem parseLayerIndices_keeps (h : parseLayerIndices mem vp9 dataPtr = some r) :
    Keeps vp9 dataPtr r := by
  obtain ⟨b, -, h⟩ := Option.bind_eq_some_iff.mp h
  dsimp only at h
  split_ifs at h
  · exact (parseReferences_keeps h).after ⟨Nat.le_succ _, rfl, rfl, rfl⟩
  · obtain ⟨b', -, h⟩ := Option.bind_eq_some_iff.mp h
    obtain rfl := Option.some.inj h
    exact ⟨Nat.le_add_right _ 2, rfl, rfl, rfl⟩

theorem parseResolutions_keeps {n : ℕ} (h : parseResolutions mem vp9 dataPtr n = some r) :
    Keeps vp9 dataPtr r := by
  induction n generalizing vp9 dataPtr with
  | zero =>
    obtain rfl := Option.some.inj h
    exact .refl vp9 dataPtr
  | succ n ih =>
    obtain ⟨w1, -, h⟩ := Option.bind_eq_some_iff.mp h
    obtain ⟨w2, -, h⟩ := Option.bind_eq_some_iff.mp h
    obtain ⟨h1, -, h⟩ := Option.bind_eq_some_iff.mp h
    obtain ⟨h2, -, h⟩ := Option.bind_eq_some_iff.mp h
    exact (ih h).after ⟨Nat.le_add_right _ 4, rfl, rfl, rfl⟩

theorem skipFrames_le {n dataPtr' : ℕ} (h : skipFrames mem dataPtr n = some dataPtr') :
    dataPtr ≤ dataPtr' := by
  induction n generalizing dataPtr with
  | zero => exact (Option.some.inj h).le
  | succ n ih =>
    obtain ⟨b, -, h⟩ := Option.bind_eq_some_iff.mp h
    have := ih h
    omega

theorem parseGof_keeps (h : parseGof mem vp9 dataPtr = some r) : Keeps vp9 dataPtr r := by
  obtain ⟨b, -, h⟩ := Option.bind_eq_some_iff.mp h
  obtain ⟨dataPtr', hskip, h⟩ := Option.bind_eq_some_iff.mp h
  obtain rfl := Option.some.inj h
  exact ⟨(Nat.le_succ _).trans (skipFrames_le hskip), rfl, rfl, rfl⟩

theorem optional_keeps {bit : Bool} {part : RTPPayloadVP9 → ℕ → Option (RTPPayloadVP9 × ℕ)}
    (hpart : ∀ {vp9 dataPtr r}, part vp9 dataPtr = some r → Keeps vp9 dataPtr r)
    (h : optional bit part (vp9, dataPtr) = some r) : Keeps vp9 dataPtr r := by
  cases bit with
  | true => exact hpart h
  | false =>
    obtain rfl := Option.some.inj h
    exact .refl vp9 dataPtr

theorem parseScalabilityStructure_keeps
    (h : parseScalabilityStructure mem vp9 dataPtr = some r) : Keeps vp9 dataPtr r := by
  obtain ⟨b, -, h⟩ := Option.bind_eq_some_iff.mp h
  obtain ⟨r', hres, h⟩ := Option.bind_eq_some_iff.mp h
  have hkeep := (optional_keeps parseGof_keeps h).after (optional_keeps parseResolutions_keeps hres)
  exact hkeep.after ⟨Nat.le_succ _, rfl, rfl, rfl⟩

/-! ### The picture id -/

/-- The first byte of an id of two bytes is shifted out of the sixteen bits. -/
theorem toNat_ntohs (x : ℤ) (b : UInt8) :
    (ntohs (.ofInt (x * 2 ^ 16 + b.toNat))).toNat = b.toNat * 256 := by
  have hb := b.toNat_lt
  have hlow : (UInt16.ofInt (x * 2 ^ 16 + b.toNat)).toNat = b.toNat := by
    rw [UInt16.ofInt, UInt16.toNat_ofNat']
    omega
  have hzero : b.toNat / 256 = 0 := Nat.div_eq_of_lt hb
  rw [ntohs, UInt16.toNat_or, UInt16.toNat_shiftLeft, UInt16.toNat_shiftRight, hlow,
    Nat.shiftLeft_eq, Nat.shiftRight_eq_div_pow]
  show b.toNat * 256 % 65536 ||| b.toNat / 256 = b.toNat * 256
  rw [hzero, Nat.or_zero]
  omega

theorem parsePictureID_spec (h : parsePictureID mem vp9 dataPtr = some r) :
    dataPtr ≤ r.2 ∧ r.1.hasPictureID = vp9.hasPictureID ∧ (r.1.largePictureID = true →
      ∃ second, mem[dataPtr + 1]? = some second ∧ r.1.pictureID = second.toNat * 256) := by
  obtain ⟨b, -, h⟩ := Option.bind_eq_some_iff.mp h
  dsimp only at h
  split_ifs at h with hm
  · obtain ⟨second, hsecond, h⟩ := Option.bind_eq_some_iff.mp h
    obtain rfl := Option.some.inj h
    refine ⟨Nat.le_add_right _ 2, rfl, fun _ => ⟨second, hsecond, ?_⟩⟩
    dsimp only
    rw [toNat_ntohs]
    omega
  · obtain rfl := Option.some.inj h
    exact ⟨Nat.le_succ _, rfl, fun hl => absurd hl hm⟩

theorem parseVP9_spec (h : parseVP9 mem = some vp9) :
    1 ≤ vp9.data ∧ vp9.dataLength = mem.length ∧
      (vp9.hasPictureID = true → vp9.largePictureID = true →
        ∃ second, mem[2]? = some second ∧ vp9.pictureID = second.toNat * 256) := by
  obtain ⟨b, -, h⟩ := Option.bind_eq_some_iff.mp h
  obtain ⟨r₁, hid, h⟩ := Option.bind_eq_some_iff.mp h
  obtain ⟨r₂, hlayers, h⟩ := Option.bind_eq_some_iff.mp h
  obtain ⟨r₃, hstructure, h⟩ := Option.bind_eq_some_iff.mp h
  obtain rfl := Option.some.inj h
  have hkeep := (optional_keeps parseScalabilityStructure_keeps hstructure).after
    (optional_keeps parseLayerIndices_keeps hlayers)
  have hforward := hkeep.forward
  dsimp only
  rw [hkeep.hasPictureID, hkeep.largePictureID, hkeep.pictureID]
  cases hbit : (parseFlags b).hasPictureID with
  | true =>
    rw [hbit] at hid
    obtain ⟨hle, -, hlarge⟩ := parsePictureID_spec hid
    exact ⟨hle.trans hforward, rfl, fun _ => hlarge⟩
  | false =>
    rw [hbit] at hid
    obtain rfl := Option.some.inj hid
    exact ⟨hforward, rfl, fun hhas => absurd hhas (by rw [hbit]; decide)⟩

/-- The packet is read within its end, the data reach up to its end, and an id of two bytes is read
as one number. -/
def ReadAs (mem : List UInt8) (vp9 : RTPPayloadVP9) : Prop :=
  parseVP9 mem = some vp9 ∧ vp9.data + vp9.dataLength = mem.length ∧
    (vp9.hasPictureID = true → vp9.largePictureID = true → ∀ first second, mem[1]? = some first →
      mem[2]? = some second → vp9.pictureID = (first.toNat % 128 : ℕ) * 256 + second.toNat)

/-- No packet is read so: where no byte behind the end is read, the data reach beyond the end by the
length of the descriptor, and an id of two bytes is right only if it is zero. -/
theorem not_readAs (mem : List UInt8) : (∀ vp9, ¬ ReadAs mem vp9) ∧
    ∀ vp9, parseVP9 mem = some vp9 → 1 ≤ vp9.data ∧
      vp9.data + vp9.dataLength = mem.length + vp9.data ∧
      (vp9.hasPictureID = true → vp9.largePictureID = true →
        ∀ first second, mem[1]? = some first → mem[2]? = some second →
          (vp9.pictureID = (first.toNat % 128 : ℕ) * 256 + second.toNat ↔
            first.toNat % 128 = 0 ∧ second = 0)) := by
  refine ⟨fun vp9 ⟨hparse, hend, _⟩ => ?_, fun vp9 hparse => ?_⟩
  · obtain ⟨hdata, hlength, -⟩ := parseVP9_spec hparse
    omega
  · obtain ⟨hdata, hlength, hlarge⟩ := parseVP9_spec hparse
    refine ⟨hdata, by omega, fun hhas hl first second hfirst hsecond => ?_⟩
    obtain ⟨second', hsecond', hid⟩ := hlarge hhas hl
    obtain rfl := Option.some.inj (hsecond.symm.trans hsecond')
    have hb := second.toNat_lt
    rw [hid, ← UInt8.toNat_inj, UInt8.toNat_zero]
    omega

/-- A packet of one byte behind the shortest descriptor. -/
theorem not_forall_readAs : ¬∀ mem : List UInt8, mem ≠ [] → ∃ vp9, ReadAs mem vp9 := by
  intro h
  obtain ⟨vp9, hparse, hend, -⟩ := h [0x00, 0x07] (List.cons_ne_nil _ _)
  have hvp9 : parseVP9 [0x00, 0x07] =
      some { frameType := .kVP9IFrame, data := 1, dataLength := 2 } := by decide
  rw [hvp9] at hparse
  obtain rfl := Option.some.inj hparse
  exact absurd hend (by decide)

end RtpVP9Parser

end KkLicode.Media
