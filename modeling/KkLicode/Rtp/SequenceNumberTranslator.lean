import Mathlib.Logic.Function.Basic
import KkLicode.Base.Runs
import KkLicode.Base.Serial

/-! `SequenceNumberTranslator`, the renumbering of RTP packets. Inputs are mapped
to outputs through two tables of 1023 slots, one indexed by the input modulo
1023 and one by the output. Numbers for missing packets are reserved when a
later packet arrives; packets can be left out (`skip`) and numbers can be
generated for packets of the handler's own. -/

namespace KkLicode.Rtp

open Base Base.Serial

/-- `RtpUtils::sequenceNumberLessThan`. -/
def sequenceNumberLessThan (first last : UInt16) : Bool :=
  let result : UInt16 := first - last
  result > 0xF000

/-- A number is less than the 4095 numbers after it, and than no others. -/
theorem sequenceNumberLessThan_iff {a b : UInt16} :
    sequenceNumberLessThan a b = true ↔ 1 ≤ ahead a b ∧ ahead a b ≤ 4095 := by
  have ha := a.toNat_lt
  have hb := b.toNat_lt
  simp only [sequenceNumberLessThan, decide_eq_true_eq, gt_iff_lt, UInt16.lt_iff_toNat_lt, ahead,
    UInt16.toNat_sub, UInt16.reduceToNat]
  omega

theorem sequenceNumberLessThan_false_iff {a b : UInt16} :
    sequenceNumberLessThan a b = false ↔ ahead a b = 0 ∨ 4096 ≤ ahead a b := by
  rw [← Bool.not_eq_true, sequenceNumberLessThan_iff]
  omega

@[simp] theorem sequenceNumberLessThan_self (a : UInt16) : sequenceNumberLessThan a a = false := by
  simp [sequenceNumberLessThan_false_iff]

def kMaxSequenceNumberInBuffer : ℕ := 1023
def kMaxDistance : UInt16 := 500

inductive SequenceNumberType where
  | valid | skip | discard | generated
  deriving DecidableEq, Repr

structure SequenceNumber where
  input : UInt16
  output : UInt16
  type : SequenceNumberType
  deriving DecidableEq, Repr

/-- The default constructor. -/
instance : Inhabited SequenceNumber := ⟨⟨0, 0, .valid⟩⟩

/-- A number that was handed out, for a packet or as one of its own. -/
def SequenceNumber.HandedOut (s : SequenceNumber) : Prop := s.type = .valid ∨ s.type = .generated

instance : DecidablePred SequenceNumber.HandedOut :=
  fun s => inferInstanceAs (Decidable (s.type = .valid ∨ s.type = .generated))

/-- The output handed out by a call, if any. -/
def handedOut (result : Option SequenceNumber) : Option UInt16 :=
  (result.filter (fun s => s.HandedOut)).map (·.output)

abbrev Slot := Fin kMaxSequenceNumberInBuffer
abbrev Buffer := Slot → SequenceNumber

/-- The slot of a number, its residue modulo `kMaxSequenceNumberInBuffer`. -/
def slot (n : UInt16) : Slot := ⟨n.toNat % kMaxSequenceNumberInBuffer, Nat.mod_lt _ (by decide)⟩

theorem slot_eq_iff {a b : UInt16} : slot a = slot b ↔ a.toNat % 1023 = b.toNat % 1023 :=
  Fin.ext_iff

structure SequenceNumberTranslator where
  inOutBuffer : Buffer := fun _ => default
  outInBuffer : Buffer := fun _ => default
  firstInputSequenceNumber : UInt16 := 0
  lastInputSequenceNumber : UInt16 := 0
  lastOutputSequenceNumber : UInt16 := 0
  offset : UInt16 := 0
  initialized : Bool := false
  reset_ : Bool := false

namespace SequenceNumberTranslator

def add (t : SequenceNumberTranslator) (s : SequenceNumber) : SequenceNumberTranslator :=
  { t with
    inOutBuffer := Function.update t.inOutBuffer (slot s.input) s
    outInBuffer := Function.update t.outInBuffer (slot s.output) s }

/-- The loop of `fill`: `for (n = first; n < last; n++) add(n, output++)`. The
loop ends by its own test after at most 4095 turns, see `fillLoop_fuel`. -/
def fillLoop : ℕ → SequenceNumberTranslator → UInt16 → UInt16 → UInt16 →
    SequenceNumberTranslator × UInt16
  | 0, t, _, _, output => (t, output)
  | fuel + 1, t, n, last, output =>
    if sequenceNumberLessThan n last then
      fillLoop fuel (t.add ⟨n, output, .valid⟩) (n + 1) last (output + 1)
    else (t, output)

/-- One call of `fill` that does not wrap. -/
def fillRange (t : SequenceNumberTranslator) (first last : UInt16) :
    SequenceNumberTranslator × UInt16 :=
  fillLoop 4095 t first last (t.lastOutputSequenceNumber + t.offset + 1)

/-- `fill`. The two inner calls are made for `first ≤ 65535` and `0 ≤ last`, so
they do not wrap again. -/
def fill (t : SequenceNumberTranslator) (first last : UInt16) :
    SequenceNumberTranslator × UInt16 :=
  let t := if last < first then ((t.fillRange first 65535).1.fillRange 0 last).1 else t
  t.fillRange first last

def internalGet (t : SequenceNumberTranslator) (input : UInt16) : SequenceNumber :=
  t.inOutBuffer (slot input)

def internalReverse (t : SequenceNumberTranslator) (output : UInt16) : SequenceNumber :=
  t.outInBuffer (slot output)

/-- `get(input) const`. -/
def getConst (t : SequenceNumberTranslator) (input : UInt16) : SequenceNumber :=
  let result := t.inOutBuffer (slot input)
  if result.input = input then result else ⟨0, 0, .skip⟩

def generate (t : SequenceNumberTranslator) : SequenceNumberTranslator × SequenceNumber :=
  let offset := t.offset + 1
  let output := offset + t.lastOutputSequenceNumber
  let s : SequenceNumber := ⟨0, output, .generated⟩
  ({ t with offset := offset, outInBuffer := Function.update t.outInBuffer (slot s.output) s }, s)

def updateLastOutputSequenceNumber (t : SequenceNumberTranslator) (skip : Bool) (output : UInt16) :
    SequenceNumberTranslator :=
  let firstPacket := !t.initialized && !(t.reset_ || t.offset > 0)
  { t with
    lastOutputSequenceNumber :=
      if !skip && (sequenceNumberLessThan t.lastOutputSequenceNumber output || firstPacket) then output
      else t.lastOutputSequenceNumber }

/-- The type a packet is entered with. -/
def entryType (skip : Bool) : SequenceNumberType := if skip then .skip else .valid

/-- The oldest input that is still looked up once `input` is the newest. -/
def nextFirst (t : SequenceNumberTranslator) (input : UInt16) : UInt16 :=
  if sequenceNumberLessThan t.firstInputSequenceNumber (input - kMaxDistance) then
    input - kMaxDistance
  else t.firstInputSequenceNumber

/-- The branch of `get` taken until a packet is not skipped. -/
def getFirst (t : SequenceNumberTranslator) (input : UInt16) (skip : Bool) :
    SequenceNumberTranslator × SequenceNumber :=
  let output := if t.reset_ || t.offset > 0 then t.lastOutputSequenceNumber + t.offset + 1 else input
  let t := t.add ⟨input, output, entryType skip⟩
  let t := t.updateLastOutputSequenceNumber skip output
  let t := if !skip then
      { t with lastInputSequenceNumber := input, firstInputSequenceNumber := input,
               initialized := true, reset_ := false, offset := 0 }
    else t
  (t, t.getConst input)

/-- The branch of `get` taken by a packet newer than all others. -/
def getForward (t : SequenceNumberTranslator) (input : UInt16) (skip : Bool) :
    SequenceNumberTranslator × SequenceNumber :=
  let (t, output) := t.fill (t.lastInputSequenceNumber + 1) input
  let t := t.updateLastOutputSequenceNumber skip output
  let t := t.add ⟨input, output, entryType skip⟩
  let t := { t with
    lastInputSequenceNumber := input, firstInputSequenceNumber := t.nextFirst input }
  let info := t.getConst input
  ({ t with offset := if !skip then 0 else t.offset }, info)

/-- The branch of `get` taken by a packet that is late or sent again. The slot is
read without a look at the input it holds. -/
def getLate (t : SequenceNumberTranslator) (input : UInt16) (skip : Bool) :
    SequenceNumberTranslator × SequenceNumber :=
  let result := t.internalGet input
  let (t, result) := if result.type = .valid then
      let type := if skip then .discard else .valid
      let result' := { result with type := type }
      ({ t with
         outInBuffer := Function.update t.outInBuffer (slot result.output)
           { t.internalReverse result.output with type := type }
         inOutBuffer := Function.update t.inOutBuffer (slot input) result' }, result')
    else (t, result)
  (t.updateLastOutputSequenceNumber skip result.output, result)

/-- `get(input, skip)`. -/
def get (t : SequenceNumberTranslator) (input : UInt16) (skip : Bool) :
    SequenceNumberTranslator × SequenceNumber :=
  if !t.initialized then t.getFirst input skip
  else if sequenceNumberLessThan input t.firstInputSequenceNumber then (t, ⟨input, 0, .skip⟩)
  else if sequenceNumberLessThan t.lastInputSequenceNumber input then t.getForward input skip
  else t.getLate input skip

def reverse (t : SequenceNumberTranslator) (output : UInt16) : SequenceNumber :=
  let result := t.outInBuffer (slot output)
  if result.output ≠ output || sequenceNumberLessThan result.input t.firstInputSequenceNumber ||
      sequenceNumberLessThan t.lastInputSequenceNumber result.input then
    ⟨0, output, .discard⟩
  else result

def reset (t : SequenceNumberTranslator) : SequenceNumberTranslator :=
  if !t.initialized then t
  else
    { t with
      initialized := false, reset_ := true
      firstInputSequenceNumber := 0, lastInputSequenceNumber := 0
      inOutBuffer := fun _ => default, outInBuffer := fun _ => default }

/-! ### Runs -/

/-- The calls of a translator. -/
inductive Call where
  | get (input : UInt16) (skip : Bool)
  | generate
  | reset
  deriving DecidableEq, Repr

/-- A call with the number it returns; `reset` returns none. -/
def call (t : SequenceNumberTranslator) : Call → SequenceNumberTranslator × Option SequenceNumber
  | .get input skip => let r := t.get input skip; (r.1, some r.2)
  | .generate => let r := t.generate; (r.1, some r.2)
  | .reset => (t.reset, none)

/-- The outputs handed out by a run, in the order of its calls. -/
def outputs (t : SequenceNumberTranslator) (calls : List Call) : List UInt16 :=
  (Runs.trace call t calls).filterMap fun r => handedOut r.2

end SequenceNumberTranslator

end KkLicode.Rtp
