import KkLicode.Rtp.PaddingBudget
import KkLicode.Rtp.RtpPaddingRemovalHandler
import KkLicode.Rtp.TranslatorSteps

/-! What is left of a packet without its padding. The length of the padding is the
last byte of the packet; it is compared with the payload for equality only, so a
packet that claims more padding than it has loses bytes of its header. -/

namespace KkLicode.Rtp

namespace SequenceNumberTranslator

variable (t : SequenceNumberTranslator)

/-- A number that no packet gets any more: it is before the window, or late with an entry that is
not valid. -/
def Outdated (n : UInt16) : Prop :=
  t.initialized = true ∧ (sequenceNumberLessThan n t.firstInputSequenceNumber = true ∨
    sequenceNumberLessThan t.lastInputSequenceNumber n = false ∧ (t.internalGet n).type ≠ .valid)

instance (n : UInt16) : Decidable (t.Outdated n) := by
  unfold Outdated
  infer_instance

theorem get_type_ne_valid_iff (n : UInt16) :
    (t.get n false).2.type ≠ .valid ↔ t.Outdated n := by
  unfold get Outdated
  cases hi : t.initialized with
  | false => simp [getFirst_eq _ hi, entryType]
  | true =>
    cases hf : sequenceNumberLessThan n t.firstInputSequenceNumber with
    | true => simp
    | false =>
      cases hl : sequenceNumberLessThan t.lastInputSequenceNumber n with
      | true => simp [getForward_eq _ hi _ hl, entryType]
      | false =>
        by_cases hv : (t.internalGet n).type = .valid <;> simp [getLate_eq _ hi, lateEntry, hv]

end SequenceNumberTranslator

namespace RtpPaddingRemovalHandler

variable {h : RtpPaddingRemovalHandler} {packet : DataPacket}

/-- The translator that `read` takes for a packet. -/
def translator (h : RtpPaddingRemovalHandler) (packet : DataPacket) : SequenceNumberTranslator :=
  (h.translatorMap packet.header.ssrc).getD {}

/-- A packet that is nothing but padding. -/
theorem read_padding (hv : packet.isVideo = true) (he : h.enabled = true)
    (hp : getPaddingLength packet + packet.header.headerLength = packet.length) :
    h.read packet = ({ h with
      translatorMap := Function.update h.translatorMap packet.header.ssrc
        (some ((h.translator packet).get packet.header.seqNumber true).1) }, none) := by
  simp [read, hv, he, hp, translator]

/-- Any other packet loses the bytes it claims to be padding, unless its number is outdated. -/
theorem read_other (hv : packet.isVideo = true) (he : h.enabled = true)
    (hp : getPaddingLength packet + packet.header.headerLength ≠ packet.length) :
    (h.read packet).2 = if (h.translator packet).Outdated packet.header.seqNumber then none
      else some ({ packet with header := { packet.header with
        padding := false
        seqNumber := ((h.translator packet).get packet.header.seqNumber false).2.output } },
          (packet.length : ℤ) - getPaddingLength packet) := by
  have ht := SequenceNumberTranslator.get_type_ne_valid_iff (h.translator packet) packet.header.seqNumber
  unfold read
  rw [if_pos (by rw [hv, he]; rfl)]
  dsimp only
  rw [if_neg hp]
  by_cases ho : (h.translator packet).Outdated packet.header.seqNumber
  · rw [if_pos ho]
    exact congrArg Prod.snd (if_pos (ht.mpr ho))
  · rw [if_neg ho]
    exact congrArg Prod.snd (if_neg (mt ht.mp ho))

/-- What goes on has no padding bit and at least the bytes of its header. -/
def Valid (result : Option (DataPacket × ℤ)) : Prop :=
  ∀ r, result = some r → r.1.header.padding = false ∧ (r.1.header.headerLength : ℤ) ≤ r.2

@[simp] theorem getPaddingLength_makePaddingPacket (packet : DataPacket) (size : UInt8) :
    getPaddingLength (makePaddingPacket packet size) = size.toNat := by
  simp [getPaddingLength, makePaddingPacket, DataPacket.lastByte]

/-- Padding packets are dropped, and their numbers skipped. -/
theorem read_makePaddingPacket (hv : packet.isVideo = true) (he : h.enabled = true) {size : UInt8}
    (hsize : size ≠ 0) :
    h.read (makePaddingPacket packet size) = ({ h with
      translatorMap := Function.update h.translatorMap packet.header.ssrc
        (some ((h.translator packet).get packet.header.seqNumber true).1) }, none) := by
  refine read_padding hv he ?_
  rw [getPaddingLength_makePaddingPacket, RtpPaddingGeneratorHandler.length_makePaddingPacket _ hsize,
    Nat.add_comm]
  rfl

/-- A packet is dropped or stays valid exactly if its padding is no longer than its payload, or its
number is outdated; padding packets are always dropped. -/
theorem read_valid_iff (h : RtpPaddingRemovalHandler) (packet : DataPacket) (he : h.enabled = true)
    (hv : packet.isVideo = true) :
    (Valid (h.read packet).2 ↔
      getPaddingLength packet + packet.header.headerLength ≤ packet.length ∨
        (h.translator packet).Outdated packet.header.seqNumber) ∧
      ∀ size : UInt8, size ≠ 0 → (h.read (makePaddingPacket packet size)).2 = none := by
  refine ⟨?_, fun size hsize => by rw [read_makePaddingPacket hv he hsize]⟩
  by_cases hp : getPaddingLength packet + packet.header.headerLength = packet.length
  · rw [read_padding hv he hp]
    exact iff_of_true (fun r hr => by cases hr) (.inl hp.le)
  · rw [read_other hv he hp]
    by_cases ho : (h.translator packet).Outdated packet.header.seqNumber
    · rw [if_pos ho]
      exact iff_of_true (fun r hr => by cases hr) (.inr ho)
    · rw [if_neg ho]
      constructor
      · intro hvalid
        have hlen := (hvalid _ rfl).2
        simp only [RtpHeader.headerLength] at hlen ⊢
        omega
      · rintro (hle | ho')
        · rintro r hr
          obtain rfl := Option.some.inj hr
          refine ⟨rfl, ?_⟩
          simp only [RtpHeader.headerLength] at hle ⊢
          omega
        · exact absurd ho' ho

theorem read_valid_iff_padded :
    Valid (read {} { header := { padding := true }, payload := [7, 0, 2] }).2 := by
  refine (read_valid_iff {} { header := { padding := true }, payload := [7, 0, 2] } rfl rfl).1.mpr ?_
  decide

/-- A packet of thirteen bytes that claims 200 bytes of padding. -/
theorem read_not_valid : ¬∀ (h : RtpPaddingRemovalHandler) (packet : DataPacket),
    h.enabled = true → packet.isVideo = true → Valid (h.read packet).2 := by
  intro hall
  have hread : (read {} { header := { padding := true }, payload := [200] }).2 =
      some ({ payload := [200] }, -187) := by decide
  exact absurd (hall {} { header := { padding := true }, payload := [200] } rfl rfl _ hread).2
    (by decide)

end RtpPaddingRemovalHandler

end KkLicode.Rtp
