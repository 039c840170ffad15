/-!
# Bit fields of a byte

A field is a run of adjacent bits. Writing a field replaces those bits by the low
bits of the new value and leaves every other bit alone; bits of the value that do
not fit are dropped. `getLsbD_set` is the whole behaviour, bit by bit; what a
reader gets back after writes to the same and to other fields follows from it.
-/

namespace NfcFrontend

/-- The bits `low, ..., low + width - 1` of a byte. -/
structure BitField where
  low : Nat
  width : Nat
  fits : low + width ≤ 8 := by decide
deriving DecidableEq

namespace BitField

/-- Whether the bit position belongs to the field. -/
def covers (field : BitField) (position : Nat) : Bool :=
  decide (field.low ≤ position) && decide (position < field.low + field.width)

/-- Ones exactly at the field's positions. -/
def mask (field : BitField) : UInt8 := UInt8.ofNat ((Nat.pow 2 field.width - 1) <<< field.low)

/-- The field's value, moved down to bit 0. -/
def get (field : BitField) (byte : UInt8) : UInt8 :=
  (byte &&& field.mask) >>> UInt8.ofNat field.low

/-- The byte with the field replaced by the low bits of a value. -/
def set (field : BitField) (value byte : UInt8) : UInt8 :=
  (byte &&& ~~~field.mask) ||| ((value <<< UInt8.ofNat field.low) &&& field.mask)

/-- Whether a one-bit field is set. -/
def test (field : BitField) (byte : UInt8) : Bool := field.get byte != 0

/-- The byte with a one-bit field switched on or off. -/
def put (field : BitField) (on : Bool) (byte : UInt8) : UInt8 :=
  field.set (if on then 1 else 0) byte

/-- A field has no bits above the byte. -/
theorem lt_of_covers {field : BitField} {position : Nat}
    (covered : field.covers position = true) : position < 8 := by
  have fits := field.fits
  simp only [covers, Bool.and_eq_true, decide_eq_true_eq] at covered
  omega

/-- The mask has ones exactly where the field is. A field may have any width, so the mask is read
as a shifted power of two less one. -/
theorem getLsbD_mask (field : BitField) (position : Nat) (inside : position < 8) :
    field.mask.toBitVec.getLsbD position = field.covers position := by
  simp only [mask, Nat.pow_eq, UInt8.toBitVec_ofNat', BitVec.getLsbD_ofNat, Nat.testBit_shiftLeft,
    Nat.testBit_two_pow_sub_one, covers, inside, decide_true, Bool.true_and]
  by_cases above : field.low ≤ position
  · simp only [ge_iff_le, above, decide_true, Bool.true_and, decide_eq_decide]
    omega
  · simp [above]

/-- An amount below the width of a byte is the amount it is shifted by. -/
theorem toNat_shift_amount (amount : Nat) (small : amount < 8) :
    ((UInt8.ofNat amount).toBitVec % 8).toNat = amount := by
  have width : (8 : BitVec 8).toNat = 8 := rfl
  rw [BitVec.toNat_umod, UInt8.toBitVec_ofNat', BitVec.toNat_ofNat, width]
  omega

/-- Moving a byte up by less than its width moves its bits by that amount. -/
theorem toBitVec_shiftLeft_ofNat (value : UInt8) (amount : Nat) (small : amount < 8) :
    (value <<< UInt8.ofNat amount).toBitVec = value.toBitVec <<< amount := by
  rw [UInt8.toBitVec_shiftLeft, BitVec.shiftLeft_eq', toNat_shift_amount amount small]

/-- So does moving it down. -/
theorem toBitVec_shiftRight_ofNat (value : UInt8) (amount : Nat) (small : amount < 8) :
    (value >>> UInt8.ofNat amount).toBitVec = value.toBitVec >>> amount := by
  rw [UInt8.toBitVec_shiftRight, BitVec.ushiftRight_eq', toNat_shift_amount amount small]

/-- The value of a field has the field's bits, moved down. -/
theorem getLsbD_get (field : BitField) (byte : UInt8) (position : Nat) :
    (field.get byte).toBitVec.getLsbD position =
      (decide (position < field.width) && byte.toBitVec.getLsbD (field.low + position)) := by
  have fits := field.fits
  by_cases low : field.low < 8
  · rw [get, toBitVec_shiftRight_ofNat _ _ low, BitVec.getLsbD_ushiftRight, UInt8.toBitVec_and,
      BitVec.getLsbD_and, Bool.and_comm]
    by_cases inside : field.low + position < 8
    · rw [getLsbD_mask field _ inside]
      simp [covers]
    · simp [BitVec.getLsbD_of_ge byte.toBitVec (field.low + position) (by omega)]
  · -- A field that begins above the byte has no bits.
    have empty : field.width = 0 := by omega
    have none : field.mask = 0 := by simp [mask, empty]
    simp [get, none, empty]

/-- Inside the field, a written byte has the value's bits; outside, its old ones. -/
theorem getLsbD_set (field : BitField) (value byte : UInt8) (position : Nat)
    (inside : position < 8) :
    (field.set value byte).toBitVec.getLsbD position =
      if field.covers position then value.toBitVec.getLsbD (position - field.low)
      else byte.toBitVec.getLsbD position := by
  simp only [set, UInt8.toBitVec_or, UInt8.toBitVec_and, UInt8.toBitVec_not, BitVec.getLsbD_or,
    BitVec.getLsbD_and, BitVec.getLsbD_not, getLsbD_mask field position inside, inside,
    decide_true, Bool.true_and]
  by_cases covered : field.covers position = true
  · have within : field.low ≤ position ∧ position < field.low + field.width := by
      simpa [covers] using covered
    have small : field.low < 8 := Nat.lt_of_le_of_lt within.1 inside
    have reached : ¬ position < field.low := Nat.not_lt.mpr within.1
    rw [toBitVec_shiftLeft_ofNat value field.low small, BitVec.getLsbD_shiftLeft]
    simp only [covered, inside, reached, decide_true, decide_false, Bool.not_true, Bool.not_false,
      Bool.and_false, Bool.false_or, Bool.true_and, Bool.and_true, ↓reduceIte]
  · simp [covered]

/-- Two bytes with the same eight bits are the same byte. -/
theorem byte_ext {left right : UInt8}
    (same : ∀ position, position < 8 →
      left.toBitVec.getLsbD position = right.toBitVec.getLsbD position) : left = right :=
  UInt8.toBitVec_inj.mp (BitVec.eq_of_getLsbD_eq fun position inside => same position inside)

/-- A one-bit field covers its bit only. -/
theorem covers_flag (field : BitField) (flag : field.width = 1) (position : Nat) :
    field.covers position = decide (position = field.low) := by
  rw [covers, flag, ← Bool.decide_and, decide_eq_decide]
  omega

/-- A one-bit field is set when its bit is. -/
theorem test_flag (field : BitField) (flag : field.width = 1) (byte : UInt8) :
    field.test byte = byte.toBitVec.getLsbD field.low := by
  have lowest : (field.get byte).toBitVec.getLsbD 0 = byte.toBitVec.getLsbD field.low := by
    rw [getLsbD_get, flag]
    rfl
  cases bit : byte.toBitVec.getLsbD field.low with
  | false =>
    have clear : field.get byte = 0 := by
      apply byte_ext
      intro position inside
      cases position with
      | zero => rw [lowest, bit]; rfl
      | succ above =>
        rw [getLsbD_get, flag]
        simp
    simp [test, clear]
  | true =>
    have set : field.get byte ≠ 0 := by
      intro clear
      rw [clear, bit] at lowest
      cases lowest
    simpa [test] using set

/-- What was written to a field is read back, as far as it fits. -/
theorem get_set_self (field : BitField) (value byte : UInt8) :
    field.get (field.set value byte) = value &&& UInt8.ofNat (Nat.pow 2 field.width - 1) := by
  have fits := field.fits
  apply byte_ext
  intro position inside
  rw [getLsbD_get, UInt8.toBitVec_and, BitVec.getLsbD_and, UInt8.toBitVec_ofNat',
    BitVec.getLsbD_ofNat, Nat.pow_eq, Nat.testBit_two_pow_sub_one]
  by_cases within : position < field.width
  · rw [getLsbD_set field value byte _ (by omega)]
    simp [covers, within, inside]
  · simp [within]

/-- A switched field is as it was switched. -/
theorem test_put (field : BitField) (flag : field.width = 1) (on : Bool) (byte : UInt8) :
    field.test (field.put on byte) = on := by
  rw [test, put, get_set_self, flag]
  cases on <;> rfl

/-- A field of all eight bits is replaced as a whole. -/
theorem set_whole (field : BitField) (whole : field.width = 8) (value byte : UInt8) :
    field.set value byte = value := by
  have fits := field.fits
  have bottom : field.low = 0 := by omega
  apply byte_ext
  intro position inside
  rw [getLsbD_set _ _ _ _ inside]
  simp [covers, whole, bottom, inside]

/-- A field of all eight bits is the byte itself. -/
theorem get_whole (field : BitField) (whole : field.width = 8) (byte : UInt8) :
    field.get byte = byte := by
  have fits := field.fits
  have bottom : field.low = 0 := by omega
  apply byte_ext
  intro position inside
  rw [getLsbD_get]
  simp [whole, bottom, inside]

/-- Fields without a common bit. -/
def Apart (field other : BitField) : Prop :=
  field.low + field.width ≤ other.low ∨ other.low + other.width ≤ field.low

/-- Of two fields that lie apart, only one can cover a position. -/
theorem Apart.covers {field other : BitField} (apart : field.Apart other) (position : Nat)
    (covered : field.covers position = true) : other.covers position = false := by
  simp only [BitField.covers, Bool.and_eq_true, decide_eq_true_eq, Bool.and_eq_false_iff,
    decide_eq_false_iff_not] at covered ⊢
  unfold Apart at apart
  omega

/-- A write to another field is not seen. -/
theorem get_set_of_apart {field other : BitField} (apart : field.Apart other)
    (value byte : UInt8) : field.get (other.set value byte) = field.get byte := by
  have fits := field.fits
  apply byte_ext
  intro position inside
  rw [getLsbD_get, getLsbD_get]
  by_cases within : position < field.width
  · have uncovered : other.covers (field.low + position) = false :=
      apart.covers _ (by simp [BitField.covers, within])
    rw [getLsbD_set other value byte _ (by omega), uncovered]
    simp
  · simp [within]

/-- A later write to the same field wins. -/
theorem set_set (field : BitField) (first second byte : UInt8) :
    field.set second (field.set first byte) = field.set second byte := by
  apply byte_ext
  intro position inside
  simp only [getLsbD_set _ _ _ _ inside]
  by_cases covered : field.covers position = true <;> simp [covered]

/-- Writes to fields without a common bit can be exchanged. -/
theorem set_comm (field other : BitField) (value otherValue byte : UInt8)
    (apart : ∀ position, field.covers position = true → other.covers position = false) :
    field.set value (other.set otherValue byte) = other.set otherValue (field.set value byte) := by
  apply byte_ext
  intro position inside
  simp only [getLsbD_set _ _ _ _ inside]
  by_cases covered : field.covers position = true
  · simp [covered, apart position covered]
  · simp [covered]

end BitField

end NfcFrontend
