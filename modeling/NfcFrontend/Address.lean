import NfcFrontend.Fault

/-!
# Register addresses

The chip has 128 registers. An address is seven bits wide and travels in the
upper seven bits of a frame's first byte, so its bound belongs to the type. A
byte is read as an address exactly when it is at most `0x7F`, and the address
then gives the byte back.
-/

namespace NfcFrontend

/-- The number of one of the 128 registers. -/
structure Address where
  index : Fin 128
deriving DecidableEq

namespace Address

/-- The address as a byte; its top bit is clear. -/
def byte (address : Address) : UInt8 := UInt8.ofNat address.index.val

/-- There are registers, so their numbers may be written as literals. -/
instance literals : @NeZero Nat Zero.ofOfNat0 128 := Nat.instNeZeroSucc

/-- The last register of the address space. -/
def last : Address := ⟨127⟩

/-- The address named by a byte, if the byte lies in the register space. -/
def ofByte? (byte : UInt8) : Option Address :=
  if bound : byte.toNat < 128 then some ⟨⟨byte.toNat, bound⟩⟩ else none

/-- The address named by a byte, or the fault that reports the byte. -/
def ofByte (byte : UInt8) : Except Fault Address :=
  match ofByte? byte with
  | some address => .ok address
  | none => .error (.invalidAddress byte)

/-- The following address; the last one has none. -/
def next? (address : Address) : Option Address :=
  if bound : address.index.val + 1 < 128 then some ⟨⟨address.index.val + 1, bound⟩⟩ else none

/-- Every address, ascending. -/
def all : List Address := (List.finRange 128).map Address.mk

/-- Addresses are ordered by their number. -/
instance : Ord Address where
  compare left right := compare left.index.val right.index.val

/-- An address is its number. -/
theorem index_injective {left right : Address} (same : left.index.val = right.index.val) :
    left = right := by
  cases left
  cases right
  simp only [Address.mk.injEq]
  exact Fin.ext same

/-- The byte of an address has the address's number. -/
theorem toNat_byte (address : Address) : address.byte.toNat = address.index.val := by
  have bound : address.index.val < 128 := address.index.isLt
  simp only [byte, UInt8.toNat_ofNat']
  omega

/-- Addresses go up to `0x7F`. -/
theorem byte_le (address : Address) : address.byte.toNat ≤ 0x7F := by
  have bound : address.index.val < 128 := address.index.isLt
  rw [toNat_byte]
  omega

/-- Different addresses are different bytes. -/
theorem byte_injective {left right : Address} (same : left.byte = right.byte) : left = right :=
  index_injective (by rw [← toNat_byte, ← toNat_byte, same])

/-- Reading a byte as an address keeps exactly the bytes below 128. -/
theorem ofByte?_eq_some_iff {byte : UInt8} {address : Address} :
    ofByte? byte = some address ↔ address.byte = byte := by
  constructor
  · intro accepted
    unfold ofByte? at accepted
    split at accepted
    · cases accepted
      exact UInt8.toNat_inj.mp (toNat_byte _)
    · cases accepted
  · rintro rfl
    have bound : address.byte.toNat < 128 := by
      rw [toNat_byte]
      exact address.index.isLt
    simp only [ofByte?, bound, ↓reduceDIte, Option.some.injEq]
    exact index_injective (toNat_byte address)

/-- A byte with its top bit set names no register. -/
theorem ofByte?_eq_none_iff {byte : UInt8} : ofByte? byte = none ↔ 128 ≤ byte.toNat := by
  simp [ofByte?]

/-- The byte of an address names it. -/
@[simp] theorem ofByte?_byte (address : Address) : ofByte? address.byte = some address :=
  ofByte?_eq_some_iff.mpr rfl

/-- A byte names a register or is refused, and is refused exactly above `0x7F`. -/
theorem ofByte_cases (byte : UInt8) :
    (∃ address : Address, address.byte = byte ∧ ofByte byte = .ok address) ∨
      (0x7F < byte.toNat ∧ ofByte byte = .error (.invalidAddress byte)) := by
  cases found : ofByte? byte with
  | some address =>
    exact .inl ⟨address, ofByte?_eq_some_iff.mp found, by simp [ofByte, found]⟩
  | none => exact .inr ⟨ofByte?_eq_none_iff.mp found, by simp [ofByte, found]⟩

end Address

end NfcFrontend
