import NfcFrontend.Address

/-!
# Register accesses and their frames

One register access is one frame of two bytes. The first byte holds the address
in its upper seven bits and the direction in bit 0, set for a read; the second
byte is the value of a write and a fixed filler for a read. The response to a
frame is two bytes as well, with the value read in the second.

A receiver decodes a frame by shifting the direction out again. Decoding what was
encoded returns the access for every address, since the shift drops only the top
bit and that bit is clear.
-/

namespace NfcFrontend

/-- A single access to a register. -/
inductive Access where
  | read (address : Address)
  | write (address : Address) (value : UInt8)
deriving DecidableEq

/-- Two bytes exchanged during one bus transaction. -/
structure Frame where
  first : UInt8
  second : UInt8
deriving DecidableEq

namespace Frame

/-- Set in the first byte of a read frame. -/
def readBit : UInt8 := 0x01

/-- Sent in the value slot of a read frame. -/
def filler : UInt8 := 0xDB

def bytes (frame : Frame) : List UInt8 := [frame.first, frame.second]

/-- Whether the direction bit asks for a read. -/
def isRead (frame : Frame) : Bool := frame.first &&& 1 == 1

/-- The address in the upper seven bits of the first byte. -/
def address (frame : Frame) : Address where
  index := ⟨(frame.first >>> 1).toNat, by
    have bound : frame.first.toNat < 256 := frame.first.toNat_lt
    simp only [UInt8.toNat_shiftRight, UInt8.reduceToNat, Nat.shiftRight_eq_div_pow,
      Nat.reduceMod, Nat.reducePow]
    omega⟩

/-- The access a frame asks for. -/
def access (frame : Frame) : Access :=
  if frame.isRead then .read frame.address else .write frame.address frame.second

end Frame

/-- The frame that carries an access. -/
def Access.frame : Access → Frame
  | .read address => ⟨(address.byte <<< 1) ||| Frame.readBit, Frame.filler⟩
  | .write address value => ⟨address.byte <<< 1, value⟩

/-- The register an access is about. -/
def Access.address : Access → Address
  | .read address => address
  | .write address _ => address

/-- The upper seven bits of the first byte name the register that a frame is about. -/
theorem Frame.byte_access (frame : Frame) : frame.access.address.byte = frame.first >>> 1 := by
  apply UInt8.toNat_inj.mp
  rw [Address.toNat_byte, Frame.access]
  split <;> rfl

/-- Shifting an address up leaves room for the direction bit and loses nothing. -/
theorem Frame.shifted (address : Address) :
    ((address.byte <<< 1) >>> 1).toNat = address.index.val ∧
      (((address.byte <<< 1) ||| 1) >>> 1).toNat = address.index.val ∧
      (address.byte <<< 1) &&& 1 = 0 ∧ ((address.byte <<< 1) ||| 1) &&& 1 = 1 := by
  obtain ⟨index⟩ := address
  revert index
  decide

/-- Decoding the frame of an access returns the access. -/
theorem Access.access_frame (access : Access) : access.frame.access = access := by
  cases access with
  | read address =>
    have exact := Frame.shifted address
    have direction : (Access.read address).frame.isRead = true := by
      simp [Access.frame, Frame.isRead, Frame.readBit, exact.2.2.2]
    have same : (Access.read address).frame.address = address :=
      Address.index_injective exact.2.1
    simp only [Frame.access, direction, ↓reduceIte, same]
  | write address value =>
    have exact := Frame.shifted address
    have direction : (Access.write address value).frame.isRead = false := by
      simp [Access.frame, Frame.isRead, exact.2.2.1]
    have same : (Access.write address value).frame.address = address :=
      Address.index_injective exact.1
    simp only [Frame.access, direction, Bool.false_eq_true, ↓reduceIte, same]
    rfl

end NfcFrontend
