import NfcFrontend.Frame
import NfcFrontend.Program
import NfcFrontend.Register

/-!
# Driving the chip

The driver sees the chip through two calls: one register access, answered by the
response frame or by nothing when the bus transaction failed, and one level on the
reset pin. An action is a program of such calls that may stop early. Whether an
action really stops at its first failed access is a law about the calls it makes,
not a property of the type: the program that follows a failed access is an
ordinary program and could go on.
-/

namespace NfcFrontend

/-- The level driven onto the reset pin. -/
inductive Level where
  | low
  | high
deriving DecidableEq

namespace Chip

/-- What the driver can ask of the chip. -/
inductive Call where
  /-- One access in a bus transaction of its own. -/
  | access (access : Access)
  /-- One level on the reset pin. -/
  | drive (level : Level)
deriving DecidableEq

/-- An access is answered by a response frame unless the transaction failed; the
reset pin only reports whether it could be driven. -/
@[reducible] def Reply : Call → Type
  | .access _ => Option Frame
  | .drive _ => Bool

end Chip

/-- A driver operation that returns a value or stops. -/
abbrev Action (α : Type) := ExceptT (Stop Fault) (Program Chip.Reply) α

namespace Action

variable {α : Type}

/-- Stop with the fault of a refused argument. -/
def ofArgument : Except Fault α → Action α
  | .ok value => pure value
  | .error fault => throw (.fault fault)

/-- Stop with the violation of a broken contract. -/
def ofContract : Except Violation α → Action α
  | .ok value => pure value
  | .error violation => throw (.abort violation)

end Action

namespace Driver

/-- Make one access. Its value is the second byte of the response. -/
def access (access : Access) : Action UInt8 :=
  ExceptT.mk (.ask (.access access) fun
    | some response => .done (.ok response.second)
    | none => .done (.error (.fault .spi)))

/-- Put a level on the reset pin. -/
def drive (level : Level) : Action Unit :=
  ExceptT.mk (.ask (.drive level) fun
    | true => .done (.ok ())
    | false => .done (.error (.fault .pin)))

/-- Take the chip out of power down by releasing the reset pin. -/
def powerUp : Action Unit := drive .low

/-- Hold the chip in power down. -/
def powerDown : Action Unit := drive .high

/-- Read the register at an address. -/
def read (address : Address) : Action UInt8 := access (.read address)

/-- Write the register at an address. The response carries no information. -/
def write (address : Address) (value : UInt8) : Action Unit := do
  let _ ← access (.write address value)

/-- Read a register with named fields. -/
def readRegister (register : Register) : Action UInt8 := read register.address

/-- Write a register with named fields. -/
def writeRegister (register : Register) (content : UInt8) : Action Unit :=
  write register.address content

/-- Read a register, change its content, and write it back. -/
def modify (register : Register) (change : UInt8 → UInt8) : Action Unit := do
  let content ← readRegister register
  writeRegister register (change content)

/-- Read the version register. -/
def readVersion : Action UInt8 := readRegister .version

/-- Turn the radio field on. -/
def enableField : Action Unit := writeRegister .drvMode Register.fieldOn

/-- Turn the radio field off. -/
def disableField : Action Unit := writeRegister .drvMode Register.fieldOff

end Driver

end NfcFrontend
