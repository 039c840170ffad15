/-!
# Why an operation ends early

A `Fault` is a condition the driver reports to its caller: the bus or the reset
pin did not answer, or a byte that should name a register or a protocol names
none. A `Violation` is a broken calling contract: the operation is abandoned, and
no caller is expected to handle it. `Stop` keeps the two apart, so a statement
that an operation never breaks a contract cannot be satisfied by reporting a
fault instead.
-/

namespace NfcFrontend

/-- What can go wrong between the driver and the chip. -/
inductive Fault where
  /-- A bus transaction did not complete. -/
  | spi
  /-- The reset pin could not be driven. -/
  | pin
  /-- The byte lies outside the seven bit register space. -/
  | invalidAddress (byte : UInt8)
  /-- The identifier is not in the protocol table. -/
  | invalidProtocol (id : UInt8)
deriving DecidableEq

/-- A contract broken by the caller. -/
inductive Violation where
  /-- A request was built from the wrong number of parameters. -/
  | parameterCount
  /-- A FIFO transfer is longer than the largest FIFO. -/
  | transferTooLong
  /-- A configuration patch was listed although it runs past the last register. -/
  | patchTooLong
  /-- A frame sent to the register file is not two bytes long. -/
  | frameLength
  /-- A transfer wants more bytes than a frame is answered with. -/
  | receiveTooLong
  /-- A bare read has no frame that could carry an address. -/
  | unframedRead
deriving DecidableEq

/-- The cause of an early end, either a reported fault or a broken contract. -/
inductive Stop (Cause : Type) where
  | fault (cause : Cause)
  | abort (violation : Violation)
deriving DecidableEq

namespace Fault

/-- The fault's name without its payload. -/
def kind : Fault → String
  | .spi => "Spi"
  | .pin => "Pin"
  | .invalidAddress _ => "InvalidAddress"
  | .invalidProtocol _ => "InvalidProtocol"

/-- The fault's name, with the refused byte in decimal where there is one. -/
def message (fault : Fault) : String :=
  match fault with
  | .spi | .pin => fault.kind
  | .invalidAddress byte | .invalidProtocol byte => s!"{fault.kind}({byte.toNat})"

end Fault

/-- The explanation of a violation. Only two carry a text of their own. -/
def Violation.message? : Violation → Option String
  | .patchTooLong => some "configuration exceeds the register space"
  | .unframedRead => some "reads without an address frame are not supported"
  | _ => none

end NfcFrontend
