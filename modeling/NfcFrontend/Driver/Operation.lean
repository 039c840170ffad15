import NfcFrontend.Driver.Command
import NfcFrontend.Driver.Patch

/-!
# Driver operations as data

Every operation of the driver with its arguments, so that statements about "any
operation" or "any sequence of operations" can be made and sequences can be
replayed. Addresses and protocol identifiers are given as the bytes a caller has;
a byte that names nothing is refused before the chip is asked anything.

An operation ends with an answer or stops. Beside that it hands back the caller's
buffer, which only a block read has.
-/

namespace NfcFrontend.Driver

/-- One call of the driver. -/
inductive Op where
  | read (address : UInt8)
  | write (address value : UInt8)
  | readRegister (register : Register)
  | writeRegister (register : Register) (content : UInt8)
  | modify (register : Register) (change : UInt8 → UInt8)
  | writePatch (address : UInt8) (values : List UInt8)
  | readVersion
  | enableField
  | disableField
  | powerUp
  | powerDown
  | flushFifo
  | setFifoMode (mode : FifoMode)
  | writeFifo (block : List UInt8)
  | readFifo (buffer : List UInt8)
  | fifoLength
  | execute (command : ChipCommand)
  | idle
  | detectCard
  | loadKey (key : Key)
  | loadProtocol (id : UInt8)
  | loadSettings (receiver : Receiver) (transmitter : Transmitter)

/-- What an operation returns. -/
inductive Answer where
  | nothing
  | byte (value : UInt8)
  | count (number : Nat)
deriving DecidableEq

/-- How an operation ends, and the caller's buffer at that time. -/
structure Outcome where
  verdict : Except (Stop Fault) Answer
  buffer : List UInt8

namespace Outcome

/-- The outcome of an operation that was given no buffer. -/
def bare (verdict : Except (Stop Fault) Answer) : Outcome := ⟨verdict, []⟩

end Outcome

/-- An action without a value, as an operation. -/
def Op.silent (action : Action Unit) : Program Chip.Reply Outcome :=
  (fun verdict => Outcome.bare (verdict.map fun _ => .nothing)) <$> action.run

/-- An action that returns a byte, as an operation. -/
def Op.reading (action : Action UInt8) : Program Chip.Reply Outcome :=
  (fun verdict => Outcome.bare (verdict.map .byte)) <$> action.run

/-- The program of an operation. -/
def Op.program : Op → Program Chip.Reply Outcome
  | .read address => reading do Driver.read (← Action.ofArgument (Address.ofByte address))
  | .write address value => silent do
    Driver.write (← Action.ofArgument (Address.ofByte address)) value
  | .readRegister register => reading (Driver.readRegister register)
  | .writeRegister register content => silent (Driver.writeRegister register content)
  | .modify register change => silent (Driver.modify register change)
  | .writePatch address values => silent do
    Driver.writePatch ⟨← Action.ofArgument (Address.ofByte address), values⟩
  | .readVersion => reading Driver.readVersion
  | .enableField => silent Driver.enableField
  | .disableField => silent Driver.disableField
  | .powerUp => silent Driver.powerUp
  | .powerDown => silent Driver.powerDown
  | .flushFifo => silent Driver.flushFifo
  | .setFifoMode mode => silent (Driver.setFifoMode mode)
  | .writeFifo block => silent (Driver.writeFifo block)
  | .readFifo buffer =>
    (fun (verdict, filled) => ⟨verdict.map fun _ => .nothing, filled⟩) <$> Driver.readFifo buffer
  | .fifoLength => (fun verdict => Outcome.bare (verdict.map .count)) <$> Driver.fifoLength.run
  | .execute command => silent (Driver.execute command)
  | .idle => silent Driver.idle
  | .detectCard => silent Driver.detectCard
  | .loadKey key => silent (Driver.loadKey key)
  | .loadProtocol id => silent do
    Driver.loadProtocol (← Action.ofArgument (Protocol.ofId id))
  | .loadSettings receiver transmitter => silent (Driver.loadSettings receiver transmitter)

end NfcFrontend.Driver
