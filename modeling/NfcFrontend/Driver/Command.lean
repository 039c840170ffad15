import NfcFrontend.Driver.Fifo
import NfcFrontend.Protocol

/-!
# Command sequences

A chip command is started by writing its code. A command that takes a payload is
always issued as idle, FIFO flush, payload, command: idle stops whatever may still
be consuming the FIFO, the flush drops what an earlier sequence left there, and the
command comes last, so it can only find the payload.
-/

namespace NfcFrontend

/-- The number of bytes in an authentication key. -/
def keyLength : Nat := 6

/-- An authentication key. -/
abbrev Key := Vector UInt8 keyLength

namespace Driver

/-- Start a command. -/
def execute (command : ChipCommand) : Action Unit :=
  writeRegister .command ((Setting.fresh command).apply Register.blank)

/-- Cancel the running command. -/
def idle : Action Unit := execute .idle

/-- Start low-power card detection. -/
def detectCard : Action Unit := do
  idle
  execute .lpcd

/-- Move a key into the chip's key buffer. -/
def loadKey (key : Key) : Action Unit := do
  idle
  flushFifo
  writeFifo key.toList
  execute .loadKey

/-- Load a receiver and a transmitter setting. The chip expects the receiver first. -/
def loadSettings (receiver : Receiver) (transmitter : Transmitter) : Action Unit := do
  idle
  flushFifo
  writeFifo [Coded.code receiver, Coded.code transmitter]
  execute .loadProtocol

/-- Load both settings of a protocol. -/
def loadProtocol (protocol : Protocol) : Action Unit :=
  loadSettings protocol.receiver protocol.transmitter

end Driver

end NfcFrontend
