import NfcFrontend.Driver.Basic

/-!
# The FIFO

The FIFO holds 255 or 512 bytes, depending on the capacity mode. Bytes go in and
out one register access at a time. The length is spread over two registers: in the
512 byte mode its two high bits live beside the mode bit in the control register,
which is read after the low byte.

A block transfer may not be longer than the larger FIFO; a longer one is a broken
contract and makes no access at all. A block read hands the caller's buffer back
whether or not it completes: bytes received before a failed access are in it, and
the rest of it is what the caller put there.
-/

namespace NfcFrontend

/-- The FIFO's capacity mode. -/
inductive FifoMode where
  /-- 255 bytes, so the length fits the length register. -/
  | small
  /-- 512 bytes, so the length extends into the control register. -/
  | large
deriving DecidableEq

namespace FifoMode

/-- The number of bytes the FIFO holds. -/
def capacity : FifoMode → Nat
  | small => 255
  | large => 512

/-- The content of the mode bit: set for the small FIFO. -/
def sizeBit : FifoMode → Bool
  | small => true
  | large => false

def ofName? : String → Option FifoMode
  | "Small" => some small
  | "Large" => some large
  | _ => none

/-- The FIFO length shown by a length byte and a control byte. -/
def reportedLength (length control : UInt8) : Nat :=
  if Field.fifoSize.test control then (Field.fifoLength.get length).toNat
  else (Field.fifoLengthExt.get control).toNat * 256 + (Field.fifoLength.get length).toNat

end FifoMode

namespace Driver

/-- Empty the FIFO. -/
def flushFifo : Action Unit := modify .fifoControl (Setting.fifoFlush true).apply

/-- Change the capacity mode. The mode may only change while the FIFO is empty, so
the FIFO is flushed first. -/
def setFifoMode (mode : FifoMode) : Action Unit := do
  flushFifo
  modify .fifoControl (Setting.fifoSize mode.sizeBit).apply

/-- Write bytes one after the other, without a limit on their number. -/
def pushBytes : List UInt8 → Action Unit
  | [] => pure ()
  | byte :: rest => do
    writeRegister .fifoData byte
    pushBytes rest

/-- Replace the bytes of a buffer by FIFO bytes, from the front, up to the first
failed access. -/
def fillBuffer : List UInt8 → Program Chip.Reply (Except (Stop Fault) Unit × List UInt8)
  | [] => .done (.ok (), [])
  | old :: rest => do
    match ← (readRegister .fifoData).run with
    | .error stop => .done (.error stop, old :: rest)
    | .ok byte =>
      let (verdict, filled) ← fillBuffer rest
      .done (verdict, byte :: filled)

/-- Write a block to the FIFO. -/
def writeFifo (block : List UInt8) : Action Unit :=
  if block.length ≤ FifoMode.large.capacity then pushBytes block
  else throw (.abort .transferTooLong)

/-- Read a block from the FIFO into a buffer, and hand the buffer back. -/
def readFifo (buffer : List UInt8) : Program Chip.Reply (Except (Stop Fault) Unit × List UInt8) :=
  if buffer.length ≤ FifoMode.large.capacity then fillBuffer buffer
  else .done (.error (.abort .transferTooLong), buffer)

/-- The number of bytes in the FIFO. The low byte is read first. -/
def fifoLength : Action Nat := do
  let length ← readRegister .fifoLength
  let control ← readRegister .fifoControl
  return FifoMode.reportedLength length control

end Driver

end NfcFrontend
