import NfcFrontend.Frame
import NfcFrontend.Memory

/-!
# A register file on the bus

The register file stands in for the chip on a serial bus: it decodes frames, keeps
128 registers, and records every access. A bus transaction is a list of operations.
A frame must be two bytes long and an answer is never longer than a frame;
operations that ask for anything else break the contract of the device and end the
transaction where they stand.

What an aborted transaction leaves behind depends on where it broke. A frame of the
wrong length is refused before it is recorded, while a transfer with too long a
receive buffer has been carried out and recorded by the time its answer does not
fit.
-/

namespace NfcFrontend

namespace Bus

/-- One operation of a bus transaction. Receive buffers hold what the caller put
there. -/
inductive Operation where
  /-- Send bytes and drop the response. -/
  | write (sent : List UInt8)
  /-- Send bytes and receive into a buffer. -/
  | transfer (sent received : List UInt8)
  /-- Send a buffer and receive into it. -/
  | inPlace (buffer : List UInt8)
  /-- Receive without sending. -/
  | read (received : List UInt8)
  /-- Wait for a number of nanoseconds. -/
  | delay (duration : Nat)
deriving DecidableEq

/-- The buffer an operation receives into, as the caller passed it. -/
def Operation.buffer : Operation → List UInt8
  | .write _ | .delay _ => []
  | .transfer _ received | .read received => received
  | .inPlace buffer => buffer

end Bus

/-- A device with 128 registers, the accesses it has seen, and the number of
transactions begun. -/
structure RegisterFile where
  memory : Memory
  /-- The accesses, the latest first. -/
  log : List Access
  transactions : Nat
deriving DecidableEq

namespace RegisterFile

open Bus (Operation)

/-- A register file that has seen no access yet. -/
def ofMemory (memory : Memory) : RegisterFile := ⟨memory, [], 0⟩

/-- The accesses in the order they were made. -/
def accesses (file : RegisterFile) : List Access := file.log.reverse

/-- The values written to the register a byte names, in order. A byte outside the
register space names none, so nothing has been written to it. -/
def writesTo (file : RegisterFile) (byte : UInt8) : List UInt8 :=
  file.accesses.filterMap fun
    | .write written value => if written.byte = byte then some value else none
    | .read _ => none

/-- Record an access and carry it out. Only a read has a value to answer with. -/
def answer (file : RegisterFile) (access : Access) : Frame × RegisterFile :=
  let recorded := { file with log := access :: file.log }
  match access with
  | .read address => (⟨0, file.memory.get address⟩, recorded)
  | .write address value => (⟨0, 0⟩, { recorded with memory := file.memory.set address value })

/-- Every answer adds its access at the end of the record. -/
@[simp] theorem accesses_answer (file : RegisterFile) (access : Access) :
    (file.answer access).2.accesses = file.accesses ++ [access] := by
  cases access <;> simp [answer, accesses]

/-- A write changes the register it names. -/
@[simp] theorem memory_answer_write (file : RegisterFile) (address : Address) (value : UInt8) :
    (file.answer (.write address value)).2.memory = file.memory.set address value := rfl

/-- Take a frame off the bus and answer it. -/
def exchange (file : RegisterFile) : List UInt8 → Except Violation (Frame × RegisterFile)
  | [first, second] => .ok (file.answer (Frame.mk first second).access)
  | _ => .error .frameLength

/-- What one operation left: whether it broke a contract, its receive buffer, and
the device. -/
structure Performed where
  violation : Option Violation
  buffer : List UInt8
  file : RegisterFile

/-- Carry out one operation. -/
def perform (file : RegisterFile) (operation : Operation) : Performed :=
  match operation with
  | .write sent =>
    match file.exchange sent with
    | .ok (_, after) => ⟨none, [], after⟩
    | .error violation => ⟨some violation, [], file⟩
  | .transfer sent received =>
    match file.exchange sent with
    | .ok (response, after) =>
      if received.length ≤ 2 then ⟨none, response.bytes.take received.length, after⟩
      else ⟨some .receiveTooLong, received, after⟩
    | .error violation => ⟨some violation, received, file⟩
  | .inPlace buffer =>
    match file.exchange buffer with
    | .ok (response, after) => ⟨none, response.bytes, after⟩
    | .error violation => ⟨some violation, buffer, file⟩
  | .read received => ⟨some .unframedRead, received, file⟩
  | .delay _ => ⟨none, [], file⟩

/-- What a transaction left: whether it was aborted, every operation's receive
buffer, and the device. -/
structure Settled where
  violation : Option Violation
  buffers : List (List UInt8)
  file : RegisterFile

/-- Carry out operations in order, up to the first that breaks a contract. The
buffers of the operations after it stay as they were. -/
def performAll (file : RegisterFile) : List Operation → Settled
  | [] => ⟨none, [], file⟩
  | operation :: rest =>
    let performed := file.perform operation
    match performed.violation with
    | some violation =>
      ⟨some violation, performed.buffer :: rest.map Operation.buffer, performed.file⟩
    | none =>
      let settled := performed.file.performAll rest
      ⟨settled.violation, performed.buffer :: settled.buffers, settled.file⟩

/-- Carry out a transaction. It is counted when it begins. -/
def transaction (file : RegisterFile) (operations : List Operation) : Settled :=
  { file with transactions := file.transactions + 1 }.performAll operations

/-- The accesses recorded since an earlier state of the device. -/
def accessesSince (file earlier : RegisterFile) : List Access :=
  file.accesses.drop earlier.accesses.length

end RegisterFile

end NfcFrontend
