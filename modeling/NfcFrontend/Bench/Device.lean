import NfcFrontend.Bench.RegisterFile

/-!
# Devices on the bus

Two devices answer bus transactions: a register file, and a device that fails
every transaction. A driver frame is the transaction of a single transfer, two
bytes out and two bytes in; the register file never refuses one.
-/

namespace NfcFrontend

/-- A device a transaction can be given to. -/
inductive Device where
  | registers (file : RegisterFile)
  /-- Every transaction fails; only their number is kept. -/
  | failing (transactions : Nat)
deriving DecidableEq

namespace Device

open Bus (Operation)

/-- How a transaction ended. -/
inductive Verdict where
  | completed
  /-- The device did not answer. -/
  | failed
  /-- The transaction broke a contract of the device. -/
  | aborted (violation : Violation)
deriving DecidableEq

/-- A transaction's end, the receive buffers of its operations, and the device. -/
structure Settled where
  verdict : Verdict
  buffers : List (List UInt8)
  device : Device

/-- The number of transactions the device has seen begin. -/
def transactions : Device → Nat
  | .registers file => file.transactions
  | .failing transactions => transactions

/-- The registers of a register file. -/
def memory? : Device → Option Memory
  | .registers file => some file.memory
  | .failing _ => none

/-- Give a transaction to the device. -/
def transaction (device : Device) (operations : List Operation) : Settled :=
  match device with
  | .registers file =>
    let settled := file.transaction operations
    match settled.violation with
    | none => ⟨.completed, settled.buffers, .registers settled.file⟩
    | some violation => ⟨.aborted violation, settled.buffers, .registers settled.file⟩
  | .failing transactions =>
    ⟨.failed, operations.map Operation.buffer, .failing (transactions + 1)⟩

/-- The response of a transaction of one transfer, if it completed. -/
def Settled.response? (settled : Settled) : Option Frame :=
  match settled.verdict, settled.buffers with
  | .completed, [[first, second]] => some ⟨first, second⟩
  | _, _ => none

/-- Exchange one frame with the device. -/
def transfer (device : Device) (frame : Frame) : Option Frame × Device :=
  let settled := device.transaction [.transfer frame.bytes [0, 0]]
  (settled.response?, settled.device)

/-- A register file answers every frame by carrying its access out. -/
theorem transfer_file (file : RegisterFile) (frame : Frame) :
    (Device.registers file).transfer frame =
      let (response, after) :=
        { file with transactions := file.transactions + 1 }.answer frame.access
      (some response, .registers after) := rfl

end Device

end NfcFrontend
