import NfcFrontend.Bench.Device
import NfcFrontend.Host.Scenario

/-!
# The test bench

A bench puts a device where the chip would be. What goes wrong is fixed in advance
by a plan: which bus transactions, which reset pin calls and which bytes sent to the
host fail, each counted from the start. A transaction that the plan fails never
reaches the device.

Registers of a register file may be scripted. A scripted register takes the next
value of its list just before it is read, as if the chip had changed it; a failed
read takes nothing.
-/

namespace NfcFrontend

/-- What fails on a bench, by position since the start. -/
structure Plan where
  /-- Bus transactions that fail before they reach the device. -/
  busFails : Nat → Bool
  /-- Reset pin calls that fail. -/
  pinFails : Nat → Bool
  /-- Bytes sent to the host that no host takes. -/
  linkRefuses : Nat → Bool

/-- Nothing fails. -/
def Plan.smooth : Plan := ⟨fun _ => false, fun _ => false, fun _ => false⟩

/-- A device with its scripted registers, and how often bus, pin and host link have
been used. -/
structure Bench where
  device : Device
  /-- The values each address still takes before it is read. -/
  script : Address → List UInt8
  transactions : Nat
  pinCalls : Nat
  sends : Nat

namespace Bench

/-- A bench that has not been used. -/
def ofDevice (device : Device) (script : Address → List UInt8) : Bench :=
  ⟨device, script, 0, 0, 0⟩

/-- A bench with a register file that nothing changes but the accesses made. -/
def ofMemory (memory : Memory) : Bench :=
  ofDevice (.registers (.ofMemory memory)) fun _ => []

/-- A scripted register takes its next value before a read of it. Only a register
file has registers to change. -/
def takeScripted (bench : Bench) (frame : Frame) : Bench :=
  match bench.device, frame.access with
  | .registers file, .read address =>
    match bench.script address with
    | value :: rest =>
      { bench with
        device := .registers { file with memory := file.memory.set address value }
        script := fun other => if other = address then rest else bench.script other }
    | [] => bench
  | _, _ => bench

/-- One bus transaction. -/
def transfer (plan : Plan) (frame : Frame) (bench : Bench) : Option Frame × Bench :=
  let begun := { bench with transactions := bench.transactions + 1 }
  if plan.busFails bench.transactions then (none, begun)
  else
    let prepared := begun.takeScripted frame
    let (response, device) := prepared.device.transfer frame
    (response, { prepared with device := device })

/-- One reset pin call. -/
def drive (plan : Plan) (bench : Bench) : Bool × Bench :=
  (!plan.pinFails bench.pinCalls, { bench with pinCalls := bench.pinCalls + 1 })

/-- One byte offered to the host. -/
def send (plan : Plan) (bench : Bench) : Bool × Bench :=
  (!plan.linkRefuses bench.sends, { bench with sends := bench.sends + 1 })

/-- The bench as the chip. An access travels as its frame. -/
def serve (plan : Plan) : Server Chip.Reply Bench
  | .access access, bench => bench.transfer plan access.frame
  | .drive _, bench => bench.drive plan

/-- The bench as the world of a bridge. -/
def world (plan : Plan) : Host.World Bench where
  chip := serve plan
  link _ bench := bench.send plan

end Bench

end NfcFrontend
