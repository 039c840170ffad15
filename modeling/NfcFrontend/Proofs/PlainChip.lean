import NfcFrontend.Bench.Basic
import NfcFrontend.Proofs.Simulation

/-!
# The chip as a plain memory

The simplest chip is a memory: a read answers with the byte at its address, a write
stores one. A bench with a register file matches it when no transaction fails and nothing
is scripted. Frames, the record of accesses and all counters are then invisible to
whoever drives the chip, so what a program does on the bench can be computed on the
memory.
-/

namespace NfcFrontend

namespace Memory

/-- The memory as the chip. -/
def serve : Server Chip.Reply Memory
  | .access (.read address), memory => (some ⟨0, memory.get address⟩, memory)
  | .access (.write address value), memory => (some ⟨0, 0⟩, memory.set address value)
  | .drive _, memory => (true, memory)

/-- The memory before a host that takes every byte. -/
def world : Host.World Memory where
  chip := serve
  link _ memory := (true, memory)

end Memory

namespace Bench

/-- The bench has the memory in its register file and nothing scripted. -/
structure Plain (bench : Bench) (memory : Memory) : Prop where
  registers : ∃ log transactions, bench.device = .registers ⟨memory, log, transactions⟩
  unscripted : ∀ address, bench.script address = []

/-- A bench that has not been used is plain. -/
theorem plain_ofMemory (memory : Memory) : Plain (ofMemory memory) memory where
  registers := ⟨[], 0, rfl⟩
  unscripted _ := rfl

/-- So is one that has been, as long as nothing is scripted. -/
theorem plain_registers (file : RegisterFile) (transactions pinCalls sends : Nat) :
    Plain ⟨.registers file, fun _ => [], transactions, pinCalls, sends⟩ file.memory where
  registers := ⟨file.log, file.transactions, rfl⟩
  unscripted _ := rfl

/-- The registers of a plain bench. -/
theorem Plain.memory? {bench : Bench} {memory : Memory} (plain : Plain bench memory) :
    bench.device.memory? = some memory := by
  obtain ⟨log, transactions, registers⟩ := plain.registers
  rw [registers]
  rfl

/-- Without a script a device is left as it is before a read. -/
theorem takeScripted_unscripted (bench : Bench) (frame : Frame)
    (unscripted : ∀ address, bench.script address = []) : bench.takeScripted frame = bench := by
  unfold takeScripted
  split
  · rw [unscripted]
  · rfl

/-- A frame that reaches a register file with nothing scripted carries its access out. -/
theorem transfer_unscripted {plan : Plan} {script : Address → List UInt8} {begun : Nat}
    (passes : plan.busFails begun = false) (unscripted : ∀ address, script address = [])
    (file : RegisterFile) (access : Access) (pinCalls sends : Nat) :
    (⟨.registers file, script, begun, pinCalls, sends⟩ : Bench).transfer plan access.frame =
      let answered := { file with transactions := file.transactions + 1 }.answer access
      (some answered.1, ⟨.registers answered.2, script, begun + 1, pinCalls, sends⟩) := by
  have untouched := takeScripted_unscripted
    ⟨.registers file, script, begun + 1, pinCalls, sends⟩ access.frame unscripted
  simp only [Bench.transfer, passes, Bool.false_eq_true, ↓reduceIte, untouched,
    Device.transfer_file, Access.access_frame]

/-- One transaction on a plain bench is one access to its memory, unless the plan fails it. -/
theorem Plain.transfer {plan : Plan} {bench : Bench} {memory : Memory} (plain : Plain bench memory)
    (passes : plan.busFails bench.transactions = false) (access : Access) :
    (bench.transfer plan access.frame).1 = (Memory.serve (.access access) memory).1 ∧
      Plain (bench.transfer plan access.frame).2 (Memory.serve (.access access) memory).2 := by
  obtain ⟨device, script, begun, pinCalls, sends⟩ := bench
  obtain ⟨⟨log, transactions, rfl⟩, unscripted⟩ := plain
  rw [transfer_unscripted passes unscripted]
  cases access with
  | read address => exact ⟨rfl, ⟨_, _, rfl⟩, unscripted⟩
  | write address value => exact ⟨rfl, ⟨_, _, rfl⟩, unscripted⟩

/-- A bench on which nothing fails matches its memory. -/
theorem serve_matching : Program.Matching (serve .smooth) Memory.serve Plain := by
  intro call bench memory plain
  cases call with
  | access access => exact plain.transfer rfl access
  | drive level => exact ⟨rfl, plain.registers, plain.unscripted⟩

/-- So does the whole surroundings of a bridge, when the host takes every byte. -/
theorem world_matching : Host.World.Matching (world .smooth) Memory.world Plain where
  chip := serve_matching
  link _ _ _ plain := ⟨rfl, plain.registers, plain.unscripted⟩

end Bench

end NfcFrontend
