import NfcFrontend.Driver.Patch
import NfcFrontend.Proofs.Attempts
import NfcFrontend.Proofs.FaultPlan
import NfcFrontend.Proofs.PlainChip

/-!
# Operations as register updates

A driver operation that changes registers makes a list of updates in order: it writes a
register, or reads it and writes it back changed. On a register file an update has happened
or it has not, since a change that stops after its read has written nothing. An operation
that fails has therefore made the updates of a proper prefix of its list.

`Recoverable` lists may be made again from the start after any of their proper prefixes, and
the registers end up as if they had been made once. What carries this is the first update at
each address: it has to forget what the updates made before the failure have left there. A
write forgets everything, and setting a bit forgets that the bit was set.
-/

namespace NfcFrontend

namespace Driver

/-- One change of one register. -/
inductive Update where
  /-- Write a value. -/
  | store (address : Address) (value : UInt8)
  /-- Read the content and write it back changed. -/
  | change (address : Address) (revise : UInt8 → UInt8)

namespace Update

/-- The register an update is about. -/
def address : Update → Address
  | .store address _ => address
  | .change address _ => address

/-- What the register holds afterwards. -/
def content : Update → UInt8 → UInt8
  | .store _ value, _ => value
  | .change _ revise, old => revise old

/-- The registers after an update. -/
def apply (update : Update) (memory : Memory) : Memory :=
  memory.set update.address (update.content (memory.get update.address))

/-- The registers after updates in order. -/
def applyAll (updates : List Update) (memory : Memory) : Memory :=
  updates.foldl (fun state update => update.apply state) memory

/-- Make an update. -/
def make : Update → Action Unit
  | .store address value => Driver.write address value
  | .change address revise => do
    let content ← Driver.read address
    Driver.write address (revise content)

/-- Make updates in order. -/
def makeAll : List Update → Action Unit
  | [] => pure ()
  | update :: rest => do
    update.make
    makeAll rest

/-- Updates in two parts are made part by part. -/
theorem makeAll_append (first second : List Update) :
    makeAll (first ++ second) = (do makeAll first; makeAll second) := by
  induction first with
  | nil => simp [makeAll]
  | cons update rest inductionHypothesis =>
    rw [List.cons_append, makeAll, makeAll, inductionHypothesis, bind_assoc]

/-- A list of one update is the update. -/
theorem makeAll_singleton (update : Update) : makeAll [update] = update.make := by
  simp [makeAll]

/-! ## Updates that leave no trace -/

/-- Made in front of the updates, the update leaves no trace after them. -/
def Absorbs (updates : List Update) (update : Update) : Prop :=
  ∀ memory, applyAll updates (update.apply memory) = applyAll updates memory

/-- Whatever proper prefix of the updates has been made, making them all from the start leads
to the same registers. -/
def Recoverable (updates : List Update) : Prop :=
  ∀ made next rest, updates = made ++ next :: rest →
    ∀ memory, applyAll updates (applyAll made memory) = applyAll updates memory

/-- An update at the same address that forgets the old content hides an earlier one. -/
theorem apply_apply_of_forgets {first update : Update} (same : first.address = update.address)
    (forgets : ∀ old, first.content (update.content old) = first.content old) (memory : Memory) :
    first.apply (update.apply memory) = first.apply memory := by
  simp only [apply, same, Memory.get_set_self, Memory.set_set, forgets]

/-- Updates at different addresses can be exchanged. -/
theorem apply_comm {first update : Update} (apart : first.address ≠ update.address)
    (memory : Memory) : first.apply (update.apply memory) = update.apply (first.apply memory) := by
  apply Memory.ext
  intro address
  simp only [apply, Memory.get_set, apart, apart.symm, ↓reduceIte]
  by_cases one : address = first.address
  · have other : address ≠ update.address := fun same => apart (one.symm.trans same)
    simp [one, apart]
  · simp [one]

/-- It is enough that the first update at the same address forgets it. -/
theorem absorbs_of_first {updates : List Update} {update : Update} (first : Update)
    (found : updates.find? (fun other => other.address = update.address) = some first)
    (forgets : ∀ old, first.content (update.content old) = first.content old) :
    Absorbs updates update := by
  intro memory
  induction updates generalizing memory with
  | nil => cases found
  | cons head rest inductionHypothesis =>
    rw [List.find?_cons] at found
    -- An update at another address is passed; the first at this one hides what was made.
    by_cases same : head.address = update.address
    · obtain rfl : head = first := by simpa [same] using found
      exact congrArg (applyAll rest) (apply_apply_of_forgets same forgets memory)
    · have later := inductionHypothesis (by simpa [same] using found) (head.apply memory)
      rw [← apply_comm same] at later
      exact later

/-- Updates that are all absorbed are absorbed together. -/
theorem applyAll_absorbed {updates made : List Update}
    (each : ∀ update ∈ made, Absorbs updates update) (memory : Memory) :
    applyAll updates (applyAll made memory) = applyAll updates memory := by
  induction made generalizing memory with
  | nil => rfl
  | cons update rest inductionHypothesis =>
    have later := inductionHypothesis
      (fun other member => each other (List.mem_cons_of_mem _ member)) (update.apply memory)
    exact later.trans (each update List.mem_cons_self memory)

/-- A list that absorbs all its updates but the last is recoverable. -/
theorem recoverable_of_absorbs {updates : List Update}
    (each : ∀ update ∈ updates.dropLast, Absorbs updates update) : Recoverable updates := by
  intro made next rest split memory
  refine applyAll_absorbed ?_ memory
  intro update member
  refine each update ?_
  rw [split, List.dropLast_append_of_ne_nil (by simp)]
  exact List.mem_append_left _ member

/-! ## The lists of the driver -/

/-- One update alone is recoverable, since no proper prefix has made it. -/
theorem recoverable_singleton (update : Update) : Recoverable [update] := by
  refine recoverable_of_absorbs ?_
  intro other member
  cases member

/-- Writes can always be made again. -/
theorem recoverable_stores {updates : List Update}
    (stores : ∀ update ∈ updates, ∃ address value, update = .store address value) :
    Recoverable updates := by
  refine recoverable_of_absorbs ?_
  intro update member
  have among : update ∈ updates := List.dropLast_subset updates member
  obtain ⟨first, found⟩ : ∃ first,
      updates.find? (fun other => other.address = update.address) = some first :=
    Option.isSome_iff_exists.mp (List.find?_isSome.mpr ⟨update, among, by simp⟩)
  obtain ⟨address, value, rfl⟩ := stores first (List.mem_of_find?_eq_some found)
  exact absorbs_of_first _ found fun old => rfl

/-- Two changes of one register can be made again if the first does not care how often it is
made. -/
theorem recoverable_changes {address : Address} {first second : UInt8 → UInt8}
    (idempotent : ∀ old, first (first old) = first old) :
    Recoverable [.change address first, .change address second] := by
  refine recoverable_of_absorbs ?_
  intro update member
  obtain rfl : update = .change address first := by simpa using member
  exact absorbs_of_first (.change address first) (by simp) idempotent

/-- The updates of a command with a payload. -/
def payload (block : List UInt8) (command : ChipCommand) : List Update :=
  [.store .command ChipCommand.idle.code, .change .fifoControl (Setting.fifoFlush true).apply] ++
    block.map (.store .fifoData) ++ [.store .command command.code]

/-- The flush bit stays set once it is set, so a command with a payload can be made again. -/
theorem recoverable_payload (block : List UInt8) (command : ChipCommand) :
    Recoverable (payload block command) := by
  have flush (old : UInt8) : (Setting.fifoFlush true).apply ((Setting.fifoFlush true).apply old) =
      (Setting.fifoFlush true).apply old := BitField.set_set Field.fifoFlush 1 1 old
  have control : Address.command ≠ Address.fifoControl := by decide
  have data : Address.command ≠ Address.fifoData := by decide
  have other : Address.fifoControl ≠ Address.fifoData := by decide
  refine recoverable_of_absorbs ?_
  intro update member
  rw [payload, List.dropLast_concat, List.mem_append, List.mem_map] at member
  -- The command register and the control register are each met first by the opening itself, the
  -- data register by the first byte of the block.
  rcases member with opening | ⟨byte, among, rfl⟩
  · obtain rfl | rfl : update = .store .command ChipCommand.idle.code ∨
        update = .change .fifoControl (Setting.fifoFlush true).apply := by simpa using opening
    · exact absorbs_of_first (.store .command ChipCommand.idle.code)
        (by simp [payload]) fun old => rfl
    · exact absorbs_of_first (.change .fifoControl (Setting.fifoFlush true).apply)
        (by simp [payload, address, control]) flush
  · cases block with
    | nil => cases among
    | cons front later =>
      exact absorbs_of_first (.store .fifoData front)
        (by simp [payload, address, data, other]) fun old => rfl

end Update

/-! ## The driver makes updates -/

open Update

/-- A write is a store. -/
theorem write_eq (address : Address) (value : UInt8) :
    write address value = makeAll [.store address value] :=
  (makeAll_singleton (.store address value)).symm

/-- A change of a register is an update. -/
theorem modify_eq (register : Register) (revise : UInt8 → UInt8) :
    modify register revise = makeAll [.change register.address revise] :=
  (makeAll_singleton (.change register.address revise)).symm

/-- A block is stored byte by byte, all at the address of the FIFO. -/
theorem pushBytes_eq (block : List UInt8) :
    pushBytes block = makeAll (block.map (.store .fifoData)) := by
  induction block with
  | nil => rfl
  | cons byte rest inductionHypothesis =>
    rw [pushBytes, inductionHypothesis]
    rfl

/-- Entries are stored in order. -/
theorem writeEntries_eq (entries : List (Address × UInt8)) :
    writeEntries entries = makeAll (entries.map fun entry => .store entry.1 entry.2) := by
  induction entries with
  | nil => rfl
  | cons entry rest inductionHypothesis =>
    rw [writeEntries, inductionHypothesis]
    rfl

/-- A command is the store of its code. -/
theorem execute_eq (command : ChipCommand) :
    execute command = makeAll [.store .command command.code] := by
  rw [execute, Setting.apply_fresh]
  exact write_eq .command command.code

/-- Detection is two stores to the command register. -/
theorem detectCard_eq :
    detectCard = makeAll [.store .command ChipCommand.idle.code,
      .store .command ChipCommand.lpcd.code] := by
  rw [detectCard, idle, execute_eq, execute_eq, ← makeAll_append]
  rfl

/-- The mode change is two changes of the control register. -/
theorem setFifoMode_eq (mode : FifoMode) :
    setFifoMode mode = makeAll [.change .fifoControl (Setting.fifoFlush true).apply,
      .change .fifoControl (Setting.fifoSize mode.sizeBit).apply] := by
  rw [setFifoMode, flushFifo, modify_eq, modify_eq, ← makeAll_append]
  rfl

/-- A command with a payload that fits. -/
theorem payload_eq {block : List UInt8} (fits : block.length ≤ FifoMode.large.capacity)
    (command : ChipCommand) :
    (do
      idle
      flushFifo
      writeFifo block
      execute command : Action Unit) = makeAll (payload block command) := by
  have opening : payload block command =
      [.store .command ChipCommand.idle.code] ++
        ([.change .fifoControl (Setting.fifoFlush true).apply] ++
          (block.map (.store .fifoData) ++ [.store .command command.code])) := by
    simp [payload]
  rw [opening, makeAll_append, makeAll_append, makeAll_append, ← execute_eq, ← execute_eq,
    ← pushBytes_eq, idle, flushFifo, modify_eq, writeFifo, if_pos fits]
  rfl

end Driver

end NfcFrontend
