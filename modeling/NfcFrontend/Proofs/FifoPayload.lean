import Mathlib.Data.List.Basic
import NfcFrontend.Proofs.Attempts

/-!
# A command finds its payload and nothing else

The chip cannot tell a payload from bytes that an earlier sequence has left in the FIFO, so
a command that takes one must only start when the FIFO holds exactly that payload. The bus
traffic decides what the FIFO holds: a flush empties it and a data write appends to it.

`StartsOn` is what is promised of a call that starts a command on a block. It speaks of any
history and any content at its beginning: sequences of operations that completed or failed
may have gone before, and the call itself may fail at any of its transactions. The proof
needs no case for where it failed, since an attempt has carried out all that comes before
the command or has not come to the command at all.
-/

namespace NfcFrontend

/-! ## The FIFO seen from the bus -/

namespace Fifo

/-- What the FIFO holds after an access. Setting bit 4 of the control register empties it. -/
def after (held : List UInt8) : Access → List UInt8
  | .write address value =>
    if address = .fifoControl then if value.toBitVec.getLsbD 4 then [] else held
    else if address = .fifoData then held ++ [value]
    else held
  | .read _ => held

/-- What the FIFO holds after accesses in order. -/
def afterAll (held : List UInt8) (accesses : List Access) : List UInt8 :=
  accesses.foldl after held

/-- Data writes append. -/
theorem afterAll_data (held block : List UInt8) :
    afterAll held (block.map (.write .fifoData)) = held ++ block := by
  induction block generalizing held with
  | nil => simp [afterAll]
  | cons byte rest inductionHypothesis =>
    have filled : after held (.write .fifoData byte) = held ++ [byte] := rfl
    have later := inductionHypothesis (held ++ [byte])
    rw [List.append_assoc, List.singleton_append] at later
    rw [List.map_cons, afterAll, List.foldl_cons, filled]
    exact later

/-- A control byte with bit 4 set requests a flush, whatever its other bits. -/
theorem after_flush (held : List UInt8) (control : UInt8) :
    after held (.write .fifoControl (control ||| 0x10)) = [] := by
  simp [after]

end Fifo

/-! ## Calls that start a command on a block -/

/-- How a call starts a command on a block of bytes, after what the chip has seen before. -/
structure StartsOn {σ : Type} (block : List UInt8) (code : UInt8) (history : List Access)
    (run : Run Chip.Reply σ (Except (Stop Fault) Unit)) : Prop where
  /-- The command is written last, and only if nothing failed before. The FIFO then holds
  the block, whatever it held at first, and the last command written before was idle. -/
  started : ∀ before answer after,
    Chip.busTraffic run.exchanges = before ++ (.write .command code, answer) :: after →
      after = [] ∧ (∀ entry ∈ before, entry.2 ≠ none) ∧
      (∀ content, Fifo.afterAll content (history ++ Chip.carried before) = block) ∧
      Chip.lastWrite? .command (history ++ Chip.carried before) = some ChipCommand.idle.code
  /-- The call succeeds exactly when the command was written. -/
  returned : run.result = .ok () ↔ ∃ (before : List (Access × Option Frame)) (response : Frame),
    Chip.busTraffic run.exchanges = before ++ [(.write .command code, some response)]
  /-- Otherwise it stops at a failed transaction and reports it. -/
  stopped : run.result ≠ .ok () → run.result = .error (.fault .spi) ∧
    ∃ before access, Chip.busTraffic run.exchanges = before ++ [(access, none)]
  /-- The flush writes back what the control register was just read to hold, with bit 4 set. -/
  flushed : ∀ before value answer after,
    Chip.busTraffic run.exchanges = before ++ (.write .fifoControl value, answer) :: after →
      ∃ (earlier : List (Access × Option Frame)) (response : Frame),
        before = earlier ++ [(.read .fifoControl, some response)] ∧
        value = response.second ||| 0x10

namespace Driver

open NfcFrontend.Action

variable {σ : Type} (chip : Server Chip.Reply σ) (state : σ)

/-! ## Reading a promise off an attempt -/

variable {block : List UInt8} {control : UInt8} {command : ChipCommand}

/-- The flush lets nothing through of what the FIFO held. -/
theorem afterAll_preparation (content : List UInt8) (history : List Access) :
    Fifo.afterAll content (history ++ preparation control block) = block := by
  have drained (held : List UInt8) : Fifo.afterAll held [.write .command 0x00, .read .fifoControl,
      .write .fifoControl (control ||| 0x10)] = [] :=
    Fifo.after_flush held control
  have filled := Fifo.afterAll_data [] block
  unfold Fifo.afterAll at drained filled ⊢
  rw [preparation, List.foldl_append, List.foldl_append, drained, filled, List.nil_append]

/-- The last command before the payload is idle, since filling the FIFO writes to another
register. -/
theorem lastWrite?_preparation (history : List Access) :
    Chip.lastWrite? .command (history ++ preparation control block) =
      some ChipCommand.idle.code := by
  have apart : Address.fifoData ≠ Address.command := by decide
  have filling : Chip.lastWrite? .command (block.map (.write .fifoData)) = none := by
    simp [Chip.lastWrite?, List.filterMap_map, apart]
  have opening : Chip.lastWrite? .command [.write .command 0x00, .read .fifoControl,
      .write .fifoControl (control ||| 0x10)] = some 0x00 := rfl
  rw [preparation, Chip.lastWrite?_append, Chip.lastWrite?_append, filling, opening]
  rfl

/-- The command is not among the accesses before it, unless it is idle itself. -/
theorem command_unprepared (running : command.code ≠ ChipCommand.idle.code) :
    .write .command command.code ∉ preparation control block := by
  have apart : Address.command ≠ Address.fifoControl := by decide
  have other : Address.fifoData ≠ Address.command := by decide
  have idle : command.code ≠ 0x00 := running
  simp [preparation, apart, other, idle]

/-- Up to the command an attempt is the whole preparation, and after it there is nothing. -/
theorem payload_at_command (running : command.code ≠ ChipCommand.idle.code)
    {before after : List (Access × Option Frame)} {answer : Option Frame}
    {verdict : Except (Stop Fault) Unit}
    (attempt : Chip.Attempt (payloadAccesses control block command)
      (before ++ (.write .command command.code, answer) :: after) verdict) :
    Chip.carried before = preparation control block ∧ (∀ entry ∈ before, entry.2 ≠ none) ∧
      Chip.Attempt [.write .command command.code]
        ((.write .command command.code, answer) :: after) verdict := by
  obtain ⟨rest, split, complete, attempt⟩ := attempt.split
  have apart : preparation control block ++ [.write .command command.code] =
      Chip.carried before ++ .write .command command.code :: rest := split
  obtain ⟨prepared, -, rfl⟩ := (List.append_cons_inj_of_notMem (command_unprepared running)
    List.not_mem_nil).mp apart
  exact ⟨prepared.symm, complete, attempt⟩

/-- The control register is written once, right after it was read. -/
theorem payload_at_flush {before after : List (Access × Option Frame)} {value : UInt8}
    {answer : Option Frame} {verdict : Except (Stop Fault) Unit}
    (attempt : Chip.Attempt (payloadAccesses control block command)
      (before ++ (.write .fifoControl value, answer) :: after) verdict) :
    Chip.carried before = [.write .command 0x00] ++ [.read .fifoControl] ∧
      (∀ entry ∈ before, entry.2 ≠ none) ∧ value = control ||| 0x10 := by
  obtain ⟨rest, split, complete, -⟩ := attempt.split
  have apart : Address.command ≠ Address.fifoControl := by decide
  have other : Address.fifoData ≠ Address.fifoControl := by decide
  have once : [.write .command 0x00, .read .fifoControl] ++
        .write .fifoControl (control ||| 0x10) ::
          (block.map (.write .fifoData) ++ [.write .command command.code]) =
      Chip.carried before ++ .write .fifoControl value :: rest := by
    rw [← split]
    simp [payloadAccesses, preparation]
  obtain ⟨opened, flushed, -⟩ := (List.append_cons_inj_of_notMem (by simp [apart.symm])
    (by simp [apart.symm, other])).mp once
  exact ⟨opened.symm, complete, (Access.write.inj flushed).2.symm⟩

/-- An attempt at a payload command that is not idle keeps the promise. -/
theorem startsOn_of_attempts (running : command.code ≠ ChipCommand.idle.code)
    {run : Run Chip.Reply σ (Except (Stop Fault) Unit)}
    (attempts : AttemptsReading .fifoControl
      (fun control => payloadAccesses control block command) run) (history : List Access) :
    StartsOn block command.code history run := by
  obtain ⟨control, attempt, known⟩ := attempts
  have verdict : (run.result.map fun _ => ()) = run.result := by cases run.result <;> rfl
  unfold Attempts at attempt
  rw [verdict] at attempt
  constructor
  case started =>
    intro before answer after split
    rw [split] at attempt
    obtain ⟨prepared, complete, last⟩ := payload_at_command running attempt
    rw [prepared]
    exact ⟨last.last.1, complete, fun content => afterAll_preparation content history,
      lastWrite?_preparation history⟩
  case returned =>
    constructor
    · intro succeeded
      rw [succeeded] at attempt
      obtain ⟨carriedOut, answered⟩ := attempt.complete
      exact Chip.answered_last answered carriedOut
    · rintro ⟨before, response, split⟩
      rw [split] at attempt
      obtain ⟨-, -, last⟩ := payload_at_command running attempt
      exact last.last.2.mpr (by simp)
  case stopped => exact attempt.incomplete
  case flushed =>
    intro before value answer after split
    rw [split] at attempt
    obtain ⟨carriedOut, answered, rfl⟩ := payload_at_flush attempt
    obtain ⟨earlier, response, rfl⟩ := Chip.answered_last answered carriedOut
    refine ⟨earlier, response, rfl, ?_⟩
    rw [known response (by simp [split])]

/-- Whatever earlier operations have left on any chip, loading a key or a protocol starts its
command on its payload alone.

Proof: the accesses attempted are known beforehand and stop at the first without an answer. The
command comes last among them, so it is written only behind a flush and the payload. -/
theorem no_stale_payload (earlier : List Op) :
    let before := operateAll chip earlier state
    let history := Chip.carried (traffic before.1)
    (∀ key : Key, StartsOn key.toList 0x02 history
      (Program.run chip (loadKey key).run before.2)) ∧
    (∀ (receiver : Receiver) (transmitter : Transmitter),
      StartsOn [Coded.code receiver, Coded.code transmitter] 0x0D history
        (Program.run chip (loadSettings receiver transmitter).run before.2)) ∧
    ∀ protocol : Protocol, StartsOn [protocol.code, protocol.code] 0x0D history
      (Program.run chip (loadProtocol protocol).run before.2) := by
  intro before history
  have loadsProtocol : ChipCommand.loadProtocol.code ≠ ChipCommand.idle.code := by decide
  have loadsKey : ChipCommand.loadKey.code ≠ ChipCommand.idle.code := by decide
  have settings (receiver : Receiver) (transmitter : Transmitter) :
      StartsOn [Coded.code receiver, Coded.code transmitter] 0x0D history
        (Program.run chip (loadSettings receiver transmitter).run before.2) :=
    startsOn_of_attempts loadsProtocol
      (attempts_payload chip before.2 _ (by simp [FifoMode.capacity]) .loadProtocol) history
  refine ⟨?_, settings, fun protocol => settings protocol.receiver protocol.transmitter⟩
  intro key
  have length : key.toList.length = keyLength := Vector.length_toList
  have fits : key.toList.length ≤ FifoMode.large.capacity := by
    rw [length]
    decide
  exact startsOn_of_attempts loadsKey
    (attempts_payload chip before.2 key.toList fits .loadKey) history

end Driver

end NfcFrontend
