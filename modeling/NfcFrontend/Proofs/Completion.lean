import NfcFrontend.Driver.Operation
import NfcFrontend.Traffic

/-!
# What a completed action has done

An action that ends with a value has had every access answered, and its exchanges can be
read off: one for a single access, and those of the parts in order for a sequence. The
chip is arbitrary throughout, so a value read is whatever the chip answered.
-/

namespace NfcFrontend

/-! ## Register contents -/

namespace BitField

/-- Switching a one-bit field on sets its bit and keeps the others. -/
theorem set_flag (field : BitField) (flag : field.width = 1) (byte : UInt8) :
    field.set 1 byte = byte ||| field.mask := by
  apply byte_ext
  intro position inside
  rw [getLsbD_set field 1 byte position inside, UInt8.toBitVec_or, BitVec.getLsbD_or,
    getLsbD_mask field position inside]
  by_cases covered : field.covers position = true
  · obtain rfl : position = field.low := by simpa [field.covers_flag flag] using covered
    simp [covered]
  · simp [covered]

/-- Switching a field off clears its bits and keeps the others. -/
theorem set_zero (field : BitField) (byte : UInt8) : field.set 0 byte = byte &&& ~~~field.mask := by
  simp [set]

end BitField

/-- Requesting a flush sets bit 4. -/
theorem Setting.apply_fifoFlush (byte : UInt8) :
    (Setting.fifoFlush true).apply byte = byte ||| 0x10 :=
  BitField.set_flag Field.fifoFlush rfl byte

/-- The mode bit is bit 7, set for the small FIFO. -/
theorem Setting.apply_fifoSize (mode : FifoMode) (byte : UInt8) :
    (Setting.fifoSize mode.sizeBit).apply byte =
      match mode with
      | .small => byte ||| 0x80
      | .large => byte &&& 0x7F := by
  cases mode with
  | small => exact BitField.set_flag Field.fifoSize rfl byte
  | large => exact BitField.set_zero Field.fifoSize byte

/-- A fresh command register holds the command's code alone. -/
theorem Setting.apply_fresh (command : ChipCommand) :
    (Setting.fresh command).apply Register.blank = command.code := by
  cases command <;> decide

/-! ## Runs that end with a value -/

namespace Action

variable {α β σ : Type} {chip : Server Chip.Reply σ} {state after : σ}
  {exchanges : List (Exchange Chip.Reply)}

/-- Against the chip, the action ends with the value after the exchanges, and leaves the
chip in a state. -/
def Completes (chip : Server Chip.Reply σ) (action : Action α) (state : σ) (value : α)
    (exchanges : List (Exchange Chip.Reply)) (after : σ) : Prop :=
  Program.run chip action.run state = ⟨.ok value, exchanges, after⟩

/-- A run that ends with a value completes. -/
theorem completes_of_result {action : Action α} {value : α}
    (result : (Program.run chip action.run state).result = .ok value) :
    let run := Program.run chip action.run state
    Completes chip action state value run.exchanges run.state :=
  congrArg (fun ended => Run.mk ended _ _) result

/-- Returning a value completes with it, and without an exchange. -/
theorem completes_pure {value result : α}
    (completed : Completes chip (pure value : Action α) state result exchanges after) :
    result = value ∧ exchanges = [] := by
  unfold Completes at completed
  cases completed
  exact ⟨rfl, rfl⟩

/-- A completed sequence is a completed first part and a completed second part. -/
theorem completes_bind {action : Action α} {next : α → Action β} {value : β}
    (completed : Completes chip (action >>= next) state value exchanges after) :
    ∃ middle first between second, Completes chip action state middle first between ∧
      Completes chip (next middle) between value second after ∧ exchanges = first ++ second := by
  unfold Completes at completed
  rw [ExceptT.run_bind, Program.run_bind] at completed
  cases run : Program.run chip action.run state with
  | mk result first between =>
    rw [run] at completed
    cases result with
    | error stop => cases completed
    | ok middle =>
      cases rest : Program.run chip (next middle).run between with
      | mk final second last =>
        dsimp only at completed
        rw [rest] at completed
        cases completed
        exact ⟨middle, first, between, second, run, rest, rfl⟩

/-- A completed access was answered, and its value is in the response. -/
theorem completes_access {access : Access} {value : UInt8}
    (completed : Completes chip (Driver.access access) state value exchanges after) :
    ∃ response : Frame, value = response.second ∧
      exchanges = [⟨.access access, some response⟩] := by
  unfold Completes at completed
  rw [Driver.access, ExceptT.run_mk, Program.run_ask] at completed
  cases answer : (chip (.access access) state).1 with
  | none =>
    rw [answer] at completed
    cases completed
  | some response =>
    rw [answer] at completed
    cases completed
    exact ⟨response, rfl, rfl⟩

/-- A completed write was answered, with a response that tells nothing. -/
theorem completes_write {address : Address} {value : UInt8}
    (completed : Completes chip (Driver.write address value) state () exchanges after) :
    ∃ response : Frame, exchanges = [⟨.access (.write address value), some response⟩] := by
  obtain ⟨read, first, between, second, accessed, ended, rfl⟩ := completes_bind completed
  obtain ⟨response, -, rfl⟩ := completes_access accessed
  obtain ⟨-, rfl⟩ := completes_pure ended
  exact ⟨response, rfl⟩

/-- The accesses among exchanges, without their answers. -/
def accesses (exchanges : List (Exchange Chip.Reply)) : List Access :=
  (Chip.busTraffic exchanges).map Prod.fst

/-- The accesses that lead up to a command with a payload, when the FIFO control register
shows `control`: cancel, empty the FIFO, fill it. -/
def preparation (control : UInt8) (block : List UInt8) : List Access :=
  [.write .command 0x00, .read .fifoControl, .write .fifoControl (control ||| 0x10)] ++
    block.map (.write .fifoData)

/-- The accesses that start such a command. -/
def payloadAccesses (control : UInt8) (block : List UInt8) (command : ChipCommand) : List Access :=
  preparation control block ++ [.write .command command.code]

end Action

end NfcFrontend
