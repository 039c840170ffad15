import NfcFrontend.Proofs.Updates

/-!
# What operations do to the registers

Seen from the registers there are two kinds of operations. Some write nothing: those that
read, those that only drive the reset pin, and those whose arguments are refused. All others
make a list of updates and nothing else, and each of these lists may be made again from the
start after any part of it has been made.
-/

namespace NfcFrontend

/-! ## Programs that write nothing -/

namespace Chip

variable {α β : Type}

/-- The program writes no register, whatever it is answered. -/
inductive Quiet : Program Reply α → Prop where
  | done (result : α) : Quiet (.done result)
  | read (address : Address) {next : Option Frame → Program Reply α}
      (goesOn : ∀ answer, Quiet (next answer)) : Quiet (.ask (.access (.read address)) next)
  | drive (level : Level) {next : Bool → Program Reply α}
      (goesOn : ∀ driven, Quiet (next driven)) : Quiet (.ask (.drive level) next)

/-- Programs that write nothing may be put in sequence. By induction on the first. -/
theorem Quiet.bind {program : Program Reply α} {next : α → Program Reply β}
    (first : Quiet program) (rest : ∀ result, Quiet (next result)) : Quiet (program >>= next) := by
  induction first with
  | done result => exact rest result
  | read address goesOn inductionHypothesis => exact .read address inductionHypothesis
  | drive level goesOn inductionHypothesis => exact .drive level inductionHypothesis

/-- Renaming the result writes nothing. -/
theorem Quiet.map {program : Program Reply α} (rename : α → β) (quiet : Quiet program) :
    Quiet (rename <$> program) := by
  rw [← bind_pure_comp]
  exact quiet.bind fun result => .done (rename result)

end Chip

/-! ## Actions -/

namespace Driver

open Update

/-- A read writes nothing, whether or not it is answered. -/
theorem quiet_read (address : Address) : Chip.Quiet (Driver.read address).run := by
  refine .read address ?_
  intro answer
  cases answer with
  | none => exact .done _
  | some response => exact .done _

/-- Nor does a level on the reset pin. -/
theorem quiet_drive (level : Level) : Chip.Quiet (Driver.drive level).run := by
  refine .drive level ?_
  intro driven
  cases driven with
  | false => exact .done _
  | true => exact .done _

/-- A block read writes nothing, as far as it goes. By induction on the buffer, one read for each
place. -/
theorem quiet_fillBuffer (buffer : List UInt8) : Chip.Quiet (fillBuffer buffer) := by
  induction buffer with
  | nil => exact .done _
  | cons old rest inductionHypothesis =>
    refine (quiet_read .fifoData).bind ?_
    intro received
    cases received with
    | error stop => exact .done _
    | ok byte => exact inductionHypothesis.bind fun ended => .done _

/-- A block read that is too long does not even begin. -/
theorem quiet_readFifo (buffer : List UInt8) : Chip.Quiet (readFifo buffer) := by
  unfold readFifo
  split
  · exact quiet_fillBuffer buffer
  · exact .done _

/-- Actions that write nothing in sequence. -/
theorem quiet_bind {α β : Type} {action : Action α} {next : α → Action β}
    (first : Chip.Quiet action.run) (rest : ∀ value, Chip.Quiet (next value).run) :
    Chip.Quiet (action >>= next).run := by
  refine first.bind ?_
  intro result
  cases result with
  | error stop => exact .done _
  | ok value => exact rest value

/-- What an action without a value may come to: it writes no register, or it makes updates that
may be made again from the start. -/
inductive Repeatable : Action Unit → Prop where
  | quiet {action : Action Unit} (writesNothing : Chip.Quiet action.run) : Repeatable action
  | updates {updates : List Update} (recoverable : Recoverable updates) :
      Repeatable (makeAll updates)

namespace Repeatable

variable {α : Type}

/-- An action that is equal to updates is as repeatable as they are. -/
theorem of_updates {action : Action Unit} {updates : List Update}
    (made : action = makeAll updates) (recoverable : Recoverable updates) :
    Repeatable action := by
  rw [made]
  exact .updates recoverable

/-- A refused argument stops the action before it has written anything. -/
theorem ofArgument {argument : Except Fault α} {next : α → Action Unit}
    (rest : ∀ value, Repeatable (next value)) :
    Repeatable (Action.ofArgument argument >>= next) := by
  cases argument with
  | ok value => exact rest value
  | error fault => exact .quiet (.done _)

/-- So does a broken contract. -/
theorem ofContract {contract : Except Violation α} {next : α → Action Unit}
    (rest : ∀ value, Repeatable (next value)) :
    Repeatable (Action.ofContract contract >>= next) := by
  cases contract with
  | ok value => exact rest value
  | error violation => exact .quiet (.done _)

/-- A write is one update, and nothing can come before it. -/
theorem write (address : Address) (value : UInt8) : Repeatable (Driver.write address value) :=
  of_updates (write_eq address value) (recoverable_singleton _)

/-- So is a change: it fails before it has written anything. -/
theorem modify (register : Register) (revise : UInt8 → UInt8) :
    Repeatable (Driver.modify register revise) :=
  of_updates (modify_eq register revise) (recoverable_singleton _)

/-- Starting a command is a write. -/
theorem execute (command : ChipCommand) : Repeatable (Driver.execute command) :=
  of_updates (execute_eq command) (recoverable_singleton _)

/-- A patch is a list of stores once it was found valid, and a refused one writes nothing. Stores
may be made again, whatever they have left. -/
theorem writePatch (patch : Patch) : Repeatable (Driver.writePatch patch) := by
  apply ofArgument
  intro _
  apply ofContract
  intro entries
  refine of_updates (writeEntries_eq entries) (recoverable_stores ?_)
  intro update member
  obtain ⟨entry, -, rfl⟩ := List.mem_map.mp member
  exact ⟨entry.1, entry.2, rfl⟩

/-- So is a block for the FIFO, unless it is too long. -/
theorem writeFifo (block : List UInt8) : Repeatable (Driver.writeFifo block) := by
  unfold Driver.writeFifo
  split
  · refine of_updates (pushBytes_eq block) (recoverable_stores ?_)
    intro update member
    obtain ⟨byte, -, rfl⟩ := List.mem_map.mp member
    exact ⟨.fifoData, byte, rfl⟩
  · exact .quiet (.done _)

/-- The mode change makes two changes of one register. Only the flush can come before a failure,
and to flush again sets a bit that is set. -/
theorem setFifoMode (mode : FifoMode) : Repeatable (Driver.setFifoMode mode) := by
  refine of_updates (setFifoMode_eq mode) (recoverable_changes ?_)
  intro old
  exact BitField.set_set Field.fifoFlush 1 1 old

/-- Detection makes two stores to the command register. -/
theorem detectCard : Repeatable Driver.detectCard := by
  refine of_updates detectCard_eq (recoverable_stores ?_)
  intro update member
  obtain rfl | rfl : update = .store .command ChipCommand.idle.code ∨
      update = .store .command ChipCommand.lpcd.code := by simpa using member
  · exact ⟨_, _, rfl⟩
  · exact ⟨_, _, rfl⟩

/-- A payload command may be made again from the start: its flush forgets the flush before it, and
everything else it writes is stored anew. -/
theorem loadSettings (receiver : Receiver) (transmitter : Transmitter) :
    Repeatable (Driver.loadSettings receiver transmitter) :=
  of_updates (payload_eq (by simp [FifoMode.capacity]) .loadProtocol) (recoverable_payload _ _)

/-- So may a key, whose bytes fit the FIFO. -/
theorem loadKey (key : Key) : Repeatable (Driver.loadKey key) := by
  have length : key.toList.length = keyLength := Vector.length_toList
  have fits : key.toList.length ≤ FifoMode.large.capacity := by
    rw [length]
    decide
  exact of_updates (payload_eq fits .loadKey) (recoverable_payload _ _)

end Repeatable

/-! ## Operations -/

/-- An operation that returns nothing is a repeatable action. All others write nothing. There is
one case for each. -/
theorem repeatable_operation (operation : Op) :
    Chip.Quiet operation.program ∨
      ∃ action, Repeatable action ∧ operation.program = Op.silent action := by
  cases operation with
  | read byte =>
    refine .inl (Chip.Quiet.map _ ?_)
    cases named : Address.ofByte byte with
    | ok address => exact quiet_read address
    | error fault => exact .done _
  | write byte value => exact .inr ⟨_, .ofArgument fun address => .write address value, rfl⟩
  | readRegister register => exact .inl ((quiet_read register.address).map _)
  | writeRegister register content => exact .inr ⟨_, .write register.address content, rfl⟩
  | modify register revise => exact .inr ⟨_, .modify register revise, rfl⟩
  | writePatch byte values =>
    exact .inr ⟨_, .ofArgument fun address => .writePatch ⟨address, values⟩, rfl⟩
  | readVersion => exact .inl ((quiet_read Register.version.address).map _)
  | enableField | disableField => exact .inr ⟨_, .write Register.drvMode.address _, rfl⟩
  | powerUp | powerDown => exact .inl ((quiet_drive _).map _)
  | flushFifo => exact .inr ⟨_, .modify .fifoControl _, rfl⟩
  | setFifoMode mode => exact .inr ⟨_, .setFifoMode mode, rfl⟩
  | writeFifo block => exact .inr ⟨_, .writeFifo block, rfl⟩
  | readFifo buffer => exact .inl ((quiet_readFifo buffer).map _)
  | fifoLength =>
    refine .inl (Chip.Quiet.map _ ?_)
    exact quiet_bind (quiet_read _) fun length => quiet_bind (quiet_read _) fun control => .done _
  | execute command => exact .inr ⟨_, .execute command, rfl⟩
  | idle => exact .inr ⟨_, .execute .idle, rfl⟩
  | detectCard => exact .inr ⟨_, .detectCard, rfl⟩
  | loadKey key => exact .inr ⟨_, .loadKey key, rfl⟩
  | loadProtocol id => exact .inr ⟨_, .ofArgument fun protocol => .loadSettings _ _, rfl⟩
  | loadSettings receiver transmitter => exact .inr ⟨_, .loadSettings receiver transmitter, rfl⟩

end Driver

end NfcFrontend
