import NfcFrontend.Driver.Operation
import NfcFrontend.Traffic

/-!
# The driver stops at the first failed transaction

A driver program is fail-stop when an access that gets no answer ends it there and
then, with a result that reports the failure, and when no other way to its end
reports one. `FailStop` says so of the program itself, along every branch it could
take, so the law does not depend on the chip that answers.

Fail-stop actions are closed under sequencing. Every driver operation is built that
way from single accesses, with checks of arguments in front. The loops over blocks
are followed by induction on the block. A clear end also tells which contracts are broken:
only that of a block transfer, by a block that is too long.
-/

namespace NfcFrontend

namespace Chip

variable {α β σ : Type}

/-- An unanswered access ends the program with a result that is `faulted`; every other
end is `clear`. -/
inductive FailStop (faulted clear : α → Prop) : Program Reply α → Prop where
  | done {result : α} (fine : clear result) : FailStop faulted clear (.done result)
  | access {access : Access} {next : Option Frame → Program Reply α} {result : α}
      (stops : next none = .done result) (reported : faulted result)
      (goesOn : ∀ response, FailStop faulted clear (next (some response))) :
      FailStop faulted clear (.ask (.access access) next)
  | drive {level : Level} {next : Bool → Program Reply α}
      (goesOn : ∀ driven, FailStop faulted clear (next driven)) :
      FailStop faulted clear (.ask (.drive level) next)

namespace FailStop

variable {faulted clear : α → Prop} {otherFaulted otherClear : β → Prop}
  {program : Program Reply α}

/-- A program may be continued if the continuation passes a reported failure on at
once, and is fail-stop from every clear result. -/
theorem bind {next : α → Program Reply β} (first : FailStop faulted clear program)
    (passed : ∀ result, faulted result → ∃ final, next result = .done final ∧ otherFaulted final)
    (rest : ∀ result, clear result → FailStop otherFaulted otherClear (next result)) :
    FailStop otherFaulted otherClear (program >>= next) := by
  induction first with
  | done fine => exact rest _ fine
  | @access access continued result stops reported goesOn inductionHypothesis =>
    obtain ⟨final, ended, stillReported⟩ := passed result reported
    refine .access ?_ stillReported inductionHypothesis
    show continued none >>= next = .done final
    rw [stops, Program.done_bind, ended]
  | drive goesOn inductionHypothesis => exact .drive inductionHypothesis

/-- Results may be renamed as long as failures stay failures and clear ends clear. -/
theorem map {rename : α → β} (first : FailStop faulted clear program)
    (stillFaulted : ∀ result, faulted result → otherFaulted (rename result))
    (stillClear : ∀ result, clear result → otherClear (rename result)) :
    FailStop otherFaulted otherClear (rename <$> program) := by
  rw [← bind_pure_comp]
  refine first.bind ?_ ?_
  · intro result reported
    exact ⟨rename result, rfl, stillFaulted result reported⟩
  · intro result fine
    exact .done (stillClear result fine)

end FailStop

/-- Traffic in two parts. -/
@[simp] theorem busTraffic_append (first second : List (Exchange Reply)) :
    busTraffic (first ++ second) = busTraffic first ++ busTraffic second :=
  List.filterMap_append

/-- An access is traffic, whether or not it was answered. -/
@[simp] theorem busTraffic_access (access : Access) (answer : Option Frame)
    (later : List (Exchange Reply)) :
    busTraffic (⟨.access access, answer⟩ :: later) = (access, answer) :: busTraffic later := rfl

/-- A level on the reset pin is not. -/
@[simp] theorem busTraffic_drive (level : Level) (driven : Bool) (later : List (Exchange Reply)) :
    busTraffic (⟨.drive level, driven⟩ :: later) = busTraffic later := rfl

/-- Every access among the exchanges got its answer. -/
def Answered (exchanges : List (Exchange Reply)) : Prop :=
  ∀ entry ∈ busTraffic exchanges, entry.2 ≠ none

/-- No exchange, no access without an answer. -/
theorem answered_nil : Answered [] := by
  intro entry member
  cases member

/-- A run either ends clear with every access answered, or its last exchange is its only
unanswered access and its result reports that. -/
def Ended (faulted clear : α → Prop) (run : Run Reply σ α) : Prop :=
  (clear run.result ∧ Answered run.exchanges) ∨
    (faulted run.result ∧ ∃ earlier access,
      run.exchanges = earlier ++ [⟨.access access, none⟩] ∧ Answered earlier)

/-- An answered exchange in front changes nothing about the end of a run. -/
theorem Ended.cons {faulted clear : α → Prop} {run : Run Reply σ α}
    (ended : Ended faulted clear run) {exchange : Exchange Reply}
    (answered : Answered [exchange]) :
    Ended faulted clear ⟨run.result, exchange :: run.exchanges, run.state⟩ := by
  have front (later : List (Exchange Reply)) (rest : Answered later) :
      Answered (exchange :: later) := by
    intro entry member
    rw [← List.singleton_append, busTraffic_append, List.mem_append] at member
    rcases member with first | last
    · exact answered entry first
    · exact rest entry last
  rcases ended with ⟨fine, complete⟩ | ⟨reported, earlier, access, split, complete⟩
  · exact .inl ⟨fine, front run.exchanges complete⟩
  · exact .inr ⟨reported, exchange :: earlier, access, congrArg (exchange :: ·) split,
      front earlier complete⟩

/-- Against any chip, a fail-stop program stops at its first unanswered access. -/
theorem FailStop.run_ended {faulted clear : α → Prop} {program : Program Reply α}
    (stops : FailStop faulted clear program) (chip : Server Reply σ) (state : σ) :
    Ended faulted clear (program.run chip state) := by
  induction stops generalizing state with
  | done fine => exact .inl ⟨fine, by simp [Answered, busTraffic]⟩
  | @access access next result stops reported goesOn inductionHypothesis =>
    rw [Program.run_ask]
    cases (chip (.access access) state).1 with
    | none =>
      rw [stops]
      exact .inr ⟨reported, [], access, rfl, by simp [Answered, busTraffic]⟩
    | some response =>
      exact (inductionHypothesis response _).cons (by simp [Answered, busTraffic])
  | drive goesOn inductionHypothesis =>
    rw [Program.run_ask]
    exact (inductionHypothesis _ _).cons (by simp [Answered, busTraffic])

end Chip

/-! ## Fail-stop actions -/

/-- A result that reports a failed bus transaction. -/
def Action.Faulted {α : Type} (result : Except (Stop Fault) α) : Prop :=
  result = .error (.fault .spi)

/-- A result that is a value, or a stop of an allowed kind. -/
def Action.Clear {α : Type} (allowed : Stop Fault → Prop) : Except (Stop Fault) α → Prop
  | .ok _ => True
  | .error stop => allowed stop

/-- An action that stops with a bus fault at its first unanswered access, and otherwise
only for an allowed reason. -/
def Action.FailStop {α : Type} (allowed : Stop Fault → Prop) (action : Action α) : Prop :=
  Chip.FailStop Action.Faulted (Action.Clear allowed) action.run

/-- Every fault is allowed that is not a bus fault, and of the violations those listed. -/
def Action.elsewhere (violations : Violation → Prop) : Stop Fault → Prop
  | .fault cause => cause ≠ .spi
  | .abort violation => violations violation

namespace Action

variable {α β : Type} {allowed : Stop Fault → Prop}

/-- Returning a value stops nowhere. -/
theorem failStop_pure (value : α) : FailStop allowed (pure value : Action α) := .done trivial

/-- An action that stops for an allowed reason is fail-stop, since it makes no access. -/
theorem failStop_throw {stop : Stop Fault} (fine : allowed stop) :
    FailStop allowed (throw stop : Action α) := .done fine

/-- Sequencing keeps an action fail-stop: a reported fault skips the second part. -/
theorem failStop_bind {action : Action α} {next : α → Action β} (first : FailStop allowed action)
    (rest : ∀ value, FailStop allowed (next value)) : FailStop allowed (action >>= next) := by
  refine Chip.FailStop.bind first ?_ ?_
  · rintro result rfl
    exact ⟨.error (.fault .spi), rfl, rfl⟩
  · intro result fine
    cases result with
    | ok value => exact rest value
    | error stop => exact .done fine

/-- A refused argument stops an action before any access. -/
theorem failStop_ofArgument {argument : Except Fault α}
    (fine : ∀ fault, argument = .error fault → allowed (.fault fault)) :
    FailStop allowed (ofArgument argument) := by
  cases argument with
  | ok value => exact failStop_pure value
  | error fault => exact failStop_throw (fine fault rfl)

end Action

namespace Driver

open NfcFrontend.Action

variable {allowed : Stop Fault → Prop} {violations : Violation → Prop}

/-- One access stops exactly when it is not answered. -/
theorem failStop_access (access : Access) : FailStop allowed (Driver.access access) :=
  .access rfl rfl fun _ => .done trivial

/-- The reset pin may fail too, but never with a bus fault. -/
theorem failStop_drive (level : Level) : FailStop (elsewhere violations) (Driver.drive level) := by
  refine .drive ?_
  intro driven
  cases driven with
  | true => exact .done trivial
  | false => exact .done (show elsewhere violations (.fault .pin) by simp [elsewhere])

/-- So does a write. -/
theorem failStop_write (address : Address) (value : UInt8) :
    FailStop allowed (write address value) :=
  failStop_bind (failStop_access _) fun _ => failStop_pure ()

/-- A register that could not be read is not written. -/
theorem failStop_modify (register : Register) (change : UInt8 → UInt8) :
    FailStop allowed (modify register change) :=
  failStop_bind (failStop_access _) fun content => failStop_write _ (change content)

/-- A flush is such a change. -/
theorem failStop_flushFifo : FailStop allowed flushFifo := failStop_modify _ _

/-- The mode is not touched unless the FIFO could be flushed. -/
theorem failStop_setFifoMode (mode : FifoMode) : FailStop allowed (setFifoMode mode) :=
  failStop_bind failStop_flushFifo fun _ => failStop_modify _ _

/-- Without the low byte of the length its high bits are not asked for. -/
theorem failStop_fifoLength : FailStop allowed fifoLength :=
  failStop_bind (failStop_access _) fun _ =>
    failStop_bind (failStop_access _) fun _ => failStop_pure _

/-- Starting a command is a write. -/
theorem failStop_execute (command : ChipCommand) : FailStop allowed (execute command) :=
  failStop_write _ _

/-- Detection is not started unless what was running could be cancelled. -/
theorem failStop_detectCard : FailStop allowed detectCard :=
  failStop_bind (failStop_execute .idle) fun _ => failStop_execute .lpcd

/-- Each byte of a block is one access; the rest of the block follows a success only. -/
theorem failStop_pushBytes (block : List UInt8) : FailStop allowed (pushBytes block) := by
  induction block with
  | nil => exact failStop_pure ()
  | cons byte rest inductionHypothesis =>
    exact failStop_bind (failStop_write _ byte) fun _ => inductionHypothesis

/-- A block that fits the larger FIFO is written without breaking the contract. -/
theorem failStop_writeFifo (block : List UInt8) (fits : block.length ≤ FifoMode.large.capacity) :
    FailStop allowed (writeFifo block) := by
  rw [writeFifo, if_pos fits]
  exact failStop_pushBytes block

/-- A command with a payload is fail-stop when its payload fits. -/
theorem failStop_payload (block : List UInt8) (fits : block.length ≤ FifoMode.large.capacity)
    (command : ChipCommand) :
    FailStop allowed (do
      idle
      flushFifo
      writeFifo block
      execute command) :=
  failStop_bind (failStop_execute .idle) fun _ =>
    failStop_bind failStop_flushFifo fun _ =>
      failStop_bind (failStop_writeFifo block fits) fun _ => failStop_execute command

/-- A key fits the FIFO, so it is loaded without breaking a contract. -/
theorem failStop_loadKey (key : Key) : FailStop allowed (loadKey key) := by
  have length : key.toList.length = keyLength := Vector.length_toList
  refine failStop_payload key.toList ?_ .loadKey
  rw [length]
  decide

/-- So do the codes of two settings. -/
theorem failStop_loadSettings (receiver : Receiver) (transmitter : Transmitter) :
    FailStop allowed (loadSettings receiver transmitter) :=
  failStop_payload [Coded.code receiver, Coded.code transmitter]
    (by simp [FifoMode.capacity]) .loadProtocol

/-- Each entry is one access, and the entries after it follow a success only. By induction on the
entries. -/
theorem failStop_writeEntries (entries : List (Address × UInt8)) :
    FailStop allowed (writeEntries entries) := by
  induction entries with
  | nil => exact failStop_pure ()
  | cons entry rest inductionHypothesis =>
    exact failStop_bind (failStop_write entry.1 entry.2) fun _ => inductionHypothesis

/-- A patch is checked before its first access. The check does not report a bus fault, and after
it the patch may be listed. -/
theorem failStop_writePatch (patch : Patch) :
    FailStop (elsewhere violations) (writePatch patch) := by
  unfold writePatch
  cases valid : patch.validate with
  | error fault =>
    refine failStop_throw (show fault ≠ .spi from ?_)
    unfold Patch.validate at valid
    split at valid
    · cases valid
      simp
    · cases valid
  | ok value =>
    rw [Patch.entries, valid]
    exact failStop_writeEntries _

/-- A transfer of any length is fail-stop; one that is too long makes no access. -/
theorem failStop_writeFifo_any (block : List UInt8)
    (long : FifoMode.large.capacity < block.length → violations .transferTooLong) :
    FailStop (elsewhere violations) (writeFifo block) := by
  by_cases fits : block.length ≤ FifoMode.large.capacity
  · exact failStop_writeFifo block fits
  · rw [writeFifo, if_neg fits]
    exact failStop_throw (long (Nat.lt_of_not_le fits))

/-- A byte that names no register is refused with a fault that names the byte. -/
theorem failStop_ofAddress (byte : UInt8) :
    FailStop (elsewhere violations) (ofArgument (Address.ofByte byte)) := by
  refine failStop_ofArgument ?_
  intro fault refused
  rcases Address.ofByte_cases byte with ⟨address, -, named⟩ | ⟨-, unnamed⟩
  · cases named.symm.trans refused
  · cases unnamed.symm.trans refused
    simp [elsewhere]

/-- An identifier that names no protocol is refused with a fault that names the identifier. -/
theorem failStop_ofProtocol (id : UInt8) :
    FailStop (elsewhere violations) (ofArgument (Protocol.ofId id)) := by
  refine failStop_ofArgument ?_
  intro fault refused
  rcases Protocol.ofId_cases id with ⟨protocol, -, named⟩ | ⟨-, unnamed⟩
  · cases named.symm.trans refused
  · cases unnamed.symm.trans refused
    simp [elsewhere]

/-- A block read stops at its first failed access, whatever it has received by then. -/
theorem failStop_fillBuffer (buffer : List UInt8) :
    Chip.FailStop (fun result => Faulted result.1) (fun result => Clear allowed result.1)
      (fillBuffer buffer) := by
  induction buffer with
  | nil => exact .done trivial
  | cons old rest inductionHypothesis =>
    have one : FailStop allowed (readRegister .fifoData) := failStop_access _
    refine Chip.FailStop.bind one ?_ ?_
    · rintro result rfl
      exact ⟨(.error (.fault .spi), old :: rest), rfl, rfl⟩
    · intro result fine
      cases result with
      | error stop => exact .done fine
      | ok byte =>
        refine inductionHypothesis.bind ?_ ?_
        · rintro ⟨verdict, filled⟩ reported
          exact ⟨(verdict, byte :: filled), rfl, reported⟩
        · rintro ⟨verdict, filled⟩ fine
          exact .done fine

/-- A block read of any length is fail-stop; one that is too long makes no access and leaves the
buffer as it is. -/
theorem failStop_readFifo (buffer : List UInt8)
    (long : FifoMode.large.capacity < buffer.length → violations .transferTooLong) :
    Chip.FailStop (fun result => Faulted result.1)
      (fun result => Clear (elsewhere violations) result.1) (readFifo buffer) := by
  by_cases fits : buffer.length ≤ FifoMode.large.capacity
  · rw [readFifo, if_pos fits]
    exact failStop_fillBuffer buffer
  · rw [readFifo, if_neg fits]
    exact .done (long (Nat.lt_of_not_le fits))

/-! ## Operations -/

/-- An outcome that reports a failed bus transaction. -/
def Outcome.Faulted (outcome : Outcome) : Prop := outcome.verdict = .error (.fault .spi)

/-- The operation is a block transfer that no FIFO could hold. -/
def Op.Oversized : Op → Prop
  | .writeFifo block | .readFifo block => FifoMode.large.capacity < block.length
  | _ => False

/-- The contracts an operation breaks. -/
def Op.breaks (operation : Op) (violation : Violation) : Prop :=
  violation = .transferTooLong ∧ operation.Oversized

/-- An outcome of a run in which no transaction failed: an answer, another fault, or one of the
violations. -/
def Outcome.Clear (violations : Violation → Prop) (outcome : Outcome) : Prop :=
  Action.Clear (elsewhere violations) outcome.verdict

/-- Rendering the value of a verdict as an answer changes no stop. -/
theorem clear_answer {α : Type} (answer : α → Answer) (buffer : List UInt8)
    {verdict : Except (Stop Fault) α} (fine : Action.Clear (elsewhere violations) verdict) :
    Outcome.Clear violations ⟨verdict.map answer, buffer⟩ := by
  cases verdict with
  | ok value => trivial
  | error stop => exact fine

/-- Answering with the value of an action keeps it fail-stop. -/
theorem failStop_answer {α : Type} {action : Action α} (answer : α → Answer)
    (stops : FailStop (elsewhere violations) action) :
    Chip.FailStop Outcome.Faulted (Outcome.Clear violations)
      ((fun verdict => Outcome.bare (verdict.map answer)) <$> action.run) := by
  refine Chip.FailStop.map stops ?_ ?_
  · rintro result rfl
    rfl
  · intro result fine
    exact clear_answer answer [] fine

/-- Every operation of the driver is fail-stop, whatever its arguments, and only a block that is
too long breaks a contract. -/
theorem failStop_operation (operation : Op) :
    Chip.FailStop Outcome.Faulted (Outcome.Clear operation.breaks) operation.program := by
  cases operation with
  | read address =>
    exact failStop_answer _ (failStop_bind (failStop_ofAddress address) fun _ => failStop_access _)
  | write address value =>
    exact failStop_answer _
      (failStop_bind (failStop_ofAddress address) fun _ => failStop_write _ value)
  | readRegister register => exact failStop_answer _ (failStop_access _)
  | writeRegister register content => exact failStop_answer _ (failStop_write _ content)
  | modify register change => exact failStop_answer _ (failStop_modify register change)
  | writePatch address values =>
    exact failStop_answer _
      (failStop_bind (failStop_ofAddress address) fun _ => failStop_writePatch _)
  | readVersion => exact failStop_answer _ (failStop_access _)
  | enableField => exact failStop_answer _ (failStop_write _ _)
  | disableField => exact failStop_answer _ (failStop_write _ _)
  | powerUp => exact failStop_answer _ (failStop_drive .low)
  | powerDown => exact failStop_answer _ (failStop_drive .high)
  | flushFifo => exact failStop_answer _ failStop_flushFifo
  | setFifoMode mode => exact failStop_answer _ (failStop_setFifoMode mode)
  | writeFifo block =>
    exact failStop_answer _ (failStop_writeFifo_any block fun long => ⟨rfl, long⟩)
  | readFifo buffer =>
    have breaks (long : FifoMode.large.capacity < buffer.length) :
        (Op.readFifo buffer).breaks .transferTooLong := ⟨rfl, long⟩
    refine Chip.FailStop.map (failStop_readFifo buffer breaks) ?_ ?_
    · rintro ⟨verdict, filled⟩ rfl
      rfl
    · rintro ⟨verdict, filled⟩ fine
      exact clear_answer _ filled fine
  | fifoLength => exact failStop_answer _ failStop_fifoLength
  | execute command => exact failStop_answer _ (failStop_execute command)
  | idle => exact failStop_answer _ (failStop_execute .idle)
  | detectCard => exact failStop_answer _ failStop_detectCard
  | loadKey key => exact failStop_answer _ (failStop_loadKey key)
  | loadProtocol id =>
    exact failStop_answer _
      (failStop_bind (failStop_ofProtocol id) fun _ => failStop_loadSettings _ _)
  | loadSettings receiver transmitter =>
    exact failStop_answer _ (failStop_loadSettings receiver transmitter)

end Driver

end NfcFrontend
