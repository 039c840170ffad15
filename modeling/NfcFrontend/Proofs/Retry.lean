import NfcFrontend.Driver.Sequence
import NfcFrontend.Proofs.Repeatable

/-!
# Trying an operation again

An operation that failed may have done a part of its work. Trying it again starts from the
registers it left, and some of those it reads back. `Retriable` says that this makes no
difference: from whatever a failed attempt has left, an attempt that nothing disturbs ends
with the same result and the same registers as from the registers before. Then any number of
failed attempts makes no difference either.

An operation that writes nothing is retriable, since it leaves all registers as they were. All
others make a recoverable list of updates.
-/

namespace NfcFrontend

/-! ## Attempts that meet no failure -/

namespace Chip

/-- Nothing failed while these exchanges were made. -/
def Smooth (exchanges : List (Exchange Reply)) : Prop :=
  Answered exchanges ∧ ∀ entry ∈ pinTraffic exchanges, entry.2 = true

/-- Then the first exchange went well, and nothing failed after it. -/
theorem smooth_access {access : Access} {answer : Option Frame} {later : List (Exchange Reply)}
    (smooth : Smooth (⟨.access access, answer⟩ :: later)) : answer ≠ none ∧ Smooth later := by
  obtain ⟨answered, driven⟩ := smooth
  rw [Answered, busTraffic_access, List.forall_mem_cons] at answered
  exact ⟨answered.1, answered.2, driven⟩

/-- The same of a level on the reset pin. -/
theorem smooth_drive {level : Level} {driven : Bool} {later : List (Exchange Reply)}
    (smooth : Smooth (⟨.drive level, driven⟩ :: later)) : driven = true ∧ Smooth later := by
  obtain ⟨answered, levels⟩ := smooth
  have pins : pinTraffic (⟨.drive level, driven⟩ :: later) =
      (level, driven) :: pinTraffic later := rfl
  rw [pins, List.forall_mem_cons] at levels
  exact ⟨levels.1, answered, levels.2⟩

end Chip

/-- Renaming the result changes nothing else about a run. -/
theorem Program.run_map {Call σ α β : Type} {Reply : Call → Type} (serve : Server Reply σ)
    (rename : α → β) (program : Program Reply α) (state : σ) :
    (rename <$> program).run serve state =
      let run := program.run serve state
      ⟨rename run.result, run.exchanges, run.state⟩ := by
  rw [← bind_pure_comp, Program.run_bind]
  simp

/-! ## How actions end -/

namespace Action

variable {σ α β : Type} {chip : Server Chip.Reply σ}

/-- The action ends with a result in a state for which this holds. -/
def Ends (chip : Server Chip.Reply σ) (action : Action α) (state : σ)
    (holds : Except (Stop Fault) α → σ → Prop) : Prop :=
  let run := Program.run chip action.run state
  holds run.result run.state

/-- What holds at the end may be weakened. -/
theorem ends_mono {action : Action α} {state : σ} {holds weaker : Except (Stop Fault) α → σ → Prop}
    (ends : Ends chip action state holds) (implied : ∀ result after, holds result after →
      weaker result after) : Ends chip action state weaker :=
  implied _ _ ends

/-- A sequence ends where its first part stops, and otherwise as its second part does. -/
theorem ends_bind {action : Action α} {next : α → Action β} {state : σ}
    {first : Except (Stop Fault) α → σ → Prop} {whole : Except (Stop Fault) β → σ → Prop}
    (begun : Ends chip action state first)
    (stopped : ∀ stop between, first (.error stop) between → whole (.error stop) between)
    (goesOn : ∀ value between, first (.ok value) between → Ends chip (next value) between whole) :
    Ends chip (action >>= next) state whole := by
  unfold Ends at begun ⊢
  cases ran : Program.run chip action.run state with
  | mk result exchanges between =>
    rw [ran] at begun
    cases result with
    | error stop =>
      rw [run_bind_of_error ran]
      exact stopped stop between begun
    | ok value =>
      rw [run_bind_of_ok ran]
      exact goesOn value between begun

end Action

namespace Bench

open NfcFrontend.Action (Ends)
open Driver (Update)

variable {α β : Type} {bench : Bench} {memory : Memory}

/-- One transaction on a plain bench fails and leaves the registers alone, or is an access to
them. -/
theorem Plain.transfer_cases (plain : Plain bench memory) (plan : Plan) (access : Access) :
    let transferred := bench.transfer plan access.frame
    let served := Memory.serve (.access access) memory
    (transferred.1 = none ∧ Plain transferred.2 memory) ∨
      (transferred.1 = served.1 ∧ Plain transferred.2 served.2) := by
  cases fails : plan.busFails bench.transactions with
  | true =>
    rw [transfer_failed access.frame fails]
    exact .inl ⟨rfl, plain.registers, plain.unscripted⟩
  | false => exact .inr (plain.transfer fails access)

/-- A program that meets no failure runs as it does on the plain registers. -/
theorem Plain.run_smooth (plain : Plain bench memory) (plan : Plan)
    (program : Program Chip.Reply α)
    (smooth : Chip.Smooth (program.run (serve plan) bench).exchanges) :
    let run := program.run (serve plan) bench
    let plainly := program.run Memory.serve memory
    run.result = plainly.result ∧ Plain run.state plainly.state := by
  induction program generalizing bench memory with
  | done result => exact ⟨rfl, plain⟩
  | ask call next inductionHypothesis =>
    rw [Program.run_ask] at smooth ⊢
    rw [Program.run_ask]
    cases call with
    | access access =>
      obtain ⟨answered, rest⟩ := Chip.smooth_access smooth
      rcases plain.transfer_cases plan access with ⟨failed, -⟩ | ⟨served, kept⟩
      · exact absurd failed answered
      · have same : (serve plan (.access access) bench).1 =
            (Memory.serve (.access access) memory).1 := served
        rw [same] at rest ⊢
        exact inductionHypothesis _ kept rest
    | drive level =>
      obtain ⟨driven, rest⟩ := Chip.smooth_drive smooth
      rw [driven] at rest ⊢
      exact inductionHypothesis true ⟨plain.registers, plain.unscripted⟩ rest

/-! ## Attempts that fail -/

/-- The result of a program on plain registers, and the registers it leaves. -/
def ending (program : Program Chip.Reply α) (memory : Memory) : α × Memory :=
  let run := program.run Memory.serve memory
  (run.result, run.state)

/-- An attempt that reports a failure has left registers from which the program ends as it
would have. -/
def Retriable (reports : α → Prop) (program : Program Chip.Reply α) : Prop :=
  ∀ (plan : Plan) (bench : Bench) (memory : Memory), Plain bench memory →
    let run := program.run (serve plan) bench
    reports run.result → ∃ left, Plain run.state left ∧ ending program left = ending program memory

/-- How an access ends on plain registers. -/
inductive Accessed (access : Access) (memory : Memory) :
    Except (Stop Fault) UInt8 → Bench → Prop where
  | answered {after : Bench} (response : Frame)
      (served : (Memory.serve (.access access) memory).1 = some response)
      (plain : Plain after (Memory.serve (.access access) memory).2) :
      Accessed access memory (.ok response.second) after
  | failed {after : Bench} (plain : Plain after memory) :
      Accessed access memory (.error (.fault .spi)) after

/-- An access on plain registers is answered as they stand, or fails and leaves them. -/
theorem Plain.accessed (plain : Plain bench memory) (plan : Plan) (access : Access) :
    Ends (serve plan) (Driver.access access) bench (Accessed access memory) := by
  have transferred : serve plan (.access access) bench = bench.transfer plan access.frame := rfl
  rw [Ends, Driver.access, ExceptT.run_mk, Program.run_ask, transferred]
  rcases plain.transfer_cases plan access with ⟨failed, kept⟩ | ⟨served, kept⟩
  · rw [failed]
    exact .failed kept
  · obtain ⟨response, answered⟩ : ∃ response,
        (Memory.serve (.access access) memory).1 = some response := by
      cases access <;> exact ⟨_, rfl⟩
    rw [served, answered]
    exact .answered response answered kept

/-- How updates end on plain registers: each is made before the next is tried, and the first
that fails is the last one tried. -/
inductive Updated : List Update → Memory → Except (Stop Fault) Unit → Bench → Prop where
  | finished {memory : Memory} {after : Bench} (plain : Plain after memory) :
      Updated [] memory (.ok ()) after
  | failed {update : Update} {rest : List Update} {memory : Memory} {after : Bench}
      (plain : Plain after memory) :
      Updated (update :: rest) memory (.error (.fault .spi)) after
  | made {update : Update} {rest : List Update} {memory : Memory}
      {result : Except (Stop Fault) Unit} {after : Bench}
      (later : Updated rest (update.apply memory) result after) :
      Updated (update :: rest) memory result after

/-- Updates that end with a value have all been made. Otherwise those of a proper prefix have. -/
theorem Updated.split {updates : List Update} {result : Except (Stop Fault) Unit} {after : Bench}
    (ended : Updated updates memory result after) :
    (result = .ok () ∧ Plain after (Update.applyAll updates memory)) ∨
      ∃ made next rest, updates = made ++ next :: rest ∧
        Plain after (Update.applyAll made memory) := by
  induction ended with
  | finished plain => exact .inl ⟨rfl, plain⟩
  | @failed update rest _ _ plain => exact .inr ⟨[], update, rest, rfl, plain⟩
  | @made update _ _ _ _ _ inductionHypothesis =>
    rcases inductionHypothesis with complete | ⟨made, next, rest, rfl, plain⟩
    · exact .inl complete
    · exact .inr ⟨update :: made, next, rest, rfl, plain⟩

/-- A write that fails has changed nothing. -/
theorem Plain.updated_write (plain : Plain bench memory) (plan : Plan) (address : Address)
    (value : UInt8) :
    Ends (serve plan) (Driver.write address value) bench
      (Updated [.store address value] memory) := by
  refine Action.ends_bind (plain.accessed plan (.write address value)) ?_ ?_
  · intro stop between ended
    cases ended with
    | failed kept => exact .failed kept
  · intro first between ended
    cases ended with
    | answered response served written => exact .made (.finished written)

/-- An update that fails has changed nothing. -/
theorem Plain.updated_make (plain : Plain bench memory) (plan : Plan) (update : Update) :
    Ends (serve plan) update.make bench (Updated [update] memory) := by
  cases update with
  | store address value => exact plain.updated_write plan address value
  | change address revise =>
    refine Action.ends_bind (plain.accessed plan (.read address)) ?_ ?_
    · intro stop between ended
      cases ended with
      | failed kept => exact .failed kept
    · intro content between ended
      cases ended with
      | answered response served kept =>
        obtain rfl : response = ⟨0, memory.get address⟩ := (Option.some.inj served).symm
        have written := Plain.updated_write kept plan address (revise (memory.get address))
        refine Action.ends_mono written ?_
        intro result after ended
        cases ended with
        | failed left => exact .failed left
        | made later => exact .made later

/-- Updates are made in order, up to the first that fails. The induction is on the updates. -/
theorem Plain.updated_makeAll (plain : Plain bench memory) (plan : Plan)
    (updates : List Update) :
    Ends (serve plan) (Update.makeAll updates) bench (Updated updates memory) := by
  induction updates generalizing bench memory with
  | nil => exact .finished plain
  | cons update rest inductionHypothesis =>
    refine Action.ends_bind (plain.updated_make plan update) ?_ ?_
    · intro stop between ended
      cases ended with
      | failed kept => exact .failed kept
      | made later => cases later
    · intro value between ended
      cases ended with
      | made later =>
        cases later with
        | finished updated =>
          exact Action.ends_mono (inductionHypothesis updated) fun result after => .made

/-! ## Actions whose attempts may fail -/

/-- On plain registers a sequence ends as its second part does from what the first has left. -/
theorem ending_bind (program : Program Chip.Reply α) (next : α → Program Chip.Reply β)
    (memory : Memory) :
    ending (program >>= next) memory =
      ending (next (ending program memory).1) (ending program memory).2 := by
  simp only [ending, Program.run_bind]

/-- Renaming the result leaves the registers as they are. -/
theorem ending_map (rename : α → β) (program : Program Chip.Reply α) (memory : Memory) :
    ending (rename <$> program) memory =
      (rename (ending program memory).1, (ending program memory).2) := by
  rw [← bind_pure_comp, ending_bind]
  rfl

/-- An update is made when nothing fails. -/
theorem ending_make (update : Update) (memory : Memory) :
    ending update.make.run memory = (.ok (), update.apply memory) := by
  cases update <;> rfl

/-- So are updates in order. By induction on them. -/
theorem ending_makeAll (updates : List Update) (memory : Memory) :
    ending (Update.makeAll updates).run memory = (.ok (), Update.applyAll updates memory) := by
  induction updates generalizing memory with
  | nil => rfl
  | cons update rest inductionHypothesis =>
    rw [Update.makeAll, ExceptT.run_bind, ending_bind, ending_make]
    exact inductionHypothesis (update.apply memory)

/-- A program that writes nothing leaves the registers alone. -/
theorem Plain.run_quiet {program : Program Chip.Reply α} (quiet : Chip.Quiet program)
    (plain : Plain bench memory) (plan : Plan) :
    Plain (program.run (serve plan) bench).state memory := by
  induction quiet generalizing bench with
  | done => exact plain
  | read address goesOn inductionHypothesis =>
    rw [Program.run_ask]
    refine inductionHypothesis _ ?_
    rcases plain.transfer_cases plan (.read address) with ⟨-, kept⟩ | ⟨-, kept⟩
    · exact kept
    · exact kept
  | drive level goesOn inductionHypothesis =>
    exact inductionHypothesis _ ⟨plain.registers, plain.unscripted⟩

/-- A program that writes nothing finds the same registers again. -/
theorem retriable_of_quiet {reports : α → Prop} {program : Program Chip.Reply α}
    (quiet : Chip.Quiet program) : Retriable reports program :=
  fun plan _ memory plain _ => ⟨memory, plain.run_quiet quiet plan, rfl⟩

/-- A repeatable action may be tried again, whatever is made of its verdict, as long as its
success is not taken for a failure. -/
theorem retriable_of_repeatable {reports : α → Prop} {action : Action Unit}
    (repeatable : Driver.Repeatable action) (conclude : Except (Stop Fault) Unit → α)
    (succeeds : ¬ reports (conclude (.ok ()))) :
    Retriable reports (conclude <$> action.run) := by
  cases repeatable with
  | quiet writesNothing => exact retriable_of_quiet (writesNothing.map conclude)
  | @updates updates recoverable =>
    intro plan bench memory plain run reported
    simp only [run, Program.run_map] at reported ⊢
    -- A failure was reported, so a proper prefix of the updates was made.
    rcases (plain.updated_makeAll plan updates).split with
      ⟨finished, -⟩ | ⟨made, next, rest, split, left⟩
    · rw [finished] at reported
      exact absurd reported succeeds
    · refine ⟨_, left, ?_⟩
      rw [ending_map, ending_map, ending_makeAll, ending_makeAll,
        recoverable made next rest split memory]

end Bench

/-! ## Attempts at operations -/

namespace Driver

/-- Whether an outcome reports a failed bus transaction can be seen. -/
instance (outcome : Outcome) : Decidable outcome.Faulted :=
  match outcome with
  | ⟨.error (.fault .spi), _⟩ => .isTrue rfl
  | ⟨.error (.fault .pin), _⟩ | ⟨.error (.fault (.invalidAddress _)), _⟩
  | ⟨.error (.fault (.invalidProtocol _)), _⟩ | ⟨.error (.abort _), _⟩ | ⟨.ok _, _⟩ =>
    .isFalse (by intro faulted; cases faulted)

/-- Another attempt at an operation. A block read is given the same buffer again, and finds in it
what the attempts before have received. -/
inductive Op.Again : Op → Op → Prop where
  | same (operation : Op) : Again operation operation
  | readFifo {buffer other : List UInt8} (fits : buffer.length ≤ FifoMode.large.capacity)
      (kept : other.length = buffer.length) : Again (.readFifo buffer) (.readFifo other)

end Driver

namespace Bench

open Driver (Op operateAll operate)

variable {bench : Bench} {memory : Memory}

/-- Every operation may be tried again. Either it writes nothing, or it makes updates that are
recoverable; and success is not taken for a failure. -/
theorem retriable_operation (operation : Op) :
    Retriable Driver.Outcome.Faulted operation.program := by
  rcases Driver.repeatable_operation operation with quiet | ⟨action, repeatable, same⟩
  · exact retriable_of_quiet quiet
  · rw [same]
    refine retriable_of_repeatable repeatable _ ?_
    intro reported
    cases reported

/-- On plain registers a block read fills the buffer, whatever was in it. -/
theorem ending_fillBuffer (buffer : List UInt8) (memory : Memory) :
    ending (Driver.fillBuffer buffer) memory =
      ((.ok (), List.replicate buffer.length (memory.get .fifoData)), memory) := by
  induction buffer with
  | nil => rfl
  | cons old rest inductionHypothesis =>
    have received : ending (Driver.readRegister .fifoData).run memory =
        (.ok (memory.get .fifoData), memory) := rfl
    rw [Driver.fillBuffer, ending_bind, received]
    dsimp only
    rw [ending_bind, inductionHypothesis]
    rfl

/-- Every attempt at an operation ends alike on the same registers, a block read also with a
buffer that earlier attempts have filled in part. -/
theorem ending_again {operation other : Op} (again : Op.Again operation other) (memory : Memory) :
    ending other.program memory = ending operation.program memory := by
  cases again with
  | same => rfl
  | readFifo fits kept =>
    rw [Op.program, Op.program, ending_map, ending_map, Driver.readFifo, Driver.readFifo,
      if_pos fits, if_pos (kept ▸ fits), ending_fillBuffer, ending_fillBuffer, kept]

/-- After any number of attempts that failed, the operation ends as it would have before them.
The induction is on the attempts. -/
theorem Plain.attempts (plain : Plain bench memory) (plan : Plan) {operation : Op}
    {attempts : List Op} (again : ∀ attempt ∈ attempts, Op.Again operation attempt)
    (failed : ∀ record ∈ (operateAll (serve plan) attempts bench).1, record.outcome.Faulted) :
    ∃ left, Plain (operateAll (serve plan) attempts bench).2 left ∧
      ending operation.program left = ending operation.program memory := by
  induction attempts generalizing bench memory with
  | nil => exact ⟨memory, plain, rfl⟩
  | cons attempt rest inductionHypothesis =>
    rw [List.forall_mem_cons] at again
    rw [operateAll, List.forall_mem_cons] at failed
    obtain ⟨between, kept, same⟩ :=
      retriable_operation attempt plan bench memory plain failed.1
    rw [ending_again again.1, ending_again again.1] at same
    obtain ⟨left, plainly, ends⟩ := inductionHypothesis kept again.2 failed.2
    exact ⟨left, plainly, ends.trans same⟩

/-- An attempt that meets no failure, from registers that make no difference, cannot be told from
one on a bench where nothing ever failed. -/
theorem Plain.converges {α : Type} {tried : Bench} {left : Memory}
    {program other : Program Chip.Reply α} (plain : Plain bench memory) (kept : Plain tried left)
    (same : ending other left = ending program memory) (plan : Plan)
    (smooth : Chip.Smooth (other.run (serve plan) tried).exchanges) :
    let run := other.run (serve plan) tried
    let single := program.run (serve .smooth) bench
    run.result = single.result ∧ ∃ final, Plain run.state final ∧ Plain single.state final := by
  intro run single
  obtain ⟨result, state⟩ := kept.run_smooth plan other smooth
  have alike := serve_matching.run_alike program plain
  have results : (other.run Memory.serve left).result = (program.run Memory.serve memory).result :=
    congrArg Prod.fst same
  have registers : (other.run Memory.serve left).state = (program.run Memory.serve memory).state :=
    congrArg Prod.snd same
  refine ⟨result.trans (results.trans alike.result.symm), _, state, ?_⟩
  rw [registers]
  exact alike.state

end Bench

end NfcFrontend
