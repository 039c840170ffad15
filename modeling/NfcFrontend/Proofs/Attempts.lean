import NfcFrontend.Proofs.BusHistory
import NfcFrontend.Proofs.Completion
import NfcFrontend.Proofs.FailStop

/-!
# Attempts at a list of accesses

Between its checks and its answer a driver action makes a list of accesses. Against a chip
that may stop answering it can only attempt them: the accesses are made in order, and the
first one that is not answered is the last one made. `Attempt` says so of the traffic and
the verdict together, for any chip, so that nothing about a run is left open but how far it
got.

An access may depend on what was read before it. The list is then known only after the
read, and the law for a register change names the content it was answered with. This is all
it takes to follow a command with a payload, whether it completes or not.
-/

namespace NfcFrontend

namespace Chip

/-- The accesses are made in order, up to the first that is not answered. -/
inductive Attempt :
    List Access → List (Access × Option Frame) → Except (Stop Fault) Unit → Prop where
  | finished : Attempt [] [] (.ok ())
  | answered {accesses : List Access} {traffic : List (Access × Option Frame)}
      {verdict : Except (Stop Fault) Unit} (access : Access) (response : Frame)
      (later : Attempt accesses traffic verdict) :
      Attempt (access :: accesses) ((access, some response) :: traffic) verdict
  | failed (access : Access) (accesses : List Access) :
      Attempt (access :: accesses) [(access, none)] (.error (.fault .spi))

namespace Attempt

variable {accesses others : List Access} {traffic later : List (Access × Option Frame)}
  {verdict : Except (Stop Fault) Unit}

/-- After a finished attempt the next one begins. -/
theorem append (first : Attempt accesses traffic (.ok ()))
    (second : Attempt others later verdict) :
    Attempt (accesses ++ others) (traffic ++ later) verdict := by
  generalize finished : (.ok () : Except (Stop Fault) Unit) = first' at first
  induction first with
  | finished => exact second
  | answered access response _ inductionHypothesis =>
    exact .answered access response (inductionHypothesis finished)
  | failed => cases finished

/-- After a failed one there is no next one, whatever it would have been. -/
theorem stopped {stop : Stop Fault} (first : Attempt accesses traffic (.error stop)) :
    Attempt (accesses ++ others) traffic (.error stop) := by
  generalize failed : (.error stop : Except (Stop Fault) Unit) = first' at first ⊢
  induction first with
  | finished => cases failed
  | answered access response _ inductionHypothesis =>
    exact .answered access response (inductionHypothesis failed)
  | failed access rest => exact .failed access (rest ++ others)

/-- What comes before an attempted access has been carried out, and from that access on it is
an attempt at the rest. -/
theorem split {before after : List (Access × Option Frame)} {access : Access}
    {answer : Option Frame}
    (attempt : Attempt accesses (before ++ (access, answer) :: after) verdict) :
    ∃ rest, accesses = carried before ++ access :: rest ∧
      (∀ entry ∈ before, entry.2 ≠ none) ∧
      Attempt (access :: rest) ((access, answer) :: after) verdict := by
  induction before generalizing accesses with
  | nil =>
    cases attempt with
    | answered _ response later => exact ⟨_, rfl, by simp, .answered access response later⟩
    | failed _ rest => exact ⟨rest, rfl, by simp, .failed access rest⟩
  | cons entry earlier inductionHypothesis =>
    generalize made : entry :: earlier ++ (access, answer) :: after = whole at attempt
    cases attempt with
    | finished => cases made
    | answered first response later =>
      obtain ⟨rfl, rfl⟩ := List.cons.inj made
      obtain ⟨rest, split, complete, attempt⟩ := inductionHypothesis later
      exact ⟨rest, congrArg (first :: ·) split, by simpa using complete, attempt⟩
    | failed first rest => simp at made

/-- Nothing else is attempted. -/
theorem mem (attempt : Attempt accesses traffic verdict) {entry : Access × Option Frame}
    (made : entry ∈ traffic) : entry.1 ∈ accesses := by
  obtain ⟨before, after, rfl⟩ := List.append_of_mem made
  obtain ⟨rest, rfl, -, -⟩ := attempt.split
  simp

/-- An attempt that succeeds has carried out every access, and nothing failed. -/
theorem complete (attempt : Attempt accesses traffic (.ok ())) :
    carried traffic = accesses ∧ ∀ entry ∈ traffic, entry.2 ≠ none := by
  generalize finished : (.ok () : Except (Stop Fault) Unit) = verdict at attempt
  induction attempt with
  | finished => exact ⟨rfl, by simp⟩
  | answered access response _ inductionHypothesis =>
    obtain ⟨carriedOut, answered⟩ := inductionHypothesis finished
    exact ⟨congrArg (access :: ·) carriedOut, by simpa using answered⟩
  | failed => cases finished

/-- An attempt of which every access is answered has made them all, and succeeds. -/
theorem of_answered (attempt : Attempt accesses traffic verdict)
    (answered : ∀ entry ∈ traffic, entry.2 ≠ none) :
    verdict = .ok () ∧ traffic.map Prod.fst = accesses := by
  induction attempt with
  | finished => exact ⟨rfl, rfl⟩
  | answered access response _ inductionHypothesis =>
    rw [List.forall_mem_cons] at answered
    obtain ⟨succeeded, made⟩ := inductionHypothesis answered.2
    exact ⟨succeeded, congrArg (access :: ·) made⟩
  | failed access => exact absurd rfl (answered (access, none) List.mem_cons_self)

/-- A last access ends the attempt, with success if it is answered. -/
theorem last {access : Access} {answer : Option Frame}
    (attempt : Attempt [access] ((access, answer) :: later) verdict) :
    later = [] ∧ (verdict = .ok () ↔ answer ≠ none) := by
  cases attempt with
  | answered _ response ended =>
    cases ended
    simp
  | failed => simp

/-- An attempt at a single access makes it, answered or not. -/
theorem single {access : Access} (attempt : Attempt [access] traffic verdict) :
    ∃ answer, traffic = [(access, answer)] := by
  cases attempt with
  | answered _ response ended =>
    cases ended
    exact ⟨some response, rfl⟩
  | failed => exact ⟨none, rfl⟩

/-- An attempt that does not succeed reports its last access, and that only. -/
theorem incomplete (attempt : Attempt accesses traffic verdict) (stopped : verdict ≠ .ok ()) :
    verdict = .error (.fault .spi) ∧ ∃ before access, traffic = before ++ [(access, none)] := by
  induction attempt with
  | finished => exact absurd rfl stopped
  | answered access response _ inductionHypothesis =>
    obtain ⟨reported, before, last, rfl⟩ := inductionHypothesis stopped
    exact ⟨reported, (access, some response) :: before, last, rfl⟩
  | failed access => exact ⟨rfl, [], access, rfl⟩

end Attempt

end Chip

/-! ## Actions that attempt a list of accesses -/

namespace Action

variable {σ α β : Type}

/-- A run is an attempt at the accesses. The value it ends with is left out. -/
def Attempts (accesses : List Access)
    (run : Run Chip.Reply σ (Except (Stop Fault) α)) : Prop :=
  Chip.Attempt accesses (Chip.busTraffic run.exchanges) (run.result.map fun _ => ())

/-- A sequence whose first part stops has stopped. -/
theorem run_bind_of_error {chip : Server Chip.Reply σ} {action : Action α} {state after : σ}
    {stop : Stop Fault} {exchanges : List (Exchange Chip.Reply)}
    (ran : Program.run chip action.run state = ⟨.error stop, exchanges, after⟩)
    (next : α → Action β) :
    Program.run chip (action >>= next).run state = ⟨.error stop, exchanges, after⟩ := by
  rw [ExceptT.run_bind, Program.run_bind, ran]
  simp

/-- A sequence whose first part ends with a value goes on where that part ended. -/
theorem run_bind_of_ok {chip : Server Chip.Reply σ} {action : Action α} {state between : σ}
    {value : α} {exchanges : List (Exchange Chip.Reply)}
    (ran : Program.run chip action.run state = ⟨.ok value, exchanges, between⟩)
    (next : α → Action β) :
    Program.run chip (action >>= next).run state =
      let second := Program.run chip (next value).run between
      ⟨second.result, exchanges ++ second.exchanges, second.state⟩ := by
  rw [ExceptT.run_bind, Program.run_bind, ran]

/-- Sequenced actions attempt their accesses in sequence. -/
theorem attempts_bind {chip : Server Chip.Reply σ} {state : σ} {action : Action α}
    {next : α → Action β} {first second : List Access}
    (begun : Attempts first (Program.run chip action.run state))
    (rest : ∀ value between, Attempts second (Program.run chip (next value).run between)) :
    Attempts (first ++ second) (Program.run chip (action >>= next).run state) := by
  cases ran : Program.run chip action.run state with
  | mk result exchanges between =>
    rw [ran] at begun
    cases result with
    | error stop =>
      rw [run_bind_of_error ran]
      exact begun.stopped
    | ok value =>
      rw [run_bind_of_ok ran, Attempts, Chip.busTraffic_append]
      exact begun.append (rest value between)

/-- A run is an attempt at accesses that depend on what the address was read to hold. Where it
was not read, any content will do. -/
def AttemptsReading (address : Address) (accesses : UInt8 → List Access)
    (run : Run Chip.Reply σ (Except (Stop Fault) α)) : Prop :=
  ∃ content, Attempts (accesses content) run ∧
    ∀ response : Frame, (.read address, some response) ∈ Chip.busTraffic run.exchanges →
      content = response.second

/-- A part that does not read the address may come first. -/
theorem attempts_bind_reading {chip : Server Chip.Reply σ} {state : σ} {action : Action α}
    {next : α → Action β} {address : Address} {first : List Access} {second : UInt8 → List Access}
    (begun : Attempts first (Program.run chip action.run state)) (unread : .read address ∉ first)
    (rest : ∀ value between,
      AttemptsReading address second (Program.run chip (next value).run between)) :
    AttemptsReading address (fun content => first ++ second content)
      (Program.run chip (action >>= next).run state) := by
  cases ran : Program.run chip action.run state with
  | mk result exchanges between =>
    rw [ran] at begun
    cases result with
    | error stop =>
      rw [run_bind_of_error ran]
      exact ⟨0, begun.stopped, fun response read => absurd (begun.mem read) unread⟩
    | ok value =>
      obtain ⟨content, attempt, known⟩ := rest value between
      rw [run_bind_of_ok ran]
      refine ⟨content, ?_, ?_⟩
      · rw [Attempts, Chip.busTraffic_append]
        exact begun.append attempt
      · intro response read
        rw [Chip.busTraffic_append, List.mem_append] at read
        exact read.elim (fun early => absurd (begun.mem early) unread) (known response)

/-- And one may come last. -/
theorem attemptsReading_bind {chip : Server Chip.Reply σ} {state : σ} {action : Action α}
    {next : α → Action β} {address : Address} {first : UInt8 → List Access} {second : List Access}
    (begun : AttemptsReading address first (Program.run chip action.run state))
    (unread : .read address ∉ second)
    (rest : ∀ value between, Attempts second (Program.run chip (next value).run between)) :
    AttemptsReading address (fun content => first content ++ second)
      (Program.run chip (action >>= next).run state) := by
  obtain ⟨content, attempt, known⟩ := begun
  refine ⟨content, attempts_bind attempt rest, ?_⟩
  intro response read
  cases ran : Program.run chip action.run state with
  | mk result exchanges between =>
    rw [ran] at known
    cases result with
    | error stop =>
      rw [run_bind_of_error ran] at read
      exact known response read
    | ok value =>
      rw [run_bind_of_ok ran, Chip.busTraffic_append, List.mem_append] at read
      exact read.elim (known response) fun late => absurd ((rest value between).mem late) unread

/-- Returning a value attempts nothing. -/
theorem attempts_pure (chip : Server Chip.Reply σ) (value : α) (state : σ) :
    Attempts [] (Program.run chip (pure value : Action α).run state) := .finished

end Action

namespace Driver

open NfcFrontend.Action

variable {σ : Type} (chip : Server Chip.Reply σ) (state : σ)

/-- What a chip answers to an access becomes its value, taken from the second byte. -/
theorem run_access_answered {access : Access} {response : Frame}
    (answered : (chip (.access access) state).1 = some response) :
    Program.run chip (Driver.access access).run state =
      ⟨.ok response.second, [⟨.access access, some response⟩],
        (chip (.access access) state).2⟩ := by
  rw [Driver.access, ExceptT.run_mk, Program.run_ask, answered]
  rfl

/-- When a chip does not answer, the access stops with a bus fault. -/
theorem run_access_unanswered {access : Access}
    (unanswered : (chip (.access access) state).1 = none) :
    Program.run chip (Driver.access access).run state =
      ⟨.error (.fault .spi), [⟨.access access, none⟩], (chip (.access access) state).2⟩ := by
  rw [Driver.access, ExceptT.run_mk, Program.run_ask, unanswered]
  rfl

/-- A single access is answered, and its value is in the response, or it stops the action. -/
theorem run_access_cases (access : Access) :
    let call : Chip.Call := .access access
    (∃ after, Program.run chip (Driver.access access).run state =
      ⟨.error (.fault .spi), [⟨call, none⟩], after⟩) ∨
    ∃ (response : Frame) (after : σ), Program.run chip (Driver.access access).run state =
      ⟨.ok response.second, [⟨call, some response⟩], after⟩ := by
  cases answer : (chip (.access access) state).1 with
  | none => exact .inl ⟨_, run_access_unanswered chip state answer⟩
  | some response => exact .inr ⟨response, _, run_access_answered chip state answer⟩

/-- A single access attempts just itself. -/
theorem attempts_access (access : Access) :
    Attempts [access] (Program.run chip (Driver.access access).run state) := by
  rcases run_access_cases chip state access with ⟨_, ran⟩ | ⟨response, _, ran⟩
  · rw [ran]
    exact .failed access []
  · rw [ran]
    exact .answered access response .finished

/-- A write attempts just itself, and drops the response. -/
theorem attempts_write (address : Address) (value : UInt8) :
    Attempts [.write address value] (Program.run chip (write address value).run state) :=
  attempts_bind (attempts_access chip state _) fun _ between => attempts_pure chip () between

/-- A register is written with its changed content as soon as the content is known. -/
theorem attempts_modify (register : Register) (change : UInt8 → UInt8) :
    AttemptsReading register.address
      (fun content =>
        [.read register.address, .write register.address (change content)])
      (Program.run chip (modify register change).run state) := by
  have reading : readRegister register = Driver.access (.read register.address) := rfl
  rw [modify, reading]
  rcases run_access_cases chip state (.read register.address) with
    ⟨after, unread⟩ | ⟨response, between, content⟩
  · rw [run_bind_of_error unread]
    exact ⟨0, .failed _ _, by simp [Chip.busTraffic]⟩
  · have written : Attempts [.write register.address (change response.second)]
        (Program.run chip (writeRegister register (change response.second)).run between) :=
      attempts_write chip between _ _
    rw [run_bind_of_ok content]
    refine ⟨response.second, .answered _ response written, ?_⟩
    intro other read
    rw [Chip.busTraffic_append, List.mem_append] at read
    rcases read with first | later
    · have same : other = response := by simpa [Chip.busTraffic] using first
      rw [same]
    · have impossible := written.mem later
      simp at impossible

/-- A block is attempted byte by byte, at the address of the FIFO. -/
theorem attempts_pushBytes (block : List UInt8) :
    Attempts (block.map (.write .fifoData)) (Program.run chip (pushBytes block).run state) := by
  induction block generalizing state with
  | nil => exact attempts_pure chip () state
  | cons byte rest inductionHypothesis =>
    exact attempts_bind (attempts_write chip state .fifoData byte) fun _ between =>
      inductionHypothesis between

/-- A block that fits the larger FIFO is written byte by byte. -/
theorem attempts_writeFifo (block : List UInt8) (fits : block.length ≤ FifoMode.large.capacity) :
    Attempts (block.map (.write .fifoData)) (Program.run chip (writeFifo block).run state) := by
  rw [writeFifo, if_pos fits]
  exact attempts_pushBytes chip state block

/-! ## Commands with a payload -/

/-- A command is started by writing its code over the whole register. -/
theorem attempts_execute (command : ChipCommand) :
    Attempts [.write .command command.code] (Program.run chip (execute command).run state) := by
  rw [execute, Setting.apply_fresh]
  exact attempts_write chip state _ _

/-- A flush writes back what it has read, with bit 4 set. -/
theorem attempts_flushFifo :
    AttemptsReading .fifoControl
      (fun control => [.read .fifoControl, .write .fifoControl (control ||| 0x10)])
      (Program.run chip flushFifo.run state) := by
  have flushed := attempts_modify chip state .fifoControl (Setting.fifoFlush true).apply
  simp only [Setting.apply_fifoFlush] at flushed
  exact flushed

/-- A command with a payload is attempted as idle, flush, payload, command. -/
theorem attempts_payload (block : List UInt8) (fits : block.length ≤ FifoMode.large.capacity)
    (command : ChipCommand) :
    AttemptsReading .fifoControl (fun control => payloadAccesses control block command)
      (Program.run chip (do
        idle
        flushFifo
        writeFifo block
        execute command : Action Unit).run state) := by
  have filling (between : σ) :
      Attempts (block.map (.write .fifoData) ++ [.write .command command.code])
        (Program.run chip (do writeFifo block; execute command : Action Unit).run between) :=
    attempts_bind (attempts_writeFifo chip between block fits) fun _ later =>
      attempts_execute chip later command
  have flushing (between : σ) := attemptsReading_bind (attempts_flushFifo chip between)
    (by simp) fun _ later => filling later
  have whole := attempts_bind_reading (attempts_execute chip state .idle) (by simp)
    fun _ later => flushing later
  simpa [payloadAccesses, preparation, idle, ChipCommand.code] using whole

/-- A payload command that completes has made all of these accesses. -/
theorem completes_payload {block : List UInt8} (fits : block.length ≤ FifoMode.large.capacity)
    {command : ChipCommand} {exchanges : List (Exchange Chip.Reply)} {after : σ}
    (completed : Completes chip (do
      idle
      flushFifo
      writeFifo block
      execute command) state () exchanges after) :
    ∃ control, accesses exchanges = payloadAccesses control block command := by
  obtain ⟨control, attempt, -⟩ := attempts_payload chip state block fits command
  unfold Completes at completed
  rw [completed] at attempt
  obtain ⟨carriedOut, answered⟩ := attempt.complete
  exact ⟨control, (Chip.map_fst_of_answered answered).trans carriedOut⟩

end Driver

end NfcFrontend
