import NfcFrontend.Proofs.PlannedMemory

/-!
# A register change

A register is changed by reading it and writing it back. Against any chip this is one read and, if
it was answered, one write of the revised answer. On plain registers a change has happened or it
has not, and the plan tells which: only the write that is carried out has an effect. The same holds
for two changes in a row, where the plan tells how many of them have happened.
-/

namespace NfcFrontend

namespace Driver

open NfcFrontend.Action

variable {σ : Type}

/-- What a change of the register at an address comes to, by the answers to its accesses. -/
inductive Revised (address : Address) (revise : UInt8 → UInt8) :
    Run Chip.Reply σ (Except (Stop Fault) Unit) → Prop where
  /-- The read failed, so there was nothing to revise. -/
  | unread (after : σ) :
      Revised address revise ⟨.error (.fault .spi), [⟨.access (.read address), none⟩], after⟩
  /-- The content was revised, but the write failed. -/
  | unwritten (content : Frame) (after : σ) :
      Revised address revise ⟨.error (.fault .spi),
        [⟨.access (.read address), some content⟩,
          ⟨.access (.write address (revise content.second)), none⟩], after⟩
  /-- The revised content was written. -/
  | revised (content written : Frame) (after : σ) :
      Revised address revise ⟨.ok (),
        [⟨.access (.read address), some content⟩,
          ⟨.access (.write address (revise content.second)), some written⟩], after⟩

/-- Whatever the chip, a change reads the register, and writes it once it was answered. -/
theorem revised_modify (chip : Server Chip.Reply σ) (state : σ) (register : Register)
    (revise : UInt8 → UInt8) :
    Revised register.address revise (Program.run chip (modify register revise).run state) := by
  have reading : modify register revise =
      Driver.access (.read register.address) >>= fun content =>
        Driver.access (.write register.address (revise content)) >>= fun _ => pure () := rfl
  rw [reading]
  rcases run_access_cases chip state (.read register.address) with
    ⟨after, unread⟩ | ⟨content, between, answered⟩
  · rw [run_bind_of_error unread]
    exact .unread after
  · rw [run_bind_of_ok answered]
    rcases run_access_cases chip between (.write register.address (revise content.second)) with
      ⟨after, unwritten⟩ | ⟨written, after, stored⟩
    · rw [run_bind_of_error unwritten]
      exact .unwritten content after
    · rw [run_bind_of_ok stored]
      exact .revised content written after

/-- A completed change was answered twice. -/
theorem completes_modify {chip : Server Chip.Reply σ} {state after : σ} {register : Register}
    {revise : UInt8 → UInt8} {exchanges : List (Exchange Chip.Reply)}
    (completed : Completes chip (modify register revise) state () exchanges after) :
    ∃ content written : Frame, exchanges = [⟨.access (.read register.address), some content⟩,
      ⟨.access (.write register.address (revise content.second)), some written⟩] := by
  have revised := revised_modify chip state register revise
  unfold Completes at completed
  rw [completed] at revised
  cases revised with
  | revised content written => exact ⟨content, written, rfl⟩

end Driver

namespace Bench

open Driver (modify)

variable {bench : Bench} {memory : Memory}

/-- A plan lets a change happen, or stops it before it has an effect. -/
theorem Plain.run_modify (plain : Plain bench memory) (plan : Plan) (register : Register)
    (revise : UInt8 → UInt8) :
    let run := Program.run (serve plan) (modify register revise).run bench
    let changed := memory.set register.address (revise (memory.get register.address))
    match plan.firstFault bench.transactions 2 with
    | none => run.result = .ok () ∧ Plain run.state changed
    | some _ => run.result = .error (.fault .spi) ∧ Plain run.state memory := by
  have stops : Action.FailStop (fun _ => False) (modify register revise) :=
    Driver.failStop_modify register revise
  have planned := plain.run_planned stops (Driver.onBus_modify register revise) plan 2 rfl
  dsimp only at planned ⊢
  cases found : plan.firstFault bench.transactions 2 with
  | none =>
    rw [found] at planned
    exact ⟨planned.result, planned.state⟩
  | some position =>
    rw [found] at planned
    obtain ⟨failed, -, left⟩ := planned
    -- What was carried out is nothing or the read.
    match position, Plan.firstFault_lt found with
    | 0, _ | 1, _ => exact ⟨failed, left⟩

/-- Of two changes in a row, it lets both happen, the first one, or none. -/
theorem Plain.run_modify_modify (plain : Plain bench memory) (plan : Plan) (register : Register)
    (first second : UInt8 → UInt8) :
    let run := Program.run (serve plan)
      (do modify register first; modify register second : Action Unit).run bench
    let old := memory.get register.address
    match plan.firstFault bench.transactions 4 with
    | none => run.result = .ok () ∧
        Plain run.state (memory.set register.address (second (first old)))
    | some position => run.result = .error (.fault .spi) ∧
        Plain run.state
          (if position < 2 then memory else memory.set register.address (first old)) := by
  have stops : Action.FailStop (fun _ => False)
      (do modify register first; modify register second) :=
    Action.failStop_bind (Driver.failStop_modify register first) fun _ =>
      Driver.failStop_modify register second
  have onBus := Driver.onBus_bind (Driver.onBus_modify register first) fun _ =>
    Driver.onBus_modify register second
  have planned := plain.run_planned stops onBus plan 4 rfl
  dsimp only at planned ⊢
  cases found : plan.firstFault bench.transactions 4 with
  | none =>
    rw [found] at planned
    let once := memory.set register.address (first (memory.get register.address))
    have left : Plain _ (once.set register.address (second (once.get register.address))) :=
      planned.state
    rw [Memory.get_set_self, Memory.set_set] at left
    exact ⟨planned.result, left⟩
  | some position =>
    rw [found] at planned
    obtain ⟨failed, -, left⟩ := planned
    match position, Plan.firstFault_lt found with
    | 0, _ | 1, _ | 2, _ | 3, _ => exact ⟨failed, left⟩

end Bench

end NfcFrontend
