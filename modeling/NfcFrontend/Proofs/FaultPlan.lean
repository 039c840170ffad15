import NfcFrontend.Bench.Basic
import NfcFrontend.Proofs.FailStop

/-!
# Operations under a plan of failures

An operation on a register file has one fault-free run. Whatever a plan fails, the
operation follows that run up to the first transaction the plan hits. That
transaction is attempted with the frame it would have had, and nothing comes after
it. The device is then as the transactions before the failure left it.

This is proved for every fail-stop program, by induction on how it is fail-stop, and
so holds for each driver operation.
-/

namespace NfcFrontend

/-- The plan without its bus failures. -/
def Plan.calm (plan : Plan) : Plan := { plan with busFails := fun _ => false }

/-- The first of `count` transactions, counted from `start`, that the plan fails. -/
def Plan.firstFault (plan : Plan) (start count : Nat) : Option Nat :=
  (List.range count).find? fun offset => plan.busFails (start + offset)

/-- A plan fails either the next transaction or the first among those after it. -/
theorem Plan.firstFault_succ (plan : Plan) (start count : Nat) :
    plan.firstFault start (count + 1) =
      if plan.busFails start then some 0
      else (plan.firstFault (start + 1) count).map (· + 1) := by
  have shifted : (fun offset => plan.busFails (start + offset)) ∘ Nat.succ =
      fun offset => plan.busFails (start + 1 + offset) := by
    funext offset
    simp only [Function.comp, Nat.succ_eq_add_one]
    congr 1
    omega
  rw [firstFault, List.range_succ_eq_map, List.find?_cons, List.find?_map, shifted, Nat.add_zero]
  cases plan.busFails start <;> rfl

namespace Bench

variable {α : Type}

/-- Two benches with the same device and the same scripted values left. -/
def SameChip (left right : Bench) : Prop :=
  left.device = right.device ∧ left.script = right.script

/-- The bench after accesses of which none failed. -/
def afterAll (bench : Bench) (accesses : List Access) : Bench :=
  accesses.foldl (fun state access => (state.transfer .smooth access.frame).2) bench

/-- A transaction that the plan fails is counted and never reaches the device. -/
theorem transfer_failed {plan : Plan} {bench : Bench} (frame : Frame)
    (fails : plan.busFails bench.transactions = true) :
    bench.transfer plan frame = (none, { bench with transactions := bench.transactions + 1 }) := by
  simp [transfer, fails]

/-- Taking a scripted value changes a register file and its script, in a way that only
depends on them. -/
theorem takeScripted_registers (file : RegisterFile) (script : Address → List UInt8)
    (frame : Frame) :
    ∃ prepared left, ∀ transactions pinCalls sends,
      (⟨.registers file, script, transactions, pinCalls, sends⟩ : Bench).takeScripted frame =
        ⟨.registers prepared, left, transactions, pinCalls, sends⟩ := by
  cases asked : frame.access with
  | write address value =>
    exact ⟨file, script, fun _ _ _ => by simp [takeScripted, asked]⟩
  | read address =>
    cases scripted : script address with
    | nil => exact ⟨file, script, fun _ _ _ => by simp [takeScripted, asked, scripted]⟩
    | cons value rest =>
      exact ⟨{ file with memory := file.memory.set address value },
        fun other => if other = address then rest else script other,
        fun _ _ _ => by simp [takeScripted, asked, scripted]⟩

/-- A register file answers every frame that reaches it. The answer and what it leaves
depend on the file and the script only, not on the plan or the counters. -/
theorem transfer_registers (file : RegisterFile) (script : Address → List UInt8) (frame : Frame) :
    ∃ response after left, ∀ (plan : Plan) (transactions pinCalls sends : Nat),
      plan.busFails transactions = false →
        (⟨.registers file, script, transactions, pinCalls, sends⟩ : Bench).transfer plan frame =
          (some response, ⟨.registers after, left, transactions + 1, pinCalls, sends⟩) := by
  obtain ⟨prepared, left, taken⟩ := takeScripted_registers file script frame
  let answered := { prepared with transactions := prepared.transactions + 1 }.answer frame.access
  refine ⟨answered.1, answered.2, left, ?_⟩
  intro plan transactions pinCalls sends passes
  simp only [transfer, passes, Bool.false_eq_true, ↓reduceIte, taken, Device.transfer_file,
    answered]

/-- What accesses leave on a register file does not depend on the counters. -/
theorem sameChip_afterAll (accesses : List Access) (file : RegisterFile)
    (script : Address → List UInt8) (transactions pinCalls sends : Nat)
    (otherTransactions otherPinCalls otherSends : Nat) :
    SameChip
      ((⟨.registers file, script, transactions, pinCalls, sends⟩ : Bench).afterAll accesses)
      ((⟨.registers file, script, otherTransactions, otherPinCalls, otherSends⟩ : Bench).afterAll
        accesses) := by
  induction accesses generalizing file script transactions otherTransactions with
  | nil => exact ⟨rfl, rfl⟩
  | cons access rest inductionHypothesis =>
    obtain ⟨response, after, left, exchanged⟩ := transfer_registers file script access.frame
    simp only [afterAll, List.foldl_cons, exchanged .smooth _ _ _ rfl]
    exact inductionHypothesis after left (transactions + 1) (otherTransactions + 1)

/-- A run that follows a fault-free run up to a position and fails there. -/
structure StoppedAt (bench : Bench) (calm run : Run Chip.Reply Bench α) (position : Nat) :
    Prop where
  /-- The transactions before it are those of the fault-free run, with their answers. The
  failed one carries the frame it carries there, and nothing follows. -/
  traffic : ∃ access answer, (Chip.busTraffic calm.exchanges)[position]? = some (access, answer) ∧
    Chip.busTraffic run.exchanges =
      (Chip.busTraffic calm.exchanges).take position ++ [(access, none)]
  /-- The device is as the transactions before it left it. -/
  chip : run.state.SameChip
    (bench.afterAll (((Chip.busTraffic calm.exchanges).take position).map Prod.fst))
  /-- The failed transaction is counted, and no later one. -/
  counted : run.state.transactions = bench.transactions + position + 1

/-- An answered access in front of both runs moves the position up by one. -/
theorem StoppedAt.access {bench after : Bench} {calm run : Run Chip.Reply Bench α} {position : Nat}
    (stopped : StoppedAt after calm run position) (access : Access) (response : Frame)
    (moved : bench.transfer .smooth access.frame = (some response, after))
    (counted : after.transactions = bench.transactions + 1) :
    StoppedAt bench ⟨calm.result, ⟨.access access, some response⟩ :: calm.exchanges, calm.state⟩
      ⟨run.result, ⟨.access access, some response⟩ :: run.exchanges, run.state⟩ (position + 1) where
  traffic := by
    obtain ⟨failed, answer, present, split⟩ := stopped.traffic
    exact ⟨failed, answer, by simpa using present, by simp [split]⟩
  chip := by
    have rest := stopped.chip
    simpa [afterAll, moved] using rest
  counted := by
    have total := stopped.counted
    dsimp only
    omega

/-- A level on the reset pin in front of both runs leaves the position as it is. -/
theorem StoppedAt.drive {file : RegisterFile} {script : Address → List UInt8}
    {transactions pinCalls sends otherCalls : Nat} {calm run : Run Chip.Reply Bench α}
    {position : Nat}
    (stopped :
      StoppedAt ⟨.registers file, script, transactions, otherCalls, sends⟩ calm run position)
    (level : Level) (driven : Bool) :
    StoppedAt ⟨.registers file, script, transactions, pinCalls, sends⟩
      ⟨calm.result, ⟨.drive level, driven⟩ :: calm.exchanges, calm.state⟩
      ⟨run.result, ⟨.drive level, driven⟩ :: run.exchanges, run.state⟩ position where
  traffic := stopped.traffic
  chip := by
    have same := sameChip_afterAll (((Chip.busTraffic calm.exchanges).take position).map Prod.fst)
      file script transactions otherCalls sends transactions pinCalls sends
    exact ⟨stopped.chip.1.trans same.1, stopped.chip.2.trans same.2⟩
  counted := stopped.counted

/-- What a plan makes of a program whose fault-free run is known. -/
def Follows (faulted : α → Prop) (plan : Plan) (bench : Bench) (calm run : Run Chip.Reply Bench α) :
    Prop :=
  match plan.firstFault bench.transactions (Chip.busTraffic calm.exchanges).length with
  | none => run = calm
  | some position => faulted run.result ∧ StoppedAt bench calm run position

/-- A plan that passes the next transaction makes of a program what it makes of the rest of it,
seen one position later. -/
theorem Follows.access {faulted : α → Prop} {plan : Plan} {bench after : Bench}
    {calm run : Run Chip.Reply Bench α} (later : Follows faulted plan after calm run)
    (passes : plan.busFails bench.transactions = false) (access : Access) (response : Frame)
    (moved : bench.transfer .smooth access.frame = (some response, after))
    (counted : after.transactions = bench.transactions + 1) :
    Follows faulted plan bench
      ⟨calm.result, ⟨.access access, some response⟩ :: calm.exchanges, calm.state⟩
      ⟨run.result, ⟨.access access, some response⟩ :: run.exchanges, run.state⟩ := by
  unfold Follows at later ⊢
  rw [counted] at later
  simp only [Chip.busTraffic_access, List.length_cons, Plan.firstFault_succ, passes,
    Bool.false_eq_true, ↓reduceIte]
  cases found :
      plan.firstFault (bench.transactions + 1) (Chip.busTraffic calm.exchanges).length with
  | none =>
    rw [found] at later
    simp only [Option.map_none, later]
  | some position =>
    rw [found] at later
    exact ⟨later.1, later.2.access access response moved counted⟩

/-- A level on the reset pin is no transaction, so positions stay as they are. -/
theorem Follows.drive {faulted : α → Prop} {plan : Plan} {file : RegisterFile}
    {script : Address → List UInt8} {transactions pinCalls sends otherCalls : Nat}
    {calm run : Run Chip.Reply Bench α}
    (later :
      Follows faulted plan ⟨.registers file, script, transactions, otherCalls, sends⟩ calm run)
    (level : Level) (driven : Bool) :
    Follows faulted plan ⟨.registers file, script, transactions, pinCalls, sends⟩
      ⟨calm.result, ⟨.drive level, driven⟩ :: calm.exchanges, calm.state⟩
      ⟨run.result, ⟨.drive level, driven⟩ :: run.exchanges, run.state⟩ := by
  unfold Follows at later ⊢
  simp only [Chip.busTraffic_drive]
  cases found : plan.firstFault transactions (Chip.busTraffic calm.exchanges).length with
  | none =>
    rw [found] at later
    simp only [later]
  | some position =>
    rw [found] at later
    exact ⟨later.1, later.2.drive level driven⟩

/-- A fail-stop program follows its fault-free run up to the first failure. -/
theorem follows_of_failStop {faulted clear : α → Prop} {program : Program Chip.Reply α}
    (stops : Chip.FailStop faulted clear program) (plan : Plan) (file : RegisterFile)
    (script : Address → List UInt8) (transactions pinCalls sends : Nat) :
    Follows faulted plan ⟨.registers file, script, transactions, pinCalls, sends⟩
      (program.run (serve plan.calm) ⟨.registers file, script, transactions, pinCalls, sends⟩)
      (program.run (serve plan) ⟨.registers file, script, transactions, pinCalls, sends⟩) := by
  induction stops generalizing file script transactions pinCalls with
  | done fine => simp [Follows, Plan.firstFault, Chip.busTraffic]
  | @access access next result halts reported goesOn inductionHypothesis =>
    obtain ⟨response, after, left, exchanged⟩ := transfer_registers file script access.frame
    simp only [Program.run_ask, serve, exchanged plan.calm transactions pinCalls sends rfl]
    cases fails : plan.busFails transactions with
    | true =>
      have failed :
          (⟨.registers file, script, transactions, pinCalls, sends⟩ : Bench).transfer plan
            access.frame = (none, ⟨.registers file, script, transactions + 1, pinCalls, sends⟩) :=
        transfer_failed access.frame fails
      simp only [failed, halts, Follows, Chip.busTraffic_access, List.length_cons,
        Plan.firstFault_succ, fails, ↓reduceIte]
      exact ⟨reported, ⟨access, some response, rfl, rfl⟩, ⟨rfl, rfl⟩, rfl⟩
    | false =>
      simp only [exchanged plan transactions pinCalls sends fails]
      exact (inductionHypothesis response after left (transactions + 1) pinCalls).access fails
        access response (exchanged .smooth transactions pinCalls sends rfl) rfl
  | @drive level next goesOn inductionHypothesis =>
    exact (inductionHypothesis (!plan.pinFails pinCalls) file script transactions
      (pinCalls + 1)).drive level (!plan.pinFails pinCalls)

/-- When nothing fails, every access of a program is answered, and the device ends up as
its accesses leave it. -/
theorem run_calm (program : Program Chip.Reply α) (plan : Plan) (file : RegisterFile)
    (script : Address → List UInt8) (transactions pinCalls sends : Nat) :
    let bench : Bench := ⟨.registers file, script, transactions, pinCalls, sends⟩
    let calm := program.run (serve plan.calm) bench
    Chip.Answered calm.exchanges ∧
      calm.state.SameChip (bench.afterAll ((Chip.busTraffic calm.exchanges).map Prod.fst)) := by
  induction program generalizing file script transactions pinCalls with
  | done result => exact ⟨by simp [Chip.Answered, Chip.busTraffic], rfl, rfl⟩
  | ask call next inductionHypothesis =>
    cases call with
    | access access =>
      obtain ⟨response, after, left, exchanged⟩ := transfer_registers file script access.frame
      obtain ⟨answered, chip⟩ :=
        inductionHypothesis (some response) after left (transactions + 1) pinCalls
      simp only [Program.run_ask, serve, exchanged plan.calm transactions pinCalls sends rfl]
      refine ⟨by simpa [Chip.Answered] using answered, ?_⟩
      simpa [afterAll, exchanged .smooth transactions pinCalls sends rfl] using chip
    | drive level =>
      obtain ⟨answered, chip⟩ :=
        inductionHypothesis (!plan.pinFails pinCalls) file script transactions (pinCalls + 1)
      let later := (next (!plan.pinFails pinCalls)).run (serve plan.calm)
        ⟨.registers file, script, transactions, pinCalls + 1, sends⟩
      have same := sameChip_afterAll ((Chip.busTraffic later.exchanges).map Prod.fst) file script
        transactions (pinCalls + 1) sends transactions pinCalls sends
      exact ⟨answered, chip.1.trans same.1, chip.2.trans same.2⟩

/-- Every driver operation obeys the plan in the same way. Take its fault-free run from
any register file with any script. If the plan hits none of its transactions, the
operation's run is that run. Otherwise it follows that run up to the first transaction
hit, attempts it, and reports a bus fault; the device is as the transactions before it
left it.

Proof: every operation is fail-stop, by its parts. Such a program runs alike under plan and calm
plan until an access fails, and then has nothing left to do but report. -/
theorem operation_fail_stop (operation : Driver.Op) (plan : Plan) (file : RegisterFile)
    (script : Address → List UInt8) (transactions pinCalls sends : Nat) :
    let bench : Bench := ⟨.registers file, script, transactions, pinCalls, sends⟩
    let calm := operation.program.run (serve plan.calm) bench
    let run := operation.program.run (serve plan) bench
    Chip.Answered calm.exchanges ∧
      calm.state.SameChip (bench.afterAll ((Chip.busTraffic calm.exchanges).map Prod.fst)) ∧
      match plan.firstFault transactions (Chip.busTraffic calm.exchanges).length with
      | none => run = calm
      | some position =>
        run.result.verdict = .error (.fault .spi) ∧ StoppedAt bench calm run position := by
  obtain ⟨answered, chip⟩ := run_calm operation.program plan file script transactions pinCalls sends
  exact ⟨answered, chip, follows_of_failStop (Driver.failStop_operation operation) plan file script
    transactions pinCalls sends⟩

end Bench

end NfcFrontend
