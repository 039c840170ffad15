import NfcFrontend.Proofs.Attempts
import NfcFrontend.Proofs.FaultPlan
import NfcFrontend.Proofs.PlainChip

/-!
# Fixed accesses under a plan

Many actions make the same accesses whatever they are answered: the answer to a write carries no
information. A plan of failures then decides by itself how such an action ends, and on which
transactions. What it leaves on the chip are the accesses in front of the first failure.

The bus only counts. A program moves that count by the length of its traffic, so the transaction
of whatever comes next is known as well.
-/

namespace NfcFrontend

namespace Bench

open NfcFrontend.Action (Attempts)

variable {α : Type} {bench other : Bench} {memory : Memory}

/-- Every transaction is counted, answered or not. -/
theorem transactions_transfer (plan : Plan) (frame : Frame) (bench : Bench) :
    (bench.transfer plan frame).2.transactions = bench.transactions + 1 := by
  have kept (begun : Bench) : (begun.takeScripted frame).transactions = begun.transactions := by
    unfold takeScripted
    split
    · split
      · rfl
      · rfl
    · rfl
  unfold transfer
  split
  · rfl
  · exact kept _

/-- So a program moves the count by the length of its traffic. -/
theorem transactions_run (plan : Plan) (program : Program Chip.Reply α) (bench : Bench) :
    let run := program.run (serve plan) bench
    run.state.transactions = bench.transactions + (Chip.busTraffic run.exchanges).length := by
  induction program generalizing bench with
  | done result => rfl
  | ask call next inductionHypothesis =>
    rw [Program.run_ask]
    have later := inductionHypothesis (serve plan call bench).1 (serve plan call bench).2
    cases call with
    | access access =>
      have counted : (serve plan (.access access) bench).2.transactions = bench.transactions + 1 :=
        transactions_transfer plan access.frame bench
      rw [counted] at later
      simp only [Chip.busTraffic_access, List.length_cons, later]
      omega
    | drive level => exact later

/-! ## Accesses -/

/-- A run that is stopped has tried what the fault-free run does, up to the failure. -/
theorem StoppedAt.tried {calm run : Run Chip.Reply Bench α} {position : Nat}
    (stopped : StoppedAt bench calm run position) :
    (Chip.busTraffic run.exchanges).map Prod.fst =
      ((Chip.busTraffic calm.exchanges).map Prod.fst).take (position + 1) := by
  obtain ⟨access, answer, present, split⟩ := stopped.traffic
  rw [split, List.map_append, List.map_take, List.take_add_one, List.getElem?_map, present]
  rfl

/-- How a program ends that always makes the same number of transactions when it gets all its
answers: as it does then, or by the first transaction that the plan fails. -/
theorem run_of_count {faulted clear : α → Prop} (whole : α → Prop) {program : Program Chip.Reply α}
    (stops : Chip.FailStop faulted clear program) {count : Nat}
    (complete : ∀ (chip : Server Chip.Reply Bench) (state : Bench),
      Chip.Answered (program.run chip state).exchanges →
        whole (program.run chip state).result ∧
          (Chip.busTraffic (program.run chip state).exchanges).length = count)
    (plan : Plan) (file : RegisterFile) (script : Address → List UInt8)
    (transactions pinCalls sends : Nat) :
    let run := program.run (serve plan) ⟨.registers file, script, transactions, pinCalls, sends⟩
    match plan.firstFault transactions count with
    | none => whole run.result ∧ (Chip.busTraffic run.exchanges).length = count
    | some position => faulted run.result ∧
        (Chip.busTraffic run.exchanges).length = position + 1 := by
  intro run
  let calm := program.run (serve plan.calm)
    ⟨.registers file, script, transactions, pinCalls, sends⟩
  have follows : Follows faulted plan _ calm run :=
    follows_of_failStop stops plan file script transactions pinCalls sends
  obtain ⟨answered, -⟩ := run_calm program plan file script transactions pinCalls sends
  have ended : whole calm.result ∧ (Chip.busTraffic calm.exchanges).length = count :=
    complete _ _ answered
  rw [Follows, ended.2] at follows
  cases found : plan.firstFault transactions count with
  | none =>
    rw [found] at follows
    have same : run = calm := follows
    rw [same]
    exact ended
  | some position =>
    rw [found] at follows
    obtain ⟨reported, stopped⟩ := follows
    have tried := congrArg List.length stopped.tried
    obtain ⟨access, answer, present, -⟩ := stopped.traffic
    obtain ⟨inside, -⟩ := List.getElem?_eq_some_iff.mp present
    rw [List.length_map, List.length_take, List.length_map] at tried
    refine ⟨reported, ?_⟩
    omega

/-- How an action ends that makes the same accesses whatever it is answered: it makes them in
order, up to the first that the plan fails, which is tried. -/
theorem run_accesses {allowed : Stop Fault → Prop} {action : Action Unit} {accesses : List Access}
    (stops : Action.FailStop allowed action)
    (attempts : ∀ (chip : Server Chip.Reply Bench) (state : Bench),
      Attempts accesses (Program.run chip action.run state))
    (plan : Plan) (file : RegisterFile) (script : Address → List UInt8)
    (transactions pinCalls sends : Nat) :
    let start : Bench := ⟨.registers file, script, transactions, pinCalls, sends⟩
    let run := Program.run (serve plan) action.run start
    let tried := (Chip.busTraffic run.exchanges).map Prod.fst
    match plan.firstFault transactions accesses.length with
    | none => run.result = .ok () ∧ tried = accesses ∧ Chip.Answered run.exchanges ∧
        run.state.SameChip (start.afterAll accesses)
    | some position => run.result = .error (.fault .spi) ∧
        tried = accesses.take (position + 1) ∧
        run.state.SameChip (start.afterAll (accesses.take position)) := by
  intro start run tried
  let calm := Program.run (serve plan.calm) action.run start
  have follows : Follows Action.Faulted plan start calm run :=
    follows_of_failStop stops plan file script transactions pinCalls sends
  -- The run without failures makes every access, so its traffic is the list of accesses.
  obtain ⟨answered, chip⟩ := run_calm action.run plan file script transactions pinCalls sends
  obtain ⟨succeeded, made⟩ := (attempts (serve plan.calm) start).of_answered answered
  have length : (Chip.busTraffic calm.exchanges).length = accesses.length := by
    rw [← made, List.length_map]
  rw [Follows, length] at follows
  cases found : plan.firstFault transactions accesses.length with
  | none =>
    rw [found] at follows
    have same : run = calm := follows
    have ended : calm.result = .ok () := by
      cases result : calm.result with
      | ok value => rfl
      | error stop =>
        rw [result] at succeeded
        cases succeeded
    rw [made] at chip
    simp only [tried, same]
    exact ⟨ended, made, answered, chip⟩
  | some position =>
    rw [found] at follows
    obtain ⟨faulted, stopped⟩ := follows
    have attempted := stopped.tried
    have left := stopped.chip
    rw [made] at attempted
    rw [List.map_take, made] at left
    exact ⟨faulted, attempted, left⟩

/-! ## Plain registers -/

/-- A bench with the same chip has the same registers. -/
theorem Plain.of_sameChip (plain : Plain bench memory) (same : other.SameChip bench) :
    Plain other memory where
  registers := by
    rw [same.1]
    exact plain.registers
  unscripted := by
    rw [same.2]
    exact plain.unscripted

/-- A read on plain registers returns what they hold, unless the plan fails it. -/
theorem Plain.run_read (plain : Plain bench memory) (plan : Plan) (address : Address) :
    (Program.run (serve plan) (Driver.read address).run bench).result =
      if plan.busFails bench.transactions then .error (.fault .spi)
      else .ok (memory.get address) := by
  have transferred : serve plan (.access (.read address)) bench =
      bench.transfer plan (Access.read address).frame := rfl
  rw [Driver.read, Driver.access, ExceptT.run_mk, Program.run_ask, transferred]
  cases fails : plan.busFails bench.transactions with
  | true =>
    rw [transfer_failed _ fails]
    rfl
  | false =>
    have answered : (bench.transfer plan (Access.read address).frame).1 =
        some ⟨0, memory.get address⟩ := (plain.transfer fails (.read address)).1
    rw [answered]
    rfl

end Bench

end NfcFrontend
