import NfcFrontend.Proofs.BusHistory
import NfcFrontend.Proofs.PlannedRuns

/-!
# A plan against plain registers

A program that only uses the bus cannot be surprised on plain registers: what it is answered, and
with that every access it makes, is decided by their content. A plan then only chooses where the
program stops. `Plain.run_planned` says what it has tried by then and what it leaves, both read off
the run on the plain memory.
-/

namespace NfcFrontend

namespace Chip

variable {α β : Type}

/-- The program makes register accesses only. -/
inductive OnBus : Program Reply α → Prop where
  | done (result : α) : OnBus (.done result)
  | access (access : Access) {next : Option Frame → Program Reply α}
      (goesOn : ∀ answer, OnBus (next answer)) : OnBus (.ask (.access access) next)

/-- Programs on the bus may be put in sequence. -/
theorem OnBus.bind {program : Program Reply α} {next : α → Program Reply β}
    (first : OnBus program) (rest : ∀ result, OnBus (next result)) : OnBus (program >>= next) := by
  induction first with
  | done result => exact rest result
  | access access goesOn inductionHypothesis => exact .access access inductionHypothesis

end Chip

namespace Driver

/-- So may actions: one that stops goes no further. -/
theorem onBus_bind {α β : Type} {action : Action α} {next : α → Action β}
    (first : Chip.OnBus action.run) (rest : ∀ value, Chip.OnBus (next value).run) :
    Chip.OnBus (action >>= next).run := by
  refine first.bind ?_
  intro result
  cases result with
  | error stop => exact .done _
  | ok value => exact rest value

/-- An access is on the bus. -/
theorem onBus_access (access : Access) : Chip.OnBus (Driver.access access).run := by
  refine .access access ?_
  intro answer
  cases answer with
  | none => exact .done _
  | some response => exact .done _

/-- A change is a read and a write. -/
theorem onBus_modify (register : Register) (change : UInt8 → UInt8) :
    Chip.OnBus (modify register change).run :=
  onBus_bind (onBus_access _) fun _ => onBus_bind (onBus_access _) fun _ => .done _

end Driver

namespace Memory

/-- The registers after an access. -/
def carry (memory : Memory) (access : Access) : Memory := (serve (.access access) memory).2

/-- The registers after accesses in order. -/
def carryAll (memory : Memory) (accesses : List Access) : Memory := accesses.foldl carry memory

/-- After one access a register holds what it wrote there, or what was there. -/
theorem get_carry (memory : Memory) (access : Access) (address : Address) :
    (memory.carry access).get address =
      (Chip.lastWrite? address [access]).getD (memory.get address) := by
  cases access with
  | read other => rfl
  | write other byte =>
    have stored : (memory.carry (.write other byte)).get address =
        (memory.set other byte).get address := rfl
    rw [stored, get_set, Chip.lastWrite?_write]
    split
    · rfl
    · rfl

/-- A register holds what was last written to it, or what it held before. -/
theorem get_carryAll (memory : Memory) (accesses : List Access) (address : Address) :
    (memory.carryAll accesses).get address =
      (Chip.lastWrite? address accesses).getD (memory.get address) := by
  induction accesses generalizing memory with
  | nil => rfl
  | cons access rest inductionHypothesis =>
    have later : (memory.carryAll (access :: rest)).get address =
        (Chip.lastWrite? address rest).getD ((memory.carry access).get address) :=
      inductionHypothesis (memory.carry access)
    rw [later, get_carry, ← Chip.getD_lastWrite?_append, List.singleton_append]

end Memory

/-- The first failure among a number of transactions is one of them. -/
theorem Plan.firstFault_lt {plan : Plan} {start count position : Nat}
    (found : plan.firstFault start count = some position) : position < count :=
  List.mem_range.mp (List.mem_of_find?_eq_some found)

namespace Bench

variable {α : Type} {bench : Bench} {memory : Memory} {program : Program Chip.Reply α}

/-- Without failures such a program runs as on the memory. -/
theorem Plain.run_onBus (plain : Plain bench memory) (onBus : Chip.OnBus program) (plan : Plan) :
    Program.Alike Plain (program.run (serve plan.calm) bench)
      (program.run Memory.serve memory) := by
  induction onBus generalizing bench memory with
  | done result => exact ⟨rfl, rfl, plain⟩
  | access access goesOn inductionHypothesis =>
    have passes : plan.calm.busFails bench.transactions = false := rfl
    obtain ⟨answered, kept⟩ := plain.transfer passes access
    have same : (serve plan.calm (.access access) bench).1 =
        (Memory.serve (.access access) memory).1 := answered
    rw [Program.run_ask, Program.run_ask, same]
    have later := inductionHypothesis (Memory.serve (.access access) memory).1 kept
    exact ⟨later.result, congrArg (_ :: ·) later.exchanges, later.state⟩

/-- Accesses of which none fails leave on the bench what they leave in the memory. -/
theorem Plain.carriedAll (plain : Plain bench memory) (accesses : List Access) :
    Plain (bench.afterAll accesses) (memory.carryAll accesses) := by
  induction accesses generalizing bench memory with
  | nil => exact plain
  | cons access rest inductionHypothesis =>
    have passes : Plan.smooth.busFails bench.transactions = false := rfl
    exact inductionHypothesis (plain.transfer passes access).2

/-- What a plan makes of a fail-stop program on plain registers, by the number of accesses that the
program makes there. If it fails none of so many transactions, the program runs as on the memory.
Otherwise the accesses up to the first failed one have been tried, and those before it have been
carried out. -/
theorem Plain.run_planned {faulted clear : α → Prop} (plain : Plain bench memory)
    (stops : Chip.FailStop faulted clear program) (onBus : Chip.OnBus program) (plan : Plan)
    (count : Nat)
    (made : (Chip.busTraffic (program.run Memory.serve memory).exchanges).length = count) :
    let run := program.run (serve plan) bench
    let plainly := program.run Memory.serve memory
    let accesses := (Chip.busTraffic plainly.exchanges).map Prod.fst
    match plan.firstFault bench.transactions count with
    | none => Program.Alike Plain run plainly
    | some position => faulted run.result ∧
        (Chip.busTraffic run.exchanges).map Prod.fst = accesses.take (position + 1) ∧
        Plain run.state (memory.carryAll (accesses.take position)) := by
  intro run plainly accesses
  have calm := plain.run_onBus onBus plan
  have follows : Follows faulted plan bench (program.run (serve plan.calm) bench) run := by
    obtain ⟨_, script, transactions, pinCalls, sends⟩ := bench
    obtain ⟨⟨log, begun, rfl⟩, -⟩ := plain
    exact follows_of_failStop stops plan _ script transactions pinCalls sends
  rw [Follows, calm.exchanges, made] at follows
  cases found : plan.firstFault bench.transactions count with
  | none =>
    rw [found] at follows
    have same : run = program.run (serve plan.calm) bench := follows
    rw [same]
    exact calm
  | some position =>
    rw [found] at follows
    obtain ⟨reported, stopped⟩ := follows
    have tried := stopped.tried
    have left := stopped.chip
    rw [calm.exchanges] at tried
    rw [calm.exchanges, List.map_take] at left
    exact ⟨reported, tried, (plain.carriedAll _).of_sameChip left⟩

end Bench

end NfcFrontend
