import NfcFrontend.Proofs.Retry
import NfcFrontend.Proofs.SceneTraffic

/-!
# Retry converges

A caller whose operation failed on the bus tries it again, and a host that is told of a
failure sends its request again. Neither knows how far the attempt before had come. They need
not know: after any number of failed attempts, each stopped anywhere, the first one that meets
no failure ends as if it had been the only one. That holds of every driver operation and of
every request, and a request sent again and again is no more than a scenario of its bytes.

For a request the bridge adds nothing to it. Its session is fresh again after every request,
the bytes offered follow from how the work on the chip ended, and the link does not touch the
registers.
-/

namespace NfcFrontend

namespace Host

/-! ## Sending a request -/

namespace Scene

variable {σ : Type}

/-- The host sends a request. -/
def submit (world : World σ) (request : Request) (scene : Scene σ) : List Record × Scene σ :=
  scene.play world (request.encode.map Event.byte)

/-- The host sends the same request a number of times, with a list of records for each time. -/
def resubmit (world : World σ) (request : Request) : Nat → Scene σ → List (List Record) × Scene σ
  | 0, scene => ([], scene)
  | count + 1, scene =>
    let (records, after) := scene.submit world request
    let (others, final) := after.resubmit world request count
    (records :: others, final)

/-- That is a scenario of its bytes. -/
theorem resubmit_eq_play (world : World σ) (request : Request) (count : Nat) (scene : Scene σ) :
    let sent := scene.resubmit world request count
    scene.play world ((List.replicate count request.encode).flatten.map Event.byte) =
      (sent.1.flatten, sent.2) := by
  induction count generalizing scene with
  | zero => rfl
  | succ count inductionHypothesis =>
    rw [List.replicate_succ, List.flatten_cons, List.map_append, play_append]
    simp only [resubmit, submit, inductionHypothesis, List.flatten_cons]

/-- So are a number of times and one more. -/
theorem play_resubmit_submit (world : World σ) (request : Request) (count : Nat) (scene : Scene σ) :
    let sent := scene.resubmit world request count
    let resent := sent.2.submit world request
    scene.play world ((List.replicate (count + 1) request.encode).flatten.map Event.byte) =
      (sent.1.flatten ++ resent.1, resent.2) := by
  intro sent resent
  rw [List.replicate_succ', List.flatten_append, List.flatten_singleton, List.map_append,
    play_append, resubmit_eq_play]
  rfl

end Scene

namespace Bridge

variable {σ : Type} {world : World σ} {holds : σ → Prop}

/-- What the link keeps still holds after bytes were offered. -/
theorem offerAll_keeps (link : ∀ byte state, holds state → holds (world.link byte state).2)
    (bytes : List UInt8) (queue : Queue) {state : σ} (start : holds state) :
    holds ((offerAll bytes).run world.serve (queue, state)).state.2 := by
  induction bytes generalizing state with
  | nil => exact start
  | cons byte rest inductionHypothesis => exact inductionHypothesis (link byte state start)

/-- It does so after a conclusion was announced, which is no more than that. -/
theorem announce_keeps (link : ∀ byte state, holds state → holds (world.link byte state).2)
    (conclusion : Conclusion) (queue : Queue) {state : σ} (start : holds state) :
    holds ((announce conclusion).run world.serve (queue, state)).state.2 := by
  rw [announce, Program.run_bind]
  exact offerAll_keeps link conclusion.offers queue start

/-- What a request's work leaves and the link keeps holds after the request. -/
theorem execute_keeps (link : ∀ byte state, holds state → holds (world.link byte state).2)
    (request : Request) (queue : Queue) {state : σ}
    (worked : holds (Program.run world.chip (work request).run state).state) :
    holds ((execute request).run world.serve (queue, state)).state.2 := by
  rw [execute_eq, Program.run_bind, run_ofChip]
  exact announce_keeps link _ queue worked

/-- A host that sends a request sees what became of the work for it. -/
theorem submit_eq (world : World σ) (request : Request) (queue : Queue) (state : σ) :
    let worked := Program.run world.chip (work request).run state
    ∃ records after,
      (⟨Session.fresh, queue, state⟩ : Scene σ).submit world request =
        (records, ⟨Session.fresh, queue, after⟩) ∧
      chipLog records = worked.exchanges ∧
      (hostLog records).map Prod.fst = (conclude worked.result).offers ∧
      ∀ holds : σ → Prop, (∀ byte state, holds state → holds (world.link byte state).2) →
        holds worked.state → holds after := by
  intro worked
  obtain ⟨waits, silent, played⟩ := Scene.play_encode world request queue state
  obtain ⟨sends, after, ran, quiet, offers⟩ := run_execute world request queue state
  obtain ⟨noExchange, noOffer⟩ := logs_silent silent
  rw [ran] at played
  refine ⟨_, after, played, ?traffic, ?offers, ?left⟩
  case traffic =>
    rw [chipLog_append, noExchange]
    simp [chipLog, Record.chipTraffic, quiet, worked]
  case offers =>
    rw [hostLog_append, noOffer]
    simpa [hostLog, Record.offered, worked] using offers
  case left =>
    intro holds link kept
    have final := execute_keeps link request queue kept
    rw [ran] at final
    exact final

/-! ## The work for a request -/

/-- A request that offers nothing but its failure has failed on the bus. -/
theorem faulted_of_offers (chip : Server Chip.Reply σ) (request : Request) (state : σ)
    (told : (conclude (Program.run chip (work request).run state).result).offers =
      [nak, driverFault]) :
    Action.Faulted (Program.run chip (work request).run state).result := by
  rcases (work_served request).failStop.run_ended chip state with ⟨fine, -⟩ | ⟨faulted, -⟩
  · cases ended : (Program.run chip (work request).run state).result with
    | ok answer =>
      rw [ended] at told
      cases answer <;> simp [conclude] at told
    | error stop =>
      rw [ended] at told fine
      rw [fine.2] at told
      exact absurd told (by decide)
  · exact faulted

end Bridge

end Host

namespace Bench

open Host Host.Bridge
open Driver (Op operate operateAll)

variable {bench : Bench} {memory : Memory}

/-- A repeatable action with an answer added to it. -/
theorem retriable_answer {α : Type} {action : Action Unit} (repeatable : Driver.Repeatable action)
    (answer : α) :
    Retriable Action.Faulted (do action; return answer : Action α).run := by
  have same : (do action; return answer : Action α).run =
      (fun verdict => verdict.map fun _ => answer) <$> action.run := by
    rw [← ExceptT.run_map, ← bind_pure_comp]
  rw [same]
  refine retriable_of_repeatable repeatable _ ?_
  intro faulted
  cases faulted

/-- What is done for a request may be tried again. -/
theorem retriable_work (request : Request) : Retriable Action.Faulted (work request).run := by
  have served := work_served request
  generalize work request = action at served
  cases served with
  | refused request fault => exact retriable_of_quiet (.done _)
  | read address =>
    exact retriable_of_quiet (Driver.quiet_bind (Driver.quiet_read address) fun value => .done _)
  | write address value => exact retriable_answer (.write address value) none
  | load protocol => exact retriable_answer (.loadSettings _ _) (some Host.ack)
  | switchOn | switchOff =>
    exact retriable_answer (.write Register.drvMode.address _) (some Host.ack)

/-- Sending a request leaves the registers as the work for it did. -/
theorem submit_plain (plan : Plan) (request : Request) (queue : Queue) (bench : Bench) :
    let worked := Program.run (serve plan) (work request).run bench
    ∃ records after,
      (⟨Session.fresh, queue, bench⟩ : Scene Bench).submit (world plan) request =
        (records, ⟨Session.fresh, queue, after⟩) ∧
      chipLog records = worked.exchanges ∧
      (hostLog records).map Prod.fst = (conclude worked.result).offers ∧
      ∀ memory, Plain worked.state memory → Plain after memory := by
  obtain ⟨records, after, sent, traffic, told, keeps⟩ :=
    submit_eq (world plan) request queue bench
  refine ⟨records, after, sent, traffic, told, ?_⟩
  intro memory plain
  refine keeps (fun bench => Plain bench memory) ?_ plain
  intro byte before kept
  exact ⟨kept.registers, kept.unscripted⟩

/-- After any number of times the host was told of a failure, the work for its request ends as it
would have before them, and the bridge waits for a request. -/
theorem Plain.resubmit (plain : Plain bench memory) (plan : Plan) (request : Request)
    (queue : Queue) (count : Nat)
    (failed : ∀ records ∈
      ((⟨Session.fresh, queue, bench⟩ : Scene Bench).resubmit (world plan) request count).1,
      (hostLog records).map Prod.fst = [nak, driverFault]) :
    ∃ after left,
      ((⟨Session.fresh, queue, bench⟩ : Scene Bench).resubmit (world plan) request count).2 =
        ⟨Session.fresh, queue, after⟩ ∧
      Plain after left ∧ ending (work request).run left = ending (work request).run memory := by
  induction count generalizing bench memory with
  | zero => exact ⟨bench, memory, rfl, plain, rfl⟩
  | succ count inductionHypothesis =>
    obtain ⟨records, between, sent, -, told, leaves⟩ := submit_plain plan request queue bench
    rw [Scene.resubmit, sent] at failed ⊢
    dsimp only at failed ⊢
    rw [List.forall_mem_cons] at failed
    have faulted := faulted_of_offers (serve plan) request bench (told.symm.trans failed.1)
    obtain ⟨kept, worked, same⟩ := retriable_work request plan bench memory plain faulted
    obtain ⟨after, left, ended, plainly, ends⟩ :=
      inductionHypothesis (leaves kept worked) failed.2
    exact ⟨after, left, ended, plainly, ends.trans same⟩

/-! ## Convergence -/

/-- Whatever failures an operation or a request has met, and however often, on a register file
that only its own accesses change: the first attempt that meets none ends as a single attempt
on a chip that never fails, with the same result, buffer or response, and the same registers. All
that a host does to send a request once more is to send its bytes once more.

Proof: an operation either writes nothing or makes a list of updates that may be made again after
any part of it. So from what failed attempts leave, it ends as from the registers before them. -/
theorem retry_converges (plan : Plan) (file : RegisterFile) (transactions pinCalls sends : Nat) :
    let bench : Bench := ⟨.registers file, fun _ => [], transactions, pinCalls, sends⟩
    (∀ (operation last : Op) (attempts : List Op),
      (∀ attempt ∈ attempts, Op.Again operation attempt) → Op.Again operation last →
      let failed := operateAll (serve plan) attempts bench
      let retried := operate (serve plan) last failed.2
      let single := operate (serve .smooth) operation bench
      (∀ record ∈ failed.1, record.outcome.verdict = .error (.fault .spi)) →
      Chip.Smooth retried.1.exchanges →
        retried.1.outcome = single.1.outcome ∧
        ∃ registers, retried.2.device.memory? = some registers ∧
          single.2.device.memory? = some registers) ∧
    ∀ (request : Request) (queue : Queue) (count : Nat),
      let start : Scene Bench := ⟨Session.fresh, queue, bench⟩
      let failed := start.resubmit (world plan) request count
      let retried := failed.2.submit (world plan) request
      let single := start.submit (world .smooth) request
      start.play (world plan) ((List.replicate (count + 1) request.encode).flatten.map Event.byte) =
          (failed.1.flatten ++ retried.1, retried.2) ∧
        ((∀ records ∈ failed.1, (hostLog records).map Prod.fst = [nak, driverFault]) →
        Chip.Smooth (chipLog retried.1) →
          (hostLog retried.1).map Prod.fst = (hostLog single.1).map Prod.fst ∧
          ∃ registers, retried.2.state.device.memory? = some registers ∧
            single.2.state.device.memory? = some registers) := by
  intro bench
  have plain : Plain bench file.memory := ⟨⟨file.log, file.transactions, rfl⟩, fun _ => rfl⟩
  constructor
  · intro operation last attempts again another failed retried single reported smooth
    obtain ⟨left, kept, ends⟩ := plain.attempts plan again reported
    have same : ending last.program left = ending operation.program file.memory :=
      (ending_again another left).trans ends
    obtain ⟨result, registers, retriedLeft, singleLeft⟩ := plain.converges kept same plan smooth
    exact ⟨result, registers, retriedLeft.memory?, singleLeft.memory?⟩
  · intro request queue count start failed retried single
    refine ⟨Scene.play_resubmit_submit (world plan) request count start, ?_⟩
    intro told smooth
    obtain ⟨after, left, ended, kept, ends⟩ := plain.resubmit plan request queue count told
    obtain ⟨records, final, sent, traffic, offers, leaves⟩ :=
      submit_plain plan request queue after
    obtain ⟨others, calm, sentOnce, -, offersOnce, leavesOnce⟩ :=
      submit_plain .smooth request queue bench
    have retriedIs : retried = (records, ⟨Session.fresh, queue, final⟩) := by rw [← sent, ← ended]
    have singleIs : single = (others, ⟨Session.fresh, queue, calm⟩) := sentOnce
    rw [retriedIs, traffic] at smooth
    obtain ⟨result, registers, retriedLeft, singleLeft⟩ := plain.converges kept ends plan smooth
    rw [retriedIs, singleIs, offers, offersOnce, result]
    exact ⟨rfl, registers, (leaves registers retriedLeft).memory?,
      (leavesOnce registers singleLeft).memory?⟩

/-- A bench on which two transactions fail, the third and the ninth. -/
def flaky : Plan :=
  ⟨fun position => position = 2 || position = 8, fun _ => false, fun _ => false⟩

/-- Two failed attempts to load a key, the first at the flush and the second within the key. -/
def keyAttempts : List Driver.Record × Bench :=
  operateAll (serve flaky) (List.replicate 2 (.loadKey (.replicate keyLength 0xA0)))
    ⟨.registers (.ofMemory .blank), fun _ => [], 0, 0, 0⟩

/-- Two failed attempts to load a protocol, the first at the flush and the second at the command. -/
def protocolAttempts : List (List Host.Record) × Scene Bench :=
  (⟨Session.fresh, [], ⟨.registers (.ofMemory .blank), fun _ => [], 0, 0, 0⟩⟩ :
    Scene Bench).resubmit (world flaky) (.protocolSet 0x03) 2

/-- The third attempt meets no failure, and ends as a first one would have. -/
theorem retry_converges_third_attempt :
    let load : Op := .loadKey (.replicate keyLength 0xA0)
    let request : Request := .protocolSet 0x03
    let bench : Bench := ⟨.registers (.ofMemory .blank), fun _ => [], 0, 0, 0⟩
    let start : Scene Bench := ⟨Session.fresh, [], bench⟩
    let retried := operate (serve flaky) load keyAttempts.2
    let single := operate (serve .smooth) load bench
    let resent := protocolAttempts.2.submit (world flaky) request
    let once := start.submit (world .smooth) request
    (∀ record ∈ keyAttempts.1, record.outcome.verdict = .error (.fault .spi)) ∧
      Chip.Smooth retried.1.exchanges ∧ retried.1.outcome = single.1.outcome ∧
      (∃ registers, retried.2.device.memory? = some registers ∧
        single.2.device.memory? = some registers) ∧
      (∀ records ∈ protocolAttempts.1, (hostLog records).map Prod.fst = [nak, driverFault]) ∧
      Chip.Smooth (chipLog resent.1) ∧
      (hostLog resent.1).map Prod.fst = (hostLog once.1).map Prod.fst ∧
      ∃ registers, resent.2.state.device.memory? = some registers ∧
        once.2.state.device.memory? = some registers := by
  dsimp only
  obtain ⟨operations, requests⟩ := retry_converges flaky (.ofMemory .blank) 0 0 0
  have again : ∀ attempt ∈ List.replicate 2 (.loadKey (.replicate keyLength 0xA0)),
      Op.Again (.loadKey (.replicate keyLength 0xA0)) attempt := by
    intro attempt member
    obtain rfl := List.eq_of_mem_replicate member
    exact .same _
  have reported : ∀ record ∈ keyAttempts.1, record.outcome.Faulted := by decide
  have smooth : Chip.Smooth
      (operate (serve flaky) (.loadKey (.replicate keyLength 0xA0)) keyAttempts.2).1.exchanges := by
    unfold Chip.Smooth Chip.Answered
    decide
  have told : ∀ records ∈ protocolAttempts.1,
      (hostLog records).map Prod.fst = [nak, driverFault] := by decide
  have quiet :
      Chip.Smooth (chipLog (protocolAttempts.2.submit (world flaky) (.protocolSet 0x03)).1) := by
    unfold Chip.Smooth Chip.Answered
    decide
  obtain ⟨outcome, registers⟩ := operations _ _ _ again (.same _) reported smooth
  obtain ⟨-, resent⟩ := requests (.protocolSet 0x03) [] 2
  obtain ⟨response, final⟩ := resent told quiet
  exact ⟨reported, smooth, outcome, registers, told, quiet, response, final⟩

end Bench

end NfcFrontend
