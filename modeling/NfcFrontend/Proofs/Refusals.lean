import NfcFrontend.Bench.Basic
import NfcFrontend.Proofs.SceneTraffic

/-!
# A host that does not listen changes nothing

The bridge offers each response byte once and does not look at whether a host took it. A host
can be detached and attached again at any time: the chip, the reports, the sessions, the
receive queue and the bytes offered stay the same, and all that changes is which of these bytes
are delivered.

`Deaf` says so of a program: what follows a byte sent is the same program for either reply. Two
runs of a deaf program before worlds that differ in these replies alone therefore stay
together. A separate count of the bytes sent tells which of them a plan refuses.
-/

namespace NfcFrontend.Host

namespace Bridge

variable {α β : Type}

/-- The program goes on in the same way whether or not a host takes a byte. -/
inductive Deaf : Program Reply α → Prop where
  | done (result : α) : Deaf (.done result)
  | chip (call : Chip.Call) {next : Chip.Reply call → Program Reply α}
      (goesOn : ∀ reply, Deaf (next reply)) : Deaf (.ask (.chip call) next)
  | send (byte : UInt8) {rest : Program Reply α} (goesOn : Deaf rest) :
      Deaf (.ask (.send byte) fun _ => rest)
  | poll {next : Option UInt8 → Program Reply α} (goesOn : ∀ place, Deaf (next place)) :
      Deaf (.ask .poll next)

/-- Deaf programs may be put in sequence. By induction on the first, whose ends the second
continues. -/
theorem Deaf.bind {program : Program Reply α} {next : α → Program Reply β}
    (first : Deaf program) (rest : ∀ result, Deaf (next result)) : Deaf (program >>= next) := by
  induction first with
  | done result => exact rest result
  | chip call goesOn inductionHypothesis => exact .chip call inductionHypothesis
  | send byte goesOn inductionHypothesis => exact .send byte inductionHypothesis
  | poll goesOn inductionHypothesis => exact .poll inductionHypothesis

/-- A driver program sends nothing. -/
theorem deaf_ofChip (program : Program Chip.Reply α) : Deaf (ofChip program) := by
  induction program with
  | done result => exact .done result
  | ask call next inductionHypothesis => exact .chip call inductionHypothesis

/-- The next byte is offered whether or not the one before was taken. -/
theorem deaf_offerAll (bytes : List UInt8) : Deaf (offerAll bytes) := by
  induction bytes with
  | nil => exact .done ()
  | cons byte rest inductionHypothesis => exact .send byte inductionHypothesis

/-- So an announcement reports the same in any case. -/
theorem deaf_announce (conclusion : Conclusion) : Deaf (announce conclusion) :=
  (deaf_offerAll conclusion.offers).bind fun _ => .done conclusion.report

/-- A request is worked on first and announced then, and neither part listens. -/
theorem deaf_execute (request : Request) : Deaf (execute request) := by
  rw [execute_eq]
  exact (deaf_ofChip _).bind fun verdict => deaf_announce (conclude verdict)

/-- A negative acknowledgement is followed by its reason in any case. -/
theorem deaf_reject (reason : UInt8) : Deaf (reject reason) := .send nak (.send reason (.done ()))

/-- Every step of a session is reacted to without listening: a request is executed, and an unknown
or overflowing byte is rejected. -/
theorem deaf_react (step : Except Violation Step) : Deaf (react step) := by
  cases step with
  | error violation => exact .done _
  | ok step =>
    cases step with
    | pending => exact .done _
    | unknown byte => exact (deaf_reject unknownCommand).bind fun _ => .done _
    | ready request => exact deaf_execute request
    | overflow => exact (deaf_reject driverFault).bind fun _ => .done _

/-- Nor does the bridge listen while it processes a byte, since all that follows is to keep the
session. -/
theorem deaf_process (session : Connection) (byte : UInt8) : Deaf (process session byte) :=
  (deaf_react _).bind fun _ => .done _

/-- A tick does so with the byte that it finds. -/
theorem deaf_tick (session : Connection) : Deaf (tick session) := by
  refine .poll ?_
  intro place
  cases place with
  | none => exact .done _
  | some byte => exact deaf_process session byte

/-! ## Two runs -/

/-- An exchange without what the link said. -/
def unheard : Exchange Reply → Exchange Reply
  | ⟨.send byte, _⟩ => ⟨.send byte, true⟩
  | ⟨.chip call, reply⟩ => ⟨.chip call, reply⟩
  | ⟨.poll, place⟩ => ⟨.poll, place⟩

/-- The chip sees the same when what the link said is left out. -/
theorem chipTraffic_unheard (exchanges : List (Exchange Reply)) :
    chipTraffic (exchanges.map unheard) = chipTraffic exchanges := by
  induction exchanges with
  | nil => rfl
  | cons exchange rest inductionHypothesis =>
    match exchange with
    | ⟨.chip call, reply⟩ => exact congrArg (⟨call, reply⟩ :: ·) inductionHypothesis
    | ⟨.send _, _⟩ | ⟨.poll, _⟩ => exact inductionHypothesis

/-- The bytes offered are the same too. -/
theorem offered_unheard (exchanges : List (Exchange Reply)) :
    (offered (exchanges.map unheard)).map Prod.fst = (offered exchanges).map Prod.fst := by
  induction exchanges with
  | nil => rfl
  | cons exchange rest inductionHypothesis =>
    match exchange with
    | ⟨.send byte, _⟩ => exact congrArg (byte :: ·) inductionHypothesis
    | ⟨.chip _, _⟩ | ⟨.poll, _⟩ => exact inductionHypothesis

end Bridge

variable {σ : Type} {left right : World σ}

/-- Two worlds that differ at most in what their links say. -/
structure World.AlikeButLink (left right : World σ) : Prop where
  chip : left.chip = right.chip
  link : ∀ byte state, (left.link byte state).2 = (right.link byte state).2

namespace Bridge

variable {α : Type}

/-- Two runs that differ at most in what the links said. -/
structure Together (run other : Run Reply (Queue × σ) α) : Prop where
  result : run.result = other.result
  exchanges : run.exchanges.map unheard = other.exchanges.map unheard
  state : run.state = other.state

/-- A deaf program stays together in such worlds. -/
theorem Deaf.together {program : Program Reply α} (deaf : Deaf program)
    (alike : World.AlikeButLink left right) (surroundings : Queue × σ) :
    Together (program.run left.serve surroundings) (program.run right.serve surroundings) := by
  induction deaf generalizing surroundings with
  | done result => exact ⟨rfl, rfl, rfl⟩
  | chip call goesOn inductionHypothesis =>
    obtain ⟨queue, state⟩ := surroundings
    have same :
        left.serve (.chip call) (queue, state) = right.serve (.chip call) (queue, state) := by
      simp only [World.serve, alike.chip]
    rw [Program.run_ask, Program.run_ask, same]
    obtain ⟨result, exchanges, state⟩ := inductionHypothesis _ _
    exact ⟨result, congrArg (_ :: ·) exchanges, state⟩
  | send byte goesOn inductionHypothesis =>
    obtain ⟨queue, state⟩ := surroundings
    have same : (left.serve (.send byte) (queue, state)).2 =
        (right.serve (.send byte) (queue, state)).2 := by
      simp only [World.serve, alike.link]
    rw [Program.run_ask, Program.run_ask, same]
    obtain ⟨result, exchanges, state⟩ := inductionHypothesis _
    exact ⟨result, congrArg (_ :: ·) exchanges, state⟩
  | poll goesOn inductionHypothesis =>
    obtain ⟨queue, state⟩ := surroundings
    have same : left.serve .poll (queue, state) = right.serve .poll (queue, state) := by
      cases queue <;> rfl
    rw [Program.run_ask, Program.run_ask, same]
    obtain ⟨result, exchanges, state⟩ := inductionHypothesis _ _
    exact ⟨result, congrArg (_ :: ·) exchanges, state⟩

end Bridge

/-- A record without what the link said. -/
def Record.unheard : Record → Record
  | .bridge record => .bridge { record with exchanges := record.exchanges.map Bridge.unheard }
  | .restart records => .restart records

/-- Both hold of the records of a scenario. -/
theorem logs_unheard (records : List Record) :
    chipLog (records.map Record.unheard) = chipLog records ∧
      (hostLog (records.map Record.unheard)).map Prod.fst = (hostLog records).map Prod.fst := by
  induction records with
  | nil => exact ⟨rfl, rfl⟩
  | cons record rest inductionHypothesis =>
    obtain ⟨chip, host⟩ := inductionHypothesis
    rw [List.map_cons, chipLog_cons, hostLog_cons, List.map_append, chip, host, chipLog_cons,
      hostLog_cons, List.map_append]
    cases record with
    | bridge record =>
      simp only [Record.unheard, Record.chipTraffic, Record.offered, Bridge.chipTraffic_unheard,
        Bridge.offered_unheard, and_self]
    | restart records => exact ⟨rfl, rfl⟩

namespace Scene

/-- Records of two scenarios that differ at most in what the links said, and one scene. -/
structure Together (run other : Record × Scene σ) : Prop where
  record : run.1.unheard = other.1.unheard
  scene : run.2 = other.2

/-- What the bridge is asked to do comes to the same before both links. -/
theorem attend_together (alike : World.AlikeButLink left right)
    {program : Program Bridge.Reply (Bridge.Report × Bridge.Connection)}
    (deaf : Bridge.Deaf program) (scene : Scene σ) :
    Together (scene.attend left program) (scene.attend right program) := by
  obtain ⟨result, exchanges, state⟩ := deaf.together alike (scene.queue, scene.state)
  constructor
  · simp only [attend, Record.unheard, result, exchanges, state]
  · simp only [attend, result, state]

/-- So does every event. A byte and a tick run deaf programs, a push only queues, and a restart
goes to the chip alone. -/
theorem happen_together (alike : World.AlikeButLink left right) (event : Event)
    (scene : Scene σ) : Together (scene.happen left event) (scene.happen right event) := by
  cases event with
  | byte byte => exact attend_together alike (Bridge.deaf_process scene.session byte) scene
  | tick => exact attend_together alike (Bridge.deaf_tick scene.session) scene
  | push places => exact ⟨rfl, rfl⟩
  | restart operations =>
    rw [happen, happen, alike.chip]
    exact ⟨rfl, rfl⟩

/-- A scenario stays together, event by event, and leaves one scene. -/
theorem play_together (alike : World.AlikeButLink left right) (events : List Event)
    (scene : Scene σ) :
    (scene.play left events).1.map Record.unheard =
        (scene.play right events).1.map Record.unheard ∧
      (scene.play left events).2 = (scene.play right events).2 := by
  induction events generalizing scene with
  | nil => exact ⟨rfl, rfl⟩
  | cons event rest inductionHypothesis =>
    obtain ⟨record, after⟩ := happen_together alike event scene
    obtain ⟨records, final⟩ := inductionHypothesis (scene.happen right event).2
    simp only [play, List.map_cons, after, record, records, final, and_self]

end Scene

end NfcFrontend.Host

namespace NfcFrontend

open Host

/-- What a plan makes of bytes sent one after the other. -/
def Plan.marked (plan : Plan) (sends : Nat) (bytes : List UInt8) : List (UInt8 × Bool) :=
  (bytes.zipIdx sends).map fun entry => (entry.1, !plan.linkRefuses entry.2)

/-- Bytes in two parts are marked part by part, with the positions of the second behind the first.
-/
theorem Plan.marked_append (plan : Plan) (sends : Nat) (first second : List UInt8) :
    plan.marked sends (first ++ second) =
      plan.marked sends first ++ plan.marked (sends + first.length) second := by
  rw [marked, List.zipIdx_append, List.map_append]
  rfl

/-- The bytes that are taken are those at the positions not refused. -/
theorem Plan.taken_marked (plan : Plan) (sends : Nat) (bytes : List UInt8) :
    ((plan.marked sends bytes).filter Prod.snd).map Prod.fst =
      ((bytes.zipIdx sends).filter fun entry => !plan.linkRefuses entry.2).map Prod.fst := by
  rw [marked, List.filter_map, List.map_map]
  rfl

/-- The plan with other bytes refused. -/
def Plan.refusing (plan : Plan) (refuses : Nat → Bool) : Plan :=
  { plan with linkRefuses := refuses }

namespace Bench

/-- Nothing that is asked of the chip counts as a byte sent. -/
theorem serve_sends (plan : Plan) (call : Chip.Call) (bench : Bench) :
    (serve plan call bench).2.sends = bench.sends := by
  cases call with
  | drive level => rfl
  | access access =>
    have prepared (frame : Frame) (bench : Bench) :
        (bench.takeScripted frame).sends = bench.sends := by
      unfold takeScripted
      split
      · split <;> rfl
      · rfl
    rw [serve, transfer]
    split
    · rfl
    · exact prepared _ _

/-- Work on the chip sends nothing to the host. -/
theorem run_sends {α : Type} (plan : Plan) (program : Program Chip.Reply α) (bench : Bench) :
    (program.run (serve plan) bench).state.sends = bench.sends := by
  induction program generalizing bench with
  | done result => rfl
  | ask call next inductionHypothesis =>
    rw [Program.run_ask]
    exact (inductionHypothesis _ _).trans (serve_sends plan call bench)

/-- Nor do driver operations in order. -/
theorem operateAll_sends (plan : Plan) (operations : List Driver.Op) (bench : Bench) :
    (Driver.operateAll (serve plan) operations bench).2.sends = bench.sends := by
  induction operations generalizing bench with
  | nil => rfl
  | cons operation rest inductionHypothesis =>
    exact (inductionHypothesis _).trans (run_sends plan operation.program bench)

/-- Offers made from a number of bytes sent up to another one, taken as the plan says. -/
structure Counted (plan : Plan) (sends : Nat) (offers : List (UInt8 × Bool)) (after : Nat) :
    Prop where
  marked : offers = plan.marked sends (offers.map Prod.fst)
  total : after = sends + offers.length

/-- Counted offers may follow each other. -/
theorem Counted.append {plan : Plan} {sends between after : Nat}
    {first second : List (UInt8 × Bool)}
    (begun : Counted plan sends first between) (rest : Counted plan between second after) :
    Counted plan sends (first ++ second) after where
  marked := by
    have length : between = sends + (first.map Prod.fst).length := by
      rw [List.length_map]
      exact begun.total
    rw [List.map_append, Plan.marked_append, ← length, ← begun.marked, ← rest.marked]
  total := by
    rw [rest.total, begun.total, List.length_append, Nat.add_assoc]

/-- Of the offers those are taken that are made at positions not refused. -/
theorem Counted.taken {plan : Plan} {sends after : Nat} {offers : List (UInt8 × Bool)}
    (counted : Counted plan sends offers after) :
    (offers.filter Prod.snd).map Prod.fst =
      (((offers.map Prod.fst).zipIdx sends).filter fun entry =>
        !plan.linkRefuses entry.2).map Prod.fst := by
  rw [← Plan.taken_marked, ← counted.marked]

/-- A bridge program counts its offers, whatever it is. -/
theorem run_counted {α : Type} (plan : Plan) (program : Program Bridge.Reply α) (queue : Queue)
    (bench : Bench) :
    let run := program.run (world plan).serve (queue, bench)
    Counted plan bench.sends (Bridge.offered run.exchanges) run.state.2.sends := by
  induction program generalizing queue bench with
  | done result => exact ⟨rfl, rfl⟩
  | ask call next inductionHypothesis =>
    cases call with
    | chip call =>
      have later := inductionHypothesis (serve plan call bench).1 queue (serve plan call bench).2
      rw [serve_sends] at later
      exact later
    | send byte =>
      have first : Counted plan bench.sends [(byte, !plan.linkRefuses bench.sends)]
          (bench.sends + 1) := ⟨rfl, rfl⟩
      exact first.append (inductionHypothesis _ queue (bench.send plan).2)
    | poll =>
      cases queue with
      | nil => exact inductionHypothesis none [] bench
      | cons place rest => exact inductionHypothesis place rest bench

/-- So does a scenario. -/
theorem play_counted (plan : Plan) (events : List Event) (scene : Scene Bench) :
    let played := scene.play (world plan) events
    Counted plan scene.state.sends (hostLog played.1) played.2.state.sends := by
  induction events generalizing scene with
  | nil => exact ⟨rfl, rfl⟩
  | cons event rest inductionHypothesis =>
    rw [Scene.play]
    dsimp only
    rw [hostLog_cons]
    refine Counted.append ?_ (inductionHypothesis (scene.happen (world plan) event).2)
    cases event with
    | byte byte =>
      exact run_counted plan (Bridge.process scene.session byte) scene.queue scene.state
    | tick => exact run_counted plan (Bridge.tick scene.session) scene.queue scene.state
    | push places => exact ⟨rfl, rfl⟩
    | restart operations => exact ⟨rfl, operateAll_sends plan operations scene.state⟩

/-- Two plans that refuse different bytes make the same chip, and the link counts a byte either
way. -/
theorem alike_refusing (plan : Plan) (refuses other : Nat → Bool) :
    World.AlikeButLink (world (plan.refusing refuses)) (world (plan.refusing other)) where
  chip := by
    funext call bench
    cases call <;> rfl
  link _ _ := rfl

/-- On any bench, under any failures and through any events, it makes no difference which bytes no
host takes: the chip sees the same, each step reports the same, and the same scene is left. The
same bytes are offered, each of them once, and those that are delivered are those at the positions
not refused.

Proof: the two worlds answer alike but for the verdict on a byte offered, and the bridge goes on in
the same way after either verdict. Played together, they stay level event by event. -/
theorem refusals_unheard (plan : Plan) (refuses other : Nat → Bool) (start : Scene Bench)
    (events : List Event) :
    let run := start.play (world (plan.refusing refuses)) events
    let beside := start.play (world (plan.refusing other)) events
    let sends := start.state.sends
    let taken (records : List Record) := ((hostLog records).filter Prod.snd).map Prod.fst
    run.1.map Record.unheard = beside.1.map Record.unheard ∧ run.2 = beside.2 ∧
      chipLog run.1 = chipLog beside.1 ∧
      ∃ offers : List UInt8,
        (hostLog run.1).map Prod.fst = offers ∧ (hostLog beside.1).map Prod.fst = offers ∧
        run.2.state.sends = sends + offers.length ∧
        taken run.1 =
          ((offers.zipIdx sends).filter fun entry => !refuses entry.2).map Prod.fst ∧
        taken beside.1 =
          ((offers.zipIdx sends).filter fun entry => !other entry.2).map Prod.fst := by
  intro run beside sends taken
  obtain ⟨records, final⟩ := Scene.play_together (alike_refusing plan refuses other) events start
  have chip : chipLog run.1 = chipLog beside.1 := by
    rw [← (logs_unheard run.1).1, records, (logs_unheard beside.1).1]
  have offers : (hostLog run.1).map Prod.fst = (hostLog beside.1).map Prod.fst := by
    rw [← (logs_unheard run.1).2, records, (logs_unheard beside.1).2]
  have counted := play_counted (plan.refusing refuses) events start
  have besides := play_counted (plan.refusing other) events start
  refine ⟨records, final, chip, _, rfl, offers.symm, ?total, counted.taken, ?beside⟩
  case total =>
    rw [List.length_map]
    exact counted.total
  case beside =>
    rw [offers]
    exact besides.taken

end Bench

end NfcFrontend
