import Mathlib.Data.List.ReduceOption
import Mathlib.Logic.Relation
import NfcFrontend.Bench.Basic
import NfcFrontend.Proofs.Requests

/-!
# Polling delivers the receive queue in order

Bytes from the host may wait in a receive queue until the bridge polls it, one place for each
tick. What becomes of a byte must not depend on how it got to the bridge. A tick that finds a byte
does what processing it directly does, and a tick that finds none does nothing, so a scenario with
ticks is a scenario of direct bytes with idle steps in between.

Only a poll looks at the queue, and a bridge that processes a byte does not poll. `Unpolled` says
so of programs. What such a program does is therefore the same before any queue, and a tick takes
one place from the queue however the processing of its byte ends.
-/

namespace NfcFrontend.Host

namespace Bridge

variable {α β σ : Type}

/-! ## Programs that do not poll -/

/-- The program never looks at the receive queue. -/
inductive Unpolled : Program Reply α → Prop where
  | done (result : α) : Unpolled (.done result)
  | chip (call : Chip.Call) {next : Chip.Reply call → Program Reply α}
      (goesOn : ∀ reply, Unpolled (next reply)) : Unpolled (.ask (.chip call) next)
  | send (byte : UInt8) {next : Bool → Program Reply α}
      (goesOn : ∀ taken, Unpolled (next taken)) : Unpolled (.ask (.send byte) next)

/-- Programs that do not poll may be put in sequence. -/
theorem Unpolled.bind {program : Program Reply α} {next : α → Program Reply β}
    (first : Unpolled program) (rest : ∀ result, Unpolled (next result)) :
    Unpolled (program >>= next) := by
  induction first with
  | done result => exact rest result
  | chip call goesOn inductionHypothesis => exact .chip call inductionHypothesis
  | send byte goesOn inductionHypothesis => exact .send byte inductionHypothesis

/-- Work on the chip does not poll. -/
theorem unpolled_ofChip (program : Program Chip.Reply α) : Unpolled (ofChip program) := by
  induction program with
  | done result => exact .done result
  | ask call next inductionHypothesis => exact .chip call inductionHypothesis

/-- Nor does an announcement, byte by byte. -/
theorem unpolled_announce (conclusion : Conclusion) : Unpolled (announce conclusion) := by
  have offers (bytes : List UInt8) : Unpolled (offerAll bytes) := by
    induction bytes with
    | nil => exact .done ()
    | cons byte rest inductionHypothesis => exact .send byte fun _ => inductionHypothesis
  exact (offers conclusion.offers).bind fun _ => .done conclusion.report

/-- Whatever a byte has led to, the reaction to it takes no other byte off the queue. -/
theorem unpolled_react (step : Except Violation Step) : Unpolled (react step) := by
  cases step with
  | error violation => exact .done _
  | ok step =>
    cases step with
    | pending => exact .done _
    | unknown byte => exact unpolled_announce ⟨[nak, unknownCommand], .ok ()⟩
    | ready request =>
      rw [react, execute_eq]
      exact (unpolled_ofChip _).bind fun verdict => unpolled_announce (conclude verdict)
    | overflow =>
      exact unpolled_announce ⟨[nak, driverFault], .error (.fault .paramOverflow)⟩

/-- An exchange with the chip or with the host. -/
def outward : Exchange Reply → Bool
  | ⟨.chip _, _⟩ | ⟨.send _, _⟩ => true
  | ⟨.poll, _⟩ => false

/-- A run before a queue that does the same as another run, and leaves the queue alone. -/
structure Unqueued (queue : Queue) (run other : Run Reply (Queue × σ) α) : Prop where
  result : run.result = other.result
  exchanges : run.exchanges = other.exchanges
  state : run.state = (queue, other.state.2)

/-- The queue makes no difference to a program that does not poll. -/
theorem Unpolled.unqueued {program : Program Reply α} (unpolled : Unpolled program)
    (world : World σ) (queue otherQueue : Queue) (state : σ) :
    Unqueued queue (program.run world.serve (queue, state))
      (program.run world.serve (otherQueue, state)) := by
  induction unpolled generalizing state with
  | done result => exact ⟨rfl, rfl, rfl⟩
  | chip call goesOn inductionHypothesis =>
    obtain ⟨result, exchanges, left⟩ :=
      inductionHypothesis (world.chip call state).1 (world.chip call state).2
    exact ⟨result, congrArg (_ :: ·) exchanges, left⟩
  | send byte goesOn inductionHypothesis =>
    obtain ⟨result, exchanges, left⟩ :=
      inductionHypothesis (world.link byte state).1 (world.link byte state).2
    exact ⟨result, congrArg (_ :: ·) exchanges, left⟩

end Bridge

/-! ## What events come to -/

namespace Event

/-- The places that an event appends to the receive queue. -/
def pushed : Event → Queue
  | .push places => places
  | _ => []

/-- The places that an event takes from the queue it meets. A tick takes the first one. -/
def taken : Event → Queue → Queue
  | .tick, queue => queue.take 1
  | _, _ => []

/-- The queue after an event. -/
def left : Event → Queue → Queue
  | .tick, queue => queue.drop 1
  | .push places, queue => queue ++ places
  | _, queue => queue

/-- The event looks at the queue. -/
def polls : Event → Bool
  | .tick => true
  | _ => false

/-- An event loses no place and doubles none. -/
theorem taken_left (event : Event) (queue : Queue) :
    event.taken queue ++ event.left queue = queue ++ event.pushed := by
  cases event with
  | tick =>
    show queue.take 1 ++ queue.drop 1 = queue ++ []
    rw [List.take_append_drop, List.append_nil]
  | push places => rfl
  | byte value | restart operations => exact (List.append_nil queue).symm

/-- An event takes at most one place. -/
theorem length_taken_le (event : Event) (queue : Queue) : (event.taken queue).length ≤ 1 := by
  cases event with
  | tick =>
    rw [taken, List.length_take]
    exact Nat.min_le_left _ _
  | push places | byte value | restart operations => exact Nat.zero_le 1

/-- The event without a poll: a byte that a tick takes is processed directly, and a tick that
finds no byte is dropped. -/
def direct? : Event → Queue → Option Event
  | .tick, some value :: _ => some (.byte value)
  | .tick, _ => none
  | event, _ => some event

/-- What an event asks of the bridge. Nothing is asked by an arrival, or by a tick that finds no
byte. -/
def deed? : Event → Queue → Option Event
  | .push _, _ => none
  | event, queue => event.direct? queue

end Event

/-- What a scenario asks of the bridge before a queue. -/
def deeds : Queue → List Event → List Event
  | _, [] => []
  | queue, event :: later =>
    (event.deed? queue).toList ++ deeds (event.left queue) later

/-- The queue after events. -/
def leftAll (queue : Queue) (events : List Event) : Queue :=
  events.foldl (fun waiting event => event.left waiting) queue

/-- Deeds come one after the other, and so does what is left of the queue. -/
theorem deeds_append (queue : Queue) (first later : List Event) :
    deeds queue (first ++ later) = deeds queue first ++ deeds (leftAll queue first) later ∧
      leftAll queue (first ++ later) = leftAll (leftAll queue first) later := by
  refine ⟨?_, List.foldl_append⟩
  induction first generalizing queue with
  | nil => rfl
  | cons event rest inductionHypothesis =>
    rw [List.cons_append, deeds, deeds, inductionHypothesis, List.append_assoc]
    rfl

/-- Where the polls do not get past the places ahead, what is behind them makes no difference. -/
theorem deeds_ahead (ahead behind : Queue) (events : List Event)
    (few : events.countP Event.polls ≤ ahead.length) :
    deeds (ahead ++ behind) events = deeds ahead events ∧
      leftAll (ahead ++ behind) events =
        ahead.drop (events.countP Event.polls) ++ (behind ++ events.flatMap Event.pushed) := by
  induction events generalizing ahead behind with
  | nil => exact ⟨rfl, congrArg (ahead ++ ·) (List.append_nil behind).symm⟩
  | cons event rest inductionHypothesis =>
    cases event with
    | tick =>
      rw [List.countP_cons_of_pos rfl] at few ⊢
      cases ahead with
      | nil => cases few
      | cons place ahead =>
        obtain ⟨same, left⟩ := inductionHypothesis ahead behind (Nat.le_of_succ_le_succ few)
        refine ⟨?_, left⟩
        cases place with
        | none => exact same
        | some byte => exact congrArg (Event.byte byte :: ·) same
    | push places =>
      -- What arrives is behind, whether or not there is something behind already.
      obtain ⟨same, left⟩ := inductionHypothesis ahead (behind ++ places) few
      obtain ⟨alone, -⟩ := inductionHypothesis ahead places few
      rw [← List.append_assoc] at same left
      rw [List.append_assoc behind] at left
      exact ⟨same.trans alone.symm, left⟩
    | byte value | restart operations =>
      obtain ⟨same, left⟩ := inductionHypothesis ahead behind few
      exact ⟨congrArg (_ :: ·) same, left⟩

/-- One step more in a scenario: a tick that finds the queue empty, or an empty place somewhere in
a push, with the tick that takes it when the places before it are gone. No tick comes with a place
that the scenario does not get to. -/
inductive Inserted (queue : Queue) : List Event → List Event → Prop where
  | tick (first later : List Event) (empty : leftAll queue first = []) :
      Inserted queue (first ++ later) (first ++ .tick :: later)
  | blank (before first later : List Event) (ahead behind : Queue)
      (due : first.countP Event.polls = (leftAll queue before ++ ahead).length) :
      Inserted queue (before ++ .push (ahead ++ behind) :: (first ++ later))
        (before ++ .push (ahead ++ none :: behind) :: (first ++ .tick :: later))
  | unreached (before later : List Event) (ahead behind : Queue)
      (few : later.countP Event.polls ≤ (leftAll queue before ++ ahead).length) :
      Inserted queue (before ++ .push (ahead ++ behind) :: later)
        (before ++ .push (ahead ++ none :: behind) :: later)

/-- A scenario and one with more steps have the same deeds, and the same bytes are left waiting. -/
theorem Inserted.same {queue : Queue} {events others : List Event}
    (inserted : Inserted queue events others) :
    deeds queue others = deeds queue events ∧
      (leftAll queue others).reduceOption = (leftAll queue events).reduceOption := by
  have pushing (before later : List Event) (places : Queue) :
      deeds queue (before ++ .push places :: later) =
          deeds queue before ++ deeds (leftAll queue before ++ places) later ∧
        leftAll queue (before ++ .push places :: later) =
          leftAll (leftAll queue before ++ places) later :=
    deeds_append queue before (.push places :: later)
  cases inserted with
  | tick first later empty =>
    obtain ⟨more, moreLeft⟩ := deeds_append queue first (.tick :: later)
    obtain ⟨plain, plainLeft⟩ := deeds_append queue first later
    rw [more, moreLeft, plain, plainLeft, empty]
    exact ⟨rfl, rfl⟩
  | blank before first later ahead behind due =>
    rw [(pushing _ _ _).1, (pushing _ _ _).2, (pushing _ _ _).1, (pushing _ _ _).2]
    rw [← List.append_assoc, ← List.append_assoc]
    -- Up to the tick the two are in step, and there the empty place is at the front.
    have upTo (rest : Queue) :=
      deeds_ahead (leftAll queue before ++ ahead) rest first (Nat.le_of_eq due)
    have gone : (leftAll queue before ++ ahead).drop (first.countP Event.polls) = [] :=
      List.drop_eq_nil_of_le (Nat.le_of_eq due.symm)
    simp only [deeds_append _ first, upTo, gone, List.nil_append]
    exact ⟨rfl, rfl⟩
  | unreached before later ahead behind few =>
    rw [(pushing _ _ _).1, (pushing _ _ _).2, (pushing _ _ _).1, (pushing _ _ _).2]
    rw [← List.append_assoc, ← List.append_assoc]
    simp only [deeds_ahead (leftAll queue before ++ ahead) _ later few, List.reduceOption_append,
      List.cons_append, List.reduceOption_cons_of_none, and_self]

/-- Any number of steps more. -/
theorem Inserted.chain {queue : Queue} {events others : List Event}
    (inserted : Relation.ReflTransGen (Inserted queue) events others) :
    deeds queue others = deeds queue events ∧
      (leftAll queue others).reduceOption = (leftAll queue events).reduceOption := by
  induction inserted with
  | refl => exact ⟨rfl, rfl⟩
  | tail _ one inductionHypothesis =>
    obtain ⟨same, waiting⟩ := inductionHypothesis
    exact ⟨one.same.1.trans same, one.same.2.trans waiting⟩

/-- A record without what it says about the receive queue. -/
def Record.unqueued : Record → Record
  | .bridge record =>
    .bridge { record with exchanges := record.exchanges.filter Bridge.outward, queued := 0 }
  | .restart records => .restart records

variable {σ : Type}

/-- One event of a scenario: the scene it met, what it showed, and the scene it left. -/
structure Moment (σ : Type) where
  before : Scene σ
  event : Event
  record : Record
  after : Scene σ

namespace Moment

/-- The places taken from the queue. -/
def taken (moment : Moment σ) : Queue := moment.event.taken moment.before.queue

def direct? (moment : Moment σ) : Option Event := moment.event.direct? moment.before.queue

def deed? (moment : Moment σ) : Option Event := moment.event.deed? moment.before.queue

/-- Chip and host saw nothing, and nothing but the queue has changed. -/
structure Idle (moment : Moment σ) : Prop where
  record : moment.record.unqueued = .bridge ⟨.ok (), [], moment.before.session, 0⟩
  session : moment.after.session = moment.before.session
  state : moment.after.state = moment.before.state

end Moment

/-- What is shown where something is asked of the bridge. -/
def shown (run : List (Moment σ)) : List Record :=
  run.filterMap fun moment => moment.deed?.map fun _ => moment.record.unqueued

namespace Scene

/-- The events of a scenario one by one. -/
def moments (world : World σ) : List Event → Scene σ → List (Moment σ)
  | [], _ => []
  | event :: later, scene =>
    let (record, after) := scene.happen world event
    ⟨scene, event, record, after⟩ :: after.moments world later

/-- Two scenes that differ at most in their queues. -/
structure Beside (scene other : Scene σ) : Prop where
  session : scene.session = other.session
  state : scene.state = other.state

/-- A scene differs from itself in nothing. -/
theorem Beside.refl (scene : Scene σ) : Beside scene scene := ⟨rfl, rfl⟩

/-! ## One event -/

/-- Apart from the queue, which it leaves alone, a byte comes to the same before any queue. -/
theorem happen_byte_beside (world : World σ) (byte : UInt8) {scene other : Scene σ}
    (beside : Beside scene other) :
    (scene.happen world (.byte byte)).1.unqueued = (other.happen world (.byte byte)).1.unqueued ∧
      Beside (scene.happen world (.byte byte)).2 (other.happen world (.byte byte)).2 ∧
      (scene.happen world (.byte byte)).2.queue = scene.queue := by
  obtain ⟨session, queue, state⟩ := scene
  obtain ⟨_, otherQueue, _⟩ := other
  obtain ⟨rfl, rfl⟩ := beside
  obtain ⟨result, exchanges, left⟩ :=
    (Bridge.unpolled_react (session.accept byte).1).unqueued world queue otherQueue state
  simp only [Bridge.happen_byte]
  refine ⟨?_, ⟨rfl, ?_⟩, ?_⟩
  · simp only [Record.unqueued, result, exchanges]
  · simp only [left]
  · simp only [left]

/-- A tick that finds a byte takes it and processes it. -/
theorem happen_tick_byte (world : World σ) (byte : UInt8) (session : Bridge.Connection)
    (rest : Queue) (state : σ) :
    let ticked := (⟨session, some byte :: rest, state⟩ : Scene σ).happen world .tick
    let processed := (⟨session, rest, state⟩ : Scene σ).happen world (.byte byte)
    ticked.1.unqueued = processed.1.unqueued ∧ ticked.2 = processed.2 := ⟨rfl, rfl⟩

/-- The queue after an event does not depend on how the event went. -/
theorem queue_happen (world : World σ) (event : Event) (scene : Scene σ) :
    (scene.happen world event).2.queue = event.left scene.queue := by
  obtain ⟨session, queue, state⟩ := scene
  cases event with
  | push places | restart operations => rfl
  | byte byte => exact (happen_byte_beside world byte (.refl _)).2.2
  | tick =>
    match queue with
    | [] | none :: rest => rfl
    | some byte :: rest =>
      rw [(happen_tick_byte world byte session rest state).2]
      exact (happen_byte_beside world byte (.refl _)).2.2

/-- What asks nothing of the bridge is not noticed by anyone. -/
theorem happen_idle (world : World σ) {event : Event} {scene : Scene σ}
    (idle : event.deed? scene.queue = none) :
    (⟨scene, event, (scene.happen world event).1, (scene.happen world event).2⟩ :
      Moment σ).Idle := by
  obtain ⟨session, queue, state⟩ := scene
  cases event with
  | push places => exact ⟨rfl, rfl, rfl⟩
  | byte byte | restart operations => cases idle
  | tick =>
    match queue, idle with
    | [], _ | none :: rest, _ => exact ⟨rfl, rfl, rfl⟩

/-! ## Events in order -/

/-- The moments of a scenario are its events and its records, each from the scene it met. -/
theorem moments_play (world : World σ) (events : List Event) (scene : Scene σ) :
    (scene.moments world events).map Moment.event = events ∧
      (scene.moments world events).map Moment.record = (scene.play world events).1 ∧
      ∀ moment ∈ scene.moments world events,
        (moment.record, moment.after) = moment.before.happen world moment.event := by
  induction events generalizing scene with
  | nil => exact ⟨rfl, rfl, by simp [moments]⟩
  | cons event later inductionHypothesis =>
    obtain ⟨events, records, happened⟩ := inductionHypothesis (scene.happen world event).2
    refine ⟨congrArg (event :: ·) events, congrArg (_ :: ·) records, ?_⟩
    exact List.forall_mem_cons.mpr ⟨rfl, happened⟩

/-- What is taken, and then what is left, is what was there and what arrived. -/
theorem taken_moments (world : World σ) (events : List Event) (scene : Scene σ) :
    (scene.moments world events).flatMap Moment.taken ++ (scene.play world events).2.queue =
      scene.queue ++ events.flatMap Event.pushed := by
  induction events generalizing scene with
  | nil => exact (List.append_nil _).symm
  | cons event later inductionHypothesis =>
    have rest := inductionHypothesis (scene.happen world event).2
    rw [queue_happen] at rest
    rw [moments, play, List.flatMap_cons, List.flatMap_cons]
    rw [List.append_assoc, rest, ← List.append_assoc, ← List.append_assoc]
    exact congrArg (· ++ _) (event.taken_left scene.queue)

/-- The queue after a scenario can be told from its events alone. -/
theorem queue_play (world : World σ) (events : List Event) (scene : Scene σ) :
    (scene.play world events).2.queue = leftAll scene.queue events := by
  induction events generalizing scene with
  | nil => rfl
  | cons event later inductionHypothesis =>
    exact (inductionHypothesis _).trans
      (congrArg (leftAll · later) (queue_happen world event scene))

/-- So can what is asked of the bridge, event by event. The induction follows the queue, which
each event leaves as `queue_happen` says. -/
theorem deeds_moments (world : World σ) (events : List Event) (scene : Scene σ) :
    (scene.moments world events).filterMap Moment.deed? = deeds scene.queue events := by
  induction events generalizing scene with
  | nil => rfl
  | cons event later inductionHypothesis =>
    have rest := inductionHypothesis (scene.happen world event).2
    rw [queue_happen] at rest
    rw [moments, deeds, List.filterMap_cons, rest, Moment.deed?]
    cases event.deed? scene.queue <;> rfl

/-- Events may be replaced as the reading says: apart from the queue, what it puts in the place of
an event comes to the same, and what it drops changes nothing. -/
def Reads (world : World σ) (read : Event → Queue → Option Event) : Prop :=
  ∀ (event : Event) (scene other : Scene σ), Beside scene other →
    match read event scene.queue with
    | some instead =>
      (scene.happen world event).1.unqueued = (other.happen world instead).1.unqueued ∧
        Beside (scene.happen world event).2 (other.happen world instead).2
    | none => Beside (scene.happen world event).2 other

/-- A byte may be processed directly where a tick takes it, and a tick that finds none may be
dropped. -/
theorem reads_direct (world : World σ) : Reads world Event.direct? := by
  rintro event ⟨session, queue, state⟩ other beside
  cases event with
  | push places | restart operations =>
    obtain ⟨_, otherQueue, _⟩ := other
    obtain ⟨rfl, rfl⟩ := beside
    exact ⟨rfl, rfl, rfl⟩
  | byte byte =>
    obtain ⟨processed, left, -⟩ := happen_byte_beside world byte beside
    exact ⟨processed, left⟩
  | tick =>
    match queue with
    | [] | none :: rest => exact ⟨beside.session, beside.state⟩
    | some byte :: rest =>
      obtain ⟨record, after⟩ := happen_tick_byte world byte session rest state
      have next : Beside (⟨session, rest, state⟩ : Scene σ) other := ⟨beside.session, beside.state⟩
      obtain ⟨processed, left, -⟩ := happen_byte_beside world byte next
      exact ⟨record.trans processed, after ▸ left⟩

/-- A push may be dropped as well, since all that it changes is the queue. -/
theorem reads_deed (world : World σ) : Reads world Event.deed? := by
  intro event scene other beside
  cases event with
  | push places => exact ⟨beside.session, beside.state⟩
  | tick => exact reads_direct world .tick scene other beside
  | byte byte => exact reads_direct world (.byte byte) scene other beside
  | restart operations => exact reads_direct world (.restart operations) scene other beside

/-- A scenario shows the same, event by event, when all its events are replaced. -/
theorem Reads.play {world : World σ} {read : Event → Queue → Option Event}
    (reads : Reads world read) (events : List Event) {scene other : Scene σ}
    (beside : Beside scene other) :
    let run := scene.moments world events
    let instead := other.play world
      (run.filterMap fun moment => read moment.event moment.before.queue)
    (run.filterMap fun moment =>
        (read moment.event moment.before.queue).map fun _ => moment.record.unqueued) =
      instead.1.map Record.unqueued ∧
      Beside (scene.play world events).2 instead.2 := by
  induction events generalizing scene other with
  | nil => exact ⟨rfl, beside⟩
  | cons event later inductionHypothesis =>
    have step := reads event scene other beside
    simp only [moments, Scene.play, List.filterMap_cons]
    cases replaced : read event scene.queue with
    | none =>
      rw [replaced] at step
      exact inductionHypothesis step
    | some instead =>
      rw [replaced] at step
      obtain ⟨record, next⟩ := step
      obtain ⟨records, final⟩ := inductionHypothesis next
      refine ⟨?_, final⟩
      simp only [Option.map_some, Scene.play, List.map_cons, record, records]

/-- What a scenario shows, and the session and the state it leaves, are those of its deeds. -/
theorem shown_moments (world : World σ) (events : List Event) {scene other : Scene σ}
    (beside : Beside scene other) :
    let alone := other.play world (deeds scene.queue events)
    shown (scene.moments world events) = alone.1.map Record.unqueued ∧
      Beside (scene.play world events).2 alone.2 := by
  rw [← deeds_moments world events scene]
  exact (reads_deed world).play events beside

/-- Ticks take the places of the queue in order, at most one each, and lose none, whatever the
reports are. A scenario shows the same as the one in which every byte that a tick took is processed
directly and every tick that found no byte is dropped. It therefore shows the same as every
scenario with the same deeds, and in particular as itself with more empty places and ticks.

Proof: the moments of a scenario tell at each event what it took of the queue. A tick that took a
byte does what that byte does when it is sent, so both scenarios are played side by side. -/
theorem ticks_deliver (world : World σ) (session : Bridge.Connection) (queue : Queue) (state : σ)
    (events : List Event) :
    let start : Scene σ := ⟨session, queue, state⟩
    let run := start.moments world events
    let final := (start.play world events).2
    let direct := start.play world (run.filterMap Moment.direct?)
    (run.map Moment.event = events ∧ run.map Moment.record = (start.play world events).1) ∧
    (∀ moment ∈ run, moment.taken.length ≤ 1 ∧
      moment.before.queue ++ moment.event.pushed = moment.taken ++ moment.after.queue) ∧
    run.flatMap Moment.taken ++ final.queue = queue ++ events.flatMap Event.pushed ∧
    ((run.filterMap fun moment => moment.direct?.map fun _ => moment.record.unqueued) =
      direct.1.map Record.unqueued ∧ Beside final direct.2) ∧
    (∀ moment ∈ run, moment.deed? = none → moment.Idle) ∧
    (∀ (otherQueue : Queue) (others : List Event), deeds otherQueue others = deeds queue events →
      let other : Scene σ := ⟨session, otherQueue, state⟩
      shown (other.moments world others) = shown run ∧
        Beside (other.play world others).2 final) ∧
    ∀ others, Relation.ReflTransGen (Inserted queue) events others →
      shown (start.moments world others) = shown run ∧
        Beside (start.play world others).2 final ∧
        (start.play world others).2.queue.reduceOption = final.queue.reduceOption := by
  intro start run final direct
  obtain ⟨sameEvents, records, happened⟩ := moments_play world events start
  have sameDeeds (otherQueue : Queue) (others : List Event)
      (same : deeds otherQueue others = deeds queue events) :
      shown ((⟨session, otherQueue, state⟩ : Scene σ).moments world others) = shown run ∧
        Beside ((⟨session, otherQueue, state⟩ : Scene σ).play world others).2 final := by
    obtain ⟨shows, left⟩ := shown_moments world events (.refl start)
    obtain ⟨otherShows, otherLeft⟩ :=
      shown_moments world others (⟨rfl, rfl⟩ : Beside ⟨session, otherQueue, state⟩ start)
    rw [same] at otherShows otherLeft
    exact ⟨otherShows.trans shows.symm, otherLeft.session.trans left.session.symm,
      otherLeft.state.trans left.state.symm⟩
  refine ⟨⟨sameEvents, records⟩, ?places, taken_moments world events start,
    (reads_direct world).play events (.refl start), ?idle, sameDeeds, ?more⟩
  case places =>
    intro moment member
    have after : moment.after = (moment.before.happen world moment.event).2 :=
      congrArg Prod.snd (happened moment member)
    refine ⟨moment.event.length_taken_le _, ?_⟩
    rw [after, queue_happen]
    exact (moment.event.taken_left _).symm
  case idle =>
    intro moment member idle
    have quiet := happen_idle world idle
    rw [← happened moment member] at quiet
    exact quiet
  case more =>
    intro others inserted
    obtain ⟨same, waiting⟩ := Inserted.chain inserted
    obtain ⟨shows, left⟩ := sameDeeds queue others same
    refine ⟨shows, left, ?_⟩
    rw [queue_play, queue_play]
    exact waiting

/-- A write whose transaction fails, received in one go and with gaps: before it, and between its
first byte and its second. -/
theorem ticks_deliver_gaps :
    let world := Bench.world { Plan.smooth with busFails := fun position => position == 0 }
    let start : Scene Bench := .start (.ofMemory .blank)
    let events : List Event := [.push [some 0x01, some 0x28, some 0x8E], .tick, .tick, .tick]
    let others : List Event :=
      [.tick, .push [some 0x01, none, some 0x28, some 0x8E], .tick, .tick, .tick, .tick]
    shown (start.moments world others) = shown (start.moments world events) ∧
      Beside (start.play world others).2 (start.play world events).2 := by
  intro world start events others
  obtain ⟨-, -, -, -, -, -, more⟩ :=
    ticks_deliver world Session.fresh [] (Bench.ofMemory .blank) events
  have between : Inserted [] events others.tail :=
    .blank [] [.tick] [.tick, .tick] [some 0x01] [some 0x28, some 0x8E] rfl
  have sooner : Inserted [] others.tail others := .tick [] others.tail rfl
  obtain ⟨shows, beside, -⟩ := more others ((Relation.ReflTransGen.single between).tail sooner)
  exact ⟨shows, beside⟩

end Scene

end NfcFrontend.Host
