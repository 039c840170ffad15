import NfcFrontend.Driver.Sequence
import NfcFrontend.Host.Bridge

/-!
# Scenarios around a bridge

A bridge stands between a chip and a host link. A world answers for both: it serves
the chip's calls and says for each byte sent whether a host takes it. Bytes from the
host wait in a receive queue that only arrivals and polls touch.

A scenario is a list of events: a byte processed directly, a poll of the queue, an
arrival, or a restart. A restart drops the bridge together with its session, lets
the driver operate on its own, and leaves a fresh bridge before the same queue and
world. Each event leaves a record of what could be observed while it happened.
-/

namespace NfcFrontend.Host

variable {σ : Type}

/-- The chip and the host link around a bridge, sharing one state. -/
structure World (σ : Type) where
  chip : Server Chip.Reply σ
  /-- Whether a host takes the byte. -/
  link : UInt8 → σ → Bool × σ

/-- The bytes waiting for a poll. An empty place answers one poll with no byte. -/
abbrev Queue := List (Option UInt8)

/-- A world with a receive queue in front of it. -/
def World.serve (world : World σ) : Server Bridge.Reply (Queue × σ)
  | .chip call, (queue, state) =>
    let (reply, after) := world.chip call state
    (reply, (queue, after))
  | .send byte, (queue, state) =>
    let (taken, after) := world.link byte state
    (taken, (queue, after))
  | .poll, ([], state) => (none, ([], state))
  | .poll, (place :: rest, state) => (place, (rest, state))

/-- One event of a scenario. -/
inductive Event where
  /-- A byte is processed directly. -/
  | byte (byte : UInt8)
  /-- The receive queue is polled once. -/
  | tick
  /-- Places are appended to the receive queue. -/
  | push (places : Queue)
  /-- The bridge is replaced, with driver operations in between. -/
  | restart (operations : List Driver.Op)

/-- What one event at the bridge showed: the report, the traffic, and afterwards the
session and the number of places left in the receive queue. -/
structure BridgeRecord where
  report : Bridge.Report
  exchanges : List (Exchange Bridge.Reply)
  session : Bridge.Connection
  queued : Nat

/-- What one event showed. -/
inductive Record where
  | bridge (record : BridgeRecord)
  | restart (records : List Driver.Record)

/-- A bridge's session, the receive queue before it and the world around it. -/
structure Scene (σ : Type) where
  session : Bridge.Connection
  queue : Queue
  state : σ

namespace Scene

/-- A new bridge before an empty queue. -/
def start (state : σ) : Scene σ := ⟨Session.fresh, [], state⟩

/-- Run a bridge program and keep the session it returns. -/
def attend (world : World σ) (program : Program Bridge.Reply (Bridge.Report × Bridge.Connection))
    (scene : Scene σ) : Record × Scene σ :=
  let run := program.run world.serve (scene.queue, scene.state)
  let (report, session) := run.result
  let (queue, state) := run.state
  (.bridge ⟨report, run.exchanges, session, queue.length⟩, ⟨session, queue, state⟩)

/-- Let one event happen. -/
def happen (world : World σ) (event : Event) (scene : Scene σ) : Record × Scene σ :=
  match event with
  | .byte byte => scene.attend world (Bridge.process scene.session byte)
  | .tick => scene.attend world (Bridge.tick scene.session)
  | .push places =>
    let queue := scene.queue ++ places
    (.bridge ⟨.ok (), [], scene.session, queue.length⟩, { scene with queue := queue })
  | .restart operations =>
    let (records, state) := Driver.operateAll world.chip operations scene.state
    (.restart records, ⟨Session.fresh, scene.queue, state⟩)

/-- Let events happen one after the other. -/
def play (world : World σ) : List Event → Scene σ → List Record × Scene σ
  | [], scene => ([], scene)
  | event :: rest, scene =>
    let (record, after) := scene.happen world event
    let (records, final) := after.play world rest
    (record :: records, final)

/-- A scenario of two parts plays the second where the first ends. -/
theorem play_append (world : World σ) (first second : List Event) (scene : Scene σ) :
    scene.play world (first ++ second) =
      let (records, between) := scene.play world first
      let (others, final) := between.play world second
      (records ++ others, final) := by
  induction first generalizing scene with
  | nil => rfl
  | cons event rest inductionHypothesis =>
    simp only [List.cons_append, play, inductionHypothesis]

end Scene

end NfcFrontend.Host
