import NfcFrontend.Host.Scenario

/-!
# Worlds that cannot be told apart

Two servers match when they answer every call alike from related states, and leave
related states behind. No program can tell matching servers apart: it gets the same
result by the same exchanges. The law is lifted from programs to sequences of driver
operations and to scenarios, so a world may be replaced by a simpler one for as long as
the relation holds at the start.
-/

namespace NfcFrontend

namespace Program

variable {Call : Type} {Reply : Call → Type} {σ τ α : Type} {related : σ → τ → Prop}
  {left : Server Reply σ} {right : Server Reply τ}

/-- Related states give equal replies and stay related. -/
def Matching (left : Server Reply σ) (right : Server Reply τ) (related : σ → τ → Prop) : Prop :=
  ∀ call state other, related state other →
    (left call state).1 = (right call other).1 ∧ related (left call state).2 (right call other).2

/-- Two runs show the same and leave related states. -/
structure Alike (related : σ → τ → Prop) (run : Run Reply σ α) (other : Run Reply τ α) : Prop where
  result : run.result = other.result
  exchanges : run.exchanges = other.exchanges
  state : related run.state other.state

/-- A program runs alike on matching servers. -/
theorem Matching.run_alike (matching : Matching left right related) (program : Program Reply α)
    {state : σ} {other : τ} (start : related state other) :
    Alike related (program.run left state) (program.run right other) := by
  induction program generalizing state other with
  | done result => exact ⟨rfl, rfl, start⟩
  | ask call next inductionHypothesis =>
    obtain ⟨answered, kept⟩ := matching call state other start
    rw [run_ask, run_ask, answered]
    have later := inductionHypothesis (right call other).1 kept
    exact ⟨later.result, congrArg (⟨call, (right call other).1⟩ :: ·) later.exchanges, later.state⟩

end Program

/-- Matching chips leave the same records of a sequence of operations. -/
theorem Driver.operateAll_alike {σ τ : Type} {related : σ → τ → Prop}
    {left : Server Chip.Reply σ} {right : Server Chip.Reply τ}
    (matching : Program.Matching left right related) (operations : List Op) {state : σ} {other : τ}
    (start : related state other) :
    (operateAll left operations state).1 = (operateAll right operations other).1 ∧
      related (operateAll left operations state).2 (operateAll right operations other).2 := by
  induction operations generalizing state other with
  | nil => exact ⟨rfl, start⟩
  | cons operation rest inductionHypothesis =>
    have first := matching.run_alike operation.program start
    obtain ⟨records, final⟩ := inductionHypothesis first.state
    refine ⟨?_, final⟩
    simp only [operateAll, operate, first.result, first.exchanges, records]

namespace Host

variable {σ τ : Type} {related : σ → τ → Prop} {left : World σ} {right : World τ}

/-- Two worlds whose chips match and whose links take the same bytes. -/
structure World.Matching (left : World σ) (right : World τ) (related : σ → τ → Prop) : Prop where
  chip : Program.Matching left.chip right.chip related
  link : ∀ byte state other, related state other →
    (left.link byte state).1 = (right.link byte other).1 ∧
      related (left.link byte state).2 (right.link byte other).2

/-- Equal receive queues before related states. -/
def World.Queued (related : σ → τ → Prop) (before : Queue × σ) (other : Queue × τ) : Prop :=
  before.1 = other.1 ∧ related before.2 other.2

/-- Worlds that match still do so behind equal receive queues. -/
theorem World.Matching.serve (matching : World.Matching left right related) :
    Program.Matching left.serve right.serve (World.Queued related) := by
  rintro call ⟨queue, state⟩ ⟨_, other⟩ ⟨rfl, start⟩
  cases call with
  | chip call =>
    obtain ⟨answered, kept⟩ := matching.chip call state other start
    exact ⟨answered, rfl, kept⟩
  | send byte =>
    obtain ⟨answered, kept⟩ := matching.link byte state other start
    exact ⟨answered, rfl, kept⟩
  | poll =>
    cases queue with
    | nil => exact ⟨rfl, rfl, start⟩
    | cons place rest => exact ⟨rfl, rfl, start⟩

namespace Scene

/-- Equal sessions and queues before related states. -/
structure Alike (related : σ → τ → Prop) (scene : Scene σ) (other : Scene τ) : Prop where
  session : scene.session = other.session
  queue : scene.queue = other.queue
  state : related scene.state other.state

/-- What the bridge is asked to do comes to the same in matching worlds. -/
theorem attend_alike (matching : World.Matching left right related) {scene : Scene σ}
    {other : Scene τ} (start : Alike related scene other)
    (program : Program Bridge.Reply (Bridge.Report × Bridge.Connection)) :
    (scene.attend left program).1 = (other.attend right program).1 ∧
      Alike related (scene.attend left program).2 (other.attend right program).2 := by
  have queued : World.Queued related (scene.queue, scene.state) (other.queue, other.state) :=
    ⟨start.queue, start.state⟩
  have run := matching.serve.run_alike program queued
  refine ⟨?_, congrArg Prod.snd run.result, run.state.1, run.state.2⟩
  simp only [attend, run.result, run.exchanges, run.state.1]

/-- An event leaves the same record in matching worlds. -/
theorem happen_alike (matching : World.Matching left right related) (event : Event)
    {scene : Scene σ} {other : Scene τ} (start : Alike related scene other) :
    (scene.happen left event).1 = (other.happen right event).1 ∧
      Alike related (scene.happen left event).2 (other.happen right event).2 := by
  cases event with
  | byte byte =>
    rw [happen, happen, start.session]
    exact attend_alike matching start _
  | tick =>
    rw [happen, happen, start.session]
    exact attend_alike matching start _
  | push places =>
    refine ⟨?_, start.session, congrArg (· ++ places) start.queue, start.state⟩
    simp only [happen, start.session, start.queue]
  | restart operations =>
    obtain ⟨records, final⟩ := Driver.operateAll_alike matching.chip operations start.state
    exact ⟨congrArg Record.restart records, rfl, start.queue, final⟩

/-- A scenario leaves the same records in matching worlds. -/
theorem play_alike (matching : World.Matching left right related) (events : List Event)
    {scene : Scene σ} {other : Scene τ} (start : Alike related scene other) :
    (scene.play left events).1 = (other.play right events).1 ∧
      Alike related (scene.play left events).2 (other.play right events).2 := by
  induction events generalizing scene other with
  | nil => exact ⟨rfl, start⟩
  | cons event rest inductionHypothesis =>
    obtain ⟨shown, between⟩ := happen_alike matching event start
    obtain ⟨later, final⟩ := inductionHypothesis between
    refine ⟨?_, final⟩
    simp only [play, shown, later]

end Scene

end Host

end NfcFrontend
