import Mathlib.Data.List.Forall2
import NfcFrontend.Proofs.Cut
import NfcFrontend.Proofs.SceneTraffic

/-!
# Only the host's bytes decide the framing

A bridge takes the bytes of a host in turns, one byte in each. A turn is the last one of a request,
which is then carried out, or the chip is not asked anything. Which of the two it is, and for which
request, must not depend on what the chip has answered so far: a host that is told of a failure has
to know where its next request begins.

`Handled` says what a turn comes to. A request takes the bytes of its encoding and leaves a fresh
session, however it ends. Two bridges that are sent the same bytes therefore stay in step, whatever
their chips and their links do.
-/

namespace NfcFrontend.Host

/-- No request is a byte that names no opcode. -/
theorem Request.encode_ne_of_foreign {byte : UInt8}
    (foreign : (Coded.ofByte? byte : Option Opcode) = none) (request : Request) :
    request.encode ≠ [byte] := by
  intro whole
  have coded : request.opcode.code = byte := (List.cons.inj whole).1
  exact Coded.ofByte?_eq_none_iff.mp foreign request.opcode coded

variable {σ τ : Type}

/-- One byte at a bridge: the scene it met, what it showed, and the scene it left. -/
structure Turn (σ : Type) where
  before : Scene σ
  byte : UInt8
  record : Record
  after : Scene σ

namespace Scene

/-- The turns of bytes processed one after the other. -/
def turns (world : World σ) : List UInt8 → Scene σ → List (Turn σ)
  | [], _ => []
  | byte :: rest, scene =>
    let (record, after) := scene.happen world (.byte byte)
    ⟨scene, byte, record, after⟩ :: after.turns world rest

/-- They are the scenario of the bytes, turn by turn. -/
theorem turns_play (world : World σ) (bytes : List UInt8) (scene : Scene σ) :
    (scene.turns world bytes).map Turn.byte = bytes ∧
      (scene.turns world bytes).map Turn.record =
        (scene.play world (bytes.map Event.byte)).1 := by
  induction bytes generalizing scene with
  | nil => exact ⟨rfl, rfl⟩
  | cons byte rest inductionHypothesis =>
    obtain ⟨same, records⟩ := inductionHypothesis (scene.happen world (.byte byte)).2
    exact ⟨congrArg (byte :: ·) same, congrArg (_ :: ·) records⟩

/-- The record and the scene that a request leaves when it is carried out. -/
def carryOut (world : World σ) (request : Request) (scene : Scene σ) : Record × Scene σ :=
  let run := (Bridge.execute request).run world.serve (scene.queue, scene.state)
  let (queue, state) := run.state
  (.bridge ⟨run.result, run.exchanges, Session.fresh, queue.length⟩, ⟨Session.fresh, queue, state⟩)

end Scene

namespace Turn

/-- What a turn comes to: the request that was carried out, if one was. -/
inductive Handled (world : World σ) (turn : Turn σ) : Option Request → Prop where
  /-- The byte is the last one of the request. Nothing of it stays behind, whether or not the
  chip has answered. -/
  | executed (request : Request)
      (whole : request.encode = turn.before.session.pending ++ [turn.byte])
      (ran : (turn.record, turn.after) = turn.before.carryOut world request) :
      Handled world turn (some request)
  /-- The byte completes no request. -/
  | idle (unfinished : ∀ request : Request,
        request.encode ≠ turn.before.session.pending ++ [turn.byte])
      (quiet : turn.record.chipTraffic = []) :
      Handled world turn none

/-- Two turns with the same byte that leave the same session and carry out the same request,
or none. -/
structure InStep (left : World σ) (right : World τ) (turn : Turn σ) (other : Turn τ) : Prop where
  byte : turn.byte = other.byte
  session : turn.after.session = other.after.session
  request : ∃ request, turn.Handled left request ∧ other.Handled right request

end Turn

namespace Scene

/-- What a byte comes to is decided by the session that it meets. -/
theorem happen_handled (session : Bridge.Connection) (sound : session.Sound) (byte : UInt8) :
    ∃ request : Option Request, ∀ (σ : Type) (world : World σ) (scene : Scene σ),
      scene.session = session →
        let happened := scene.happen world (.byte byte)
        (⟨scene, byte, happened.1, happened.2⟩ : Turn σ).Handled world request := by
  obtain ⟨step, after, accepted, moved⟩ := session.accept_accepted sound byte
  have fits : step ≠ .overflow := moved.not_overflow (by decide)
  cases step with
  | overflow => exact absurd rfl fits
  | pending =>
    have kept : session.pending ++ [byte] = after.pending := moved.conserves fits
    refine ⟨none, ?_⟩
    rintro σ world scene rfl happened
    refine .idle ?_ ?_
    · intro request whole
      refine not_whole_of_cut ?_ request.whole_encode
      rw [whole, kept, after.cut_pending moved.sound]
    · simp only [happened, Bridge.happen_byte, accepted]
      rfl
  | unknown other =>
    cases moved with
    | stray foreign =>
      refine ⟨none, ?_⟩
      rintro σ world scene met happened
      refine .idle ?_ ?_
      · rw [met]
        exact Request.encode_ne_of_foreign foreign
      · obtain ⟨sends, left, ran, quiet, -⟩ :=
          Bridge.run_announce world ⟨[nak, unknownCommand], .ok ()⟩ scene.queue scene.state
        simp only [happened, Bridge.happen_byte, met, accepted, Bridge.react_unknown, ran]
        exact quiet
  | ready request =>
    cases moved with
    | completed _ _ whole =>
      refine ⟨some request, ?_⟩
      rintro σ world scene rfl happened
      refine .executed request whole ?_
      simp only [happened, Bridge.happen_byte, accepted]
      rfl

/-- From equal sessions two bridges stay in step over any bytes. -/
theorem turns_inStep (left : World σ) (right : World τ) (bytes : List UInt8) {scene : Scene σ}
    {other : Scene τ} (same : scene.session = other.session) (sound : scene.session.Sound) :
    List.Forall₂ (Turn.InStep left right) (scene.turns left bytes) (other.turns right bytes) := by
  induction bytes generalizing scene other with
  | nil => exact .nil
  | cons byte rest inductionHypothesis =>
    obtain ⟨request, handled⟩ := happen_handled scene.session sound byte
    have next : (scene.happen left (.byte byte)).2.session =
        (other.happen right (.byte byte)).2.session := by
      rw [Bridge.happen_byte, Bridge.happen_byte, same]
    have still : (scene.happen left (.byte byte)).2.session.Sound := by
      rw [Bridge.happen_byte]
      exact Session.sound_feed scene.session sound [byte]
    exact .cons ⟨rfl, next, request, handled σ left scene rfl, handled τ right other same.symm⟩
      (inductionHypothesis next still)

/-- Two new bridges that are sent the same bytes are in step after each of them, before whatever
chips and links: they have the same session, and they have carried out the same request or none.

Proof: what a session does with a byte depends on the session and the byte alone, and however the
work on a request ends, the session is fresh again. -/
theorem framing_by_bytes (left : World σ) (right : World τ) (queue otherQueue : Queue) (state : σ)
    (otherState : τ) (bytes : List UInt8) :
    let start : Scene σ := ⟨Session.fresh, queue, state⟩
    let other : Scene τ := ⟨Session.fresh, otherQueue, otherState⟩
    let run := start.turns left bytes
    let beside := other.turns right bytes
    (run.map Turn.byte = bytes ∧
      run.map Turn.record = (start.play left (bytes.map Event.byte)).1) ∧
    (beside.map Turn.byte = bytes ∧
      beside.map Turn.record = (other.play right (bytes.map Event.byte)).1) ∧
    List.Forall₂ (Turn.InStep left right) run beside := by
  intro start other run beside
  exact ⟨turns_play left bytes start, turns_play right bytes other,
    turns_inStep left right bytes rfl Session.sound_fresh⟩

end Scene

end NfcFrontend.Host
