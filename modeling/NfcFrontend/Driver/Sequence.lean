import NfcFrontend.Driver.Operation

/-!
# Sequences of driver operations

Operations run one after the other against the same chip. Each starts from the
state the one before it left, whether that one ended with an answer or stopped, and
each leaves a record of its outcome and its exchanges.
-/

namespace NfcFrontend.Driver

/-- What one operation showed. -/
structure Record where
  outcome : Outcome
  exchanges : List (Exchange Chip.Reply)

variable {σ : Type}

/-- Run one operation. -/
def operate (chip : Server Chip.Reply σ) (operation : Op) (state : σ) : Record × σ :=
  let run := operation.program.run chip state
  (⟨run.result, run.exchanges⟩, run.state)

/-- Run operations in order. -/
def operateAll (chip : Server Chip.Reply σ) : List Op → σ → List Record × σ
  | [], state => ([], state)
  | operation :: rest, state =>
    let (record, after) := operate chip operation state
    let (records, final) := operateAll chip rest after
    (record :: records, final)

/-- A sequence of two parts runs the second where the first ends. -/
theorem operateAll_append (chip : Server Chip.Reply σ) (first second : List Op) (state : σ) :
    operateAll chip (first ++ second) state =
      let (records, between) := operateAll chip first state
      let (others, final) := operateAll chip second between
      (records ++ others, final) := by
  induction first generalizing state with
  | nil => rfl
  | cons operation rest inductionHypothesis =>
    simp only [List.cons_append, operateAll, inductionHypothesis]

/-- Each operation leaves one record. -/
theorem length_operateAll (chip : Server Chip.Reply σ) (operations : List Op) (state : σ) :
    (operateAll chip operations state).1.length = operations.length := by
  induction operations generalizing state with
  | nil => rfl
  | cons operation rest inductionHypothesis =>
    exact congrArg (· + 1) (inductionHypothesis (operate chip operation state).2)

end NfcFrontend.Driver
