/-!
# Programs that talk to a device

A program is a finite tree: it is done with a result, or it makes a call and
continues with the reply. It says nothing about who answers. A server answers
calls one by one and keeps a state of its own; running a program against a server
gives the result, the exchanges in order, and the server's final state.

One tree serves every statement about the driver: "for any chip" quantifies over
servers, "makes no further transaction" speaks of the exchanges, and two servers
are compared on the same program. `run_bind` is the law behind all of them: a
sequence of programs runs the second where the first left the server.
-/

namespace NfcFrontend

/-- A finite tree of calls, each continued by its reply. -/
inductive Program {Call : Type} (Reply : Call → Type) (α : Type) : Type where
  | done (result : α)
  | ask (call : Call) (next : Reply call → Program Reply α)

/-- Answers one call at a time, whatever was called before, from a state. -/
abbrev Server {Call : Type} (Reply : Call → Type) (σ : Type) :=
  (call : Call) → σ → Reply call × σ

/-- A call together with the reply it got. -/
abbrev Exchange {Call : Type} (Reply : Call → Type) := (call : Call) × Reply call

/-- What is left of a program run: its result, everything that was exchanged, and
the state of the server. -/
structure Run {Call : Type} (Reply : Call → Type) (σ α : Type) where
  result : α
  exchanges : List (Exchange Reply)
  state : σ

namespace Program

variable {Call : Type} {Reply : Call → Type} {σ α β : Type}

/-- Continue with the second program where the first is done. -/
def bind : Program Reply α → (α → Program Reply β) → Program Reply β
  | .done result, continuation => continuation result
  | .ask call next, continuation => .ask call fun reply => (next reply).bind continuation

instance : Monad (Program Reply) where
  pure := .done
  bind := bind

/-- Run a program against a server. -/
def run (serve : Server Reply σ) : Program Reply α → σ → Run Reply σ α
  | .done result, state => ⟨result, [], state⟩
  | .ask call next, state =>
    let (reply, served) := serve call state
    let rest := (next reply).run serve served
    ⟨rest.result, ⟨call, reply⟩ :: rest.exchanges, rest.state⟩

/-- A program that is done hands its result on. -/
@[simp] theorem done_bind (result : α) (continuation : α → Program Reply β) :
    (Program.done result : Program Reply α) >>= continuation = continuation result := rfl

/-- Returning a value is being done with it. -/
@[simp] theorem pure_eq_done (result : α) : (pure result : Program Reply α) = .done result := rfl

/-- What follows a program follows each of its replies. -/
@[simp] theorem ask_bind (call : Call) (next : Reply call → Program Reply α)
    (continuation : α → Program Reply β) :
    Program.ask call next >>= continuation =
      .ask call (fun reply => next reply >>= continuation) := rfl

/-- Nothing is added by being done with the result. By induction on the tree, since `bind` walks
down to its leaves. -/
theorem bind_done (program : Program Reply α) : program >>= Program.done = program := by
  induction program with
  | done result => rfl
  | ask call next inductionHypothesis =>
    rw [ask_bind]
    exact congrArg (Program.ask call) (funext inductionHypothesis)

/-- It makes no difference how a sequence of three programs is put together. The induction is on
the first one, whose leaves are where the others begin. -/
theorem bind_assoc {γ : Type} (program : Program Reply α) (first : α → Program Reply β)
    (second : β → Program Reply γ) :
    program >>= first >>= second = program >>= fun result => first result >>= second := by
  induction program with
  | done result => rfl
  | ask call next inductionHypothesis =>
    rw [ask_bind, ask_bind, ask_bind]
    exact congrArg (Program.ask call) (funext inductionHypothesis)

instance : LawfulMonad (Program Reply) :=
  LawfulMonad.mk' _ (fun program => bind_done program) (fun _ _ => rfl) bind_assoc

/-- A program that is done makes no exchange and leaves the server as it is. -/
@[simp] theorem run_done (serve : Server Reply σ) (result : α) (state : σ) :
    (Program.done result).run serve state = ⟨result, [], state⟩ := rfl

/-- A call is answered first, and the rest of the program runs from the state that the answer
left. -/
@[simp] theorem run_ask (serve : Server Reply σ) (call : Call)
    (next : Reply call → Program Reply α) (state : σ) :
    (Program.ask call next).run serve state =
      let rest := (next (serve call state).1).run serve (serve call state).2
      ⟨rest.result, ⟨call, (serve call state).1⟩ :: rest.exchanges, rest.state⟩ := rfl

/-- A sequence runs its second part from the state the first part leaves, and its
exchanges are those of the two parts in order. -/
theorem run_bind (serve : Server Reply σ) (program : Program Reply α)
    (continuation : α → Program Reply β) (state : σ) :
    (program >>= continuation).run serve state =
      let first := program.run serve state
      let second := (continuation first.result).run serve first.state
      ⟨second.result, first.exchanges ++ second.exchanges, second.state⟩ := by
  induction program generalizing state with
  | done result => rfl
  | ask call next inductionHypothesis =>
    simp only [ask_bind, run_ask, inductionHypothesis, List.cons_append]

end Program

end NfcFrontend
