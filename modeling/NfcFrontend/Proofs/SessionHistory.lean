import Mathlib.Data.List.Induction
import NfcFrontend.Proofs.Framing

/-!
# What a session holds

A session is fed bytes and may be reset at any time. What it holds is then a matter of
history: between requests nothing, and within one the bytes that came since its opcode, of
which there are fewer than the opcode takes and no more than fit.

That buffer decides when a request is built. `request?` names the opcode and the parameters
that a byte makes complete. It reads them off any session at all, and only a session's
history shows that they are always as many as the opcode takes. No session therefore breaks
the contract of building a request, whatever its capacity, even one too small for its
opcodes.
-/

namespace NfcFrontend.Host

/-- What can happen to a session. -/
inductive Input where
  | byte (byte : UInt8)
  | reset
deriving DecidableEq

namespace Session

variable {capacity : Nat}

/-- The session after an input. A reset makes it a new one. -/
def after (session : Session capacity) : Input → Session capacity
  | .byte byte => (session.accept byte).2
  | .reset => fresh

/-- The session after inputs in order. -/
def afterAll (session : Session capacity) (inputs : List Input) : Session capacity :=
  inputs.foldl after session

/-- Inputs in two parts lead on from where the first part does. -/
theorem afterAll_append (session : Session capacity) (first second : List Input) :
    session.afterAll (first ++ second) = (session.afterAll first).afterAll second :=
  List.foldl_append

/-! ## The history of the buffer -/

/-- The parameters held for a pending opcode. -/
structure Pending (capacity : Nat) (past : List Input) (opcode : Opcode) (held : List UInt8) :
    Prop where
  takes : 0 < opcode.parameterCount
  wanting : held.length < opcode.parameterCount
  fits : held.length ≤ capacity
  /-- They are the bytes since the opcode, which came where an opcode was due. -/
  since : ∃ earlier, past = earlier ++ .byte opcode.code :: held.map .byte ∧
    ((fresh : Session capacity).afterAll earlier).state = .waitingForCommand

/-- What a session holds after the inputs it has seen. -/
def Holds (past : List Input) (session : Session capacity) : Prop :=
  match session.state with
  | .waitingForCommand => session.held = []
  | .waitingForParams opcode => Pending capacity past opcode session.held

/-- A session that holds what its history says is sound. -/
theorem Holds.sound {past : List Input} {session : Session capacity}
    (holds : session.Holds past) : session.Sound := by
  obtain ⟨state, held⟩ := session
  cases state with
  | waitingForCommand => exact holds
  | waitingForParams opcode => exact ⟨holds.wanting, holds.fits⟩

/-- A byte extends the history of the buffer, begins a new one or ends it. -/
theorem Accepted.holds {byte : UInt8} {session next : Session capacity} {step : Step}
    (moved : Accepted byte session step next) {past : List Input}
    (reached : (fresh : Session capacity).afterAll past = session) (holds : session.Holds past) :
    next.Holds (past ++ [.byte byte]) := by
  cases moved with
  | stray | completed | overflowed => rfl
  | opened opcode coded wanting =>
    have due : ((fresh : Session capacity).afterAll past).state = .waitingForCommand := by
      rw [reached]
      rfl
    exact ⟨wanting, wanting, Nat.zero_le capacity, past, by rw [coded]; rfl, due⟩
  | kept opcode held room wanting =>
    have pending : Pending capacity past opcode held := holds
    obtain ⟨earlier, split, due⟩ := pending.since
    have length : (held ++ [byte]).length = held.length + 1 := by simp
    have longer : past ++ [.byte byte] =
        earlier ++ .byte opcode.code :: (held ++ [byte]).map .byte := by
      rw [split]
      simp
    exact ⟨pending.takes, length ▸ wanting, length ▸ room, earlier, longer, due⟩

/-- After any inputs a session holds what they say. The induction is on the last input. -/
theorem holds_afterAll (inputs : List Input) :
    ((fresh : Session capacity).afterAll inputs).Holds inputs := by
  induction inputs using List.reverseRecOn with
  | nil => rfl
  | append_singleton past input inductionHypothesis =>
    rw [afterAll_append]
    cases input with
    | reset => rfl
    | byte byte =>
      obtain ⟨step, next, accepted, moved⟩ :=
        accept_accepted _ inductionHypothesis.sound byte
      have stepped : ((fresh : Session capacity).afterAll past).afterAll [.byte byte] = next :=
        congrArg Prod.snd accepted
      rw [stepped]
      exact moved.holds rfl inductionHypothesis

/-! ## Building requests -/

/-- The opcode and the parameters that a byte makes a request of. -/
def request? (session : Session capacity) (byte : UInt8) : Option (Opcode × List UInt8) :=
  match session.state with
  | .waitingForCommand =>
    match (Coded.ofByte? byte : Option Opcode) with
    | none => none
    | some opcode => if opcode.parameterCount = 0 then some (opcode, []) else none
  | .waitingForParams opcode =>
    if session.held.length < capacity ∧ opcode.parameterCount ≤ session.held.length + 1 then
      some (opcode, session.held ++ [byte])
    else none

/-- It is an opcode without parameters, or a pending one with its last parameter. -/
theorem request_cases {session : Session capacity} {byte : UInt8} {opcode : Opcode}
    {parameters : List UInt8} (made : session.request? byte = some (opcode, parameters)) :
    (session.state = .waitingForCommand ∧
      (Coded.ofByte? byte : Option Opcode) = some opcode ∧
      opcode.parameterCount = 0 ∧ parameters = []) ∨
    (session.state = .waitingForParams opcode ∧ session.held.length < capacity ∧
      opcode.parameterCount ≤ session.held.length + 1 ∧ parameters = session.held ++ [byte]) := by
  obtain ⟨state, held⟩ := session
  unfold request? at made
  cases state with
  | waitingForCommand =>
    cases found : (Coded.ofByte? byte : Option Opcode) with
    | none => simp [found] at made
    | some coded =>
      by_cases bare : coded.parameterCount = 0
      · obtain ⟨rfl, rfl⟩ : coded = opcode ∧ [] = parameters := by
          simpa [found, bare] using made
        exact .inl ⟨rfl, rfl, bare, rfl⟩
      · simp [found, bare] at made
  | waitingForParams pending =>
    by_cases last : held.length < capacity ∧ pending.parameterCount ≤ held.length + 1
    · obtain ⟨rfl, rfl⟩ : pending = opcode ∧ held ++ [byte] = parameters := by
        simpa [last] using made
      exact .inr ⟨rfl, last.1, last.2, rfl⟩
    · simp [last] at made

/-- These are the requests a session builds: the byte is answered with the request made of
them, or with the violation that there is none. -/
theorem accept_of_request {session : Session capacity} {byte : UInt8} {opcode : Opcode}
    {parameters : List UInt8} (made : session.request? byte = some (opcode, parameters)) :
    (session.accept byte).1 = (Request.ofParameters opcode parameters).map .ready := by
  rcases request_cases made with
    ⟨due, found, bare, rfl⟩ | ⟨waiting, room, last, rfl⟩
  · simp [accept, due, found, bare]
  · have enough : ¬ session.held.length + 1 < opcode.parameterCount := Nat.not_lt.mpr last
    cases built : Request.ofParameters opcode (session.held ++ [byte]) <;>
      simp [accept, waiting, room, enough, built, Except.map]

/-- And there are no others. -/
theorem accept_of_no_request {session : Session capacity} {byte : UInt8}
    (none : session.request? byte = none) :
    ∃ step, (session.accept byte).1 = .ok step ∧ ∀ request, step ≠ .ready request := by
  obtain ⟨state, held⟩ := session
  cases state with
  | waitingForCommand =>
    unfold request? at none
    cases found : (Coded.ofByte? byte : Option Opcode) with
    | none => exact ⟨.unknown byte, by simp [accept, found], by simp⟩
    | some coded =>
      by_cases bare : coded.parameterCount = 0
      · simp [found, bare] at none
      · exact ⟨.pending, by simp [accept, found, bare], by simp⟩
  | waitingForParams pending =>
    unfold request? at none
    by_cases room : held.length < capacity
    · have more : held.length + 1 < pending.parameterCount := by
        simpa [room] using none
      exact ⟨.pending, by simp [accept, room, more], by simp⟩
    · exact ⟨.overflow, by simp [accept, room], by simp⟩

/-- A sound session builds requests with as many parameters as their opcode takes. -/
theorem Sound.request_count {session : Session capacity} (sound : session.Sound) {byte : UInt8}
    {opcode : Opcode} {parameters : List UInt8}
    (made : session.request? byte = some (opcode, parameters)) :
    parameters.length = opcode.parameterCount := by
  rcases request_cases made with ⟨-, -, bare, rfl⟩ | ⟨waiting, -, last, rfl⟩
  · exact bare.symm
  · have wanting : session.held.length < opcode.parameterCount := by
      rw [Sound, waiting] at sound
      exact sound.1
    rw [List.length_append, List.length_singleton]
    omega

/-- After any inputs a session holds what they say, and whatever byte comes next, a request
is built of exactly as many parameters as its opcode takes.

Proof: each input keeps what the session holds in step with the history, and a sound session
collects no more than its opcode takes. -/
theorem contract_never_broken (capacity : Nat) (inputs : List Input) :
    let session := (fresh : Session capacity).afterAll inputs
    session.Holds inputs ∧
      ∀ byte, match session.request? byte with
        | some (opcode, parameters) => parameters.length = opcode.parameterCount ∧
            ∃ request, Request.ofParameters opcode parameters = .ok request ∧
              session.accept byte = (.ok (.ready request), fresh)
        | none => ∃ step, (session.accept byte).1 = .ok step ∧
            ∀ request, step ≠ .ready request := by
  intro session
  have holds : session.Holds inputs := holds_afterAll inputs
  refine ⟨holds, fun byte => ?_⟩
  cases made : session.request? byte with
  | none => exact accept_of_no_request made
  | some pair =>
    obtain ⟨opcode, parameters⟩ := pair
    have counted : parameters.length = opcode.parameterCount := holds.sound.request_count made
    obtain ⟨request, built⟩ := Request.ofParameters_of_count opcode parameters counted
    obtain ⟨step, next, accepted, moved⟩ := session.accept_accepted holds.sound byte
    -- The step is the request just built, and a step that settles leaves nothing behind.
    have answer : step = .ready request := by
      simpa [accepted, built, Except.map] using accept_of_request made
    subst answer
    obtain rfl : next = fresh := moved.after_eq_fresh (by simp)
    exact ⟨counted, request, built, accepted⟩

end Session

end NfcFrontend.Host
