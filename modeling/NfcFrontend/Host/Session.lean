import NfcFrontend.Host.Request

/-!
# Framing the host's byte stream

A session cuts the host's bytes into requests. It waits either for an opcode or
for the parameters of a pending opcode, which it holds in a buffer of fixed
capacity. Frames have no delimiter: while parameters are pending every byte is a
parameter, whatever opcode it may look like.

A parameter that does not fit the buffer ends the pending request, and the session
waits for an opcode again. Building the request from the held parameters is a
contract (`Request.ofParameters`); that a session never breaks it is a law about
`accept`, which is why `accept` can report a violation.
-/

namespace NfcFrontend.Host

/-- What the next byte is taken for. -/
inductive SessionState where
  /-- The next byte is an opcode. -/
  | waitingForCommand
  /-- The next byte is a parameter of the pending opcode. -/
  | waitingForParams (opcode : Opcode)
deriving DecidableEq

/-- The state by name, with the pending opcode. -/
def SessionState.text : SessionState → String
  | waitingForCommand => "WaitingForCommand"
  | waitingForParams opcode => s!"WaitingForParams({opcode.name})"

/-- What one byte led to. -/
inductive Step where
  /-- More parameters are needed. -/
  | pending
  /-- The byte is no opcode. -/
  | unknown (byte : UInt8)
  /-- A request is complete. -/
  | ready (request : Request)
  /-- The pending request takes more parameters than the session can hold. -/
  | overflow
deriving DecidableEq

/-- The framing state of one host connection that can hold `capacity` parameters. -/
structure Session (capacity : Nat) where
  state : SessionState
  held : List UInt8
deriving DecidableEq

namespace Session

variable {capacity : Nat}

/-- The session of a new connection; also what a reset returns to. -/
def fresh : Session capacity := ⟨.waitingForCommand, []⟩

/-- Feed one byte from the host. -/
def accept (session : Session capacity) (byte : UInt8) :
    Except Violation Step × Session capacity :=
  match session.state with
  | .waitingForCommand =>
    match (Coded.ofByte? byte : Option Opcode) with
    | none => (.ok (.unknown byte), session)
    | some opcode =>
      if opcode.parameterCount = 0 then ((Request.ofParameters opcode []).map .ready, session)
      else (.ok .pending, ⟨.waitingForParams opcode, []⟩)
  | .waitingForParams opcode =>
    if session.held.length < capacity then
      let held := session.held ++ [byte]
      if held.length < opcode.parameterCount then (.ok .pending, ⟨session.state, held⟩)
      else
        match Request.ofParameters opcode held with
        | .ok request => (.ok (.ready request), fresh)
        | .error violation => (.error violation, ⟨session.state, held⟩)
    else (.ok .overflow, fresh)

end Session

end NfcFrontend.Host
