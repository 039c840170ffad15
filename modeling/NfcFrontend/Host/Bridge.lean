import NfcFrontend.Driver.Command
import NfcFrontend.Host.Session

/-!
# The host bridge

The bridge carries out host requests on the chip. A request is executed as soon as
its last parameter arrives. Responses are single bytes: the value of a register
read, an acknowledgement, or a negative acknowledgement followed by its reason. A
register write is silent when it succeeds.

Reasons split errors in two. A byte that is no opcode, no address or no protocol is
the host's mistake: it is answered, and the bridge reports success. A chip that
does not answer is a fault: it is answered too, and reported to the bridge's
caller. Whether the link takes a response byte is not looked at.
-/

namespace NfcFrontend.Host

/-- Acknowledge. -/
def ack : UInt8 := 0xBB

/-- Negative acknowledge, always followed by a reason. -/
def nak : UInt8 := 0xFF

/-- Reason: the byte is no opcode. -/
def unknownCommand : UInt8 := 0xAA

/-- Reason: an address or a protocol identifier is out of range. -/
def invalidParameter : UInt8 := 0xAB

/-- Reason: the chip could not be accessed. -/
def driverFault : UInt8 := 0xAC

/-- The number of parameters a bridge's session holds. -/
def paramsMax : Nat := 30

/-- What the bridge reports to its caller. -/
inductive BridgeFault where
  | driver (fault : Fault)
  /-- A request takes more parameters than the session can hold. -/
  | paramOverflow
deriving DecidableEq

namespace BridgeFault

/-- The fault's name without its payload. -/
def kind : BridgeFault → String
  | driver _ => "Driver"
  | paramOverflow => "ParamOverflow"

/-- The fault's name, with the driver's fault where there is one. -/
def message : BridgeFault → String
  | driver fault => s!"Driver({fault.message})"
  | paramOverflow => "ParamOverflow"

end BridgeFault

namespace Bridge

/-- What the bridge can ask of the world around it. -/
inductive Call where
  | chip (call : Chip.Call)
  /-- Send one byte to the host. -/
  | send (byte : UInt8)
  /-- Look for a byte from the host without waiting. -/
  | poll
deriving DecidableEq

/-- Sending tells whether a host took the byte; polling gives a byte if there is one. -/
@[reducible] def Reply : Call → Type
  | .chip call => Chip.Reply call
  | .send _ => Bool
  | .poll => Option UInt8

/-- A bridge operation: it ends with a report to the caller. -/
abbrev Report := Except (Stop BridgeFault) Unit

/-- A driver program as part of the bridge. -/
def ofChip {α : Type} : Program Chip.Reply α → Program Reply α
  | .done result => .done result
  | .ask call next => .ask (.chip call) fun reply => ofChip (next reply)

/-- A driver action as part of the bridge. -/
def ofAction {α : Type} (action : Action α) : ExceptT (Stop Fault) (Program Reply) α :=
  ExceptT.mk (ofChip action.run)

/-- Send one response byte, whether or not a host takes it. -/
def respond (byte : UInt8) : Program Reply Unit := .ask (.send byte) fun _ => .done ()

/-- Send a negative acknowledgement and its reason. -/
def reject (reason : UInt8) : Program Reply Unit := do
  respond nak
  respond reason

/-- Carry out a request and answer it if it succeeds. -/
def handle : Request → ExceptT (Stop Fault) (Program Reply) Unit
  | .regRead address => do
    let value ← ofAction do Driver.read (← Action.ofArgument (Address.ofByte address))
    respond value
  | .regWrite address value =>
    ofAction do Driver.write (← Action.ofArgument (Address.ofByte address)) value
  | .protocolSet protocol => do
    ofAction do Driver.loadProtocol (← Action.ofArgument (Protocol.ofId protocol))
    respond ack
  | .rfFieldOn => do
    ofAction Driver.enableField
    respond ack
  | .rfFieldOff => do
    ofAction Driver.disableField
    respond ack

/-- Carry out a request and answer it in any case. -/
def execute (request : Request) : Program Reply Report := do
  match ← (handle request).run with
  | .ok () => return .ok ()
  | .error (.fault (.invalidAddress _)) | .error (.fault (.invalidProtocol _)) =>
    reject invalidParameter
    return .ok ()
  | .error (.fault fault) =>
    reject driverFault
    return .error (.fault (.driver fault))
  | .error (.abort violation) => return .error (.abort violation)

/-- React to what a byte led to. -/
def react : Except Violation Step → Program Reply Report
  | .ok .pending => return .ok ()
  | .ok (.unknown _) => do
    reject unknownCommand
    return .ok ()
  | .ok (.ready request) => execute request
  | .ok .overflow => do
    reject driverFault
    return .error (.fault .paramOverflow)
  | .error violation => return .error (.abort violation)

/-- The session a bridge keeps. -/
abbrev Connection := Session paramsMax

/-- Process one byte from the host. -/
def process (session : Connection) (byte : UInt8) : Program Reply (Report × Connection) := do
  let (step, after) := session.accept byte
  let report ← react step
  return (report, after)

/-- Process the next byte from the host, if there is one. -/
def tick (session : Connection) : Program Reply (Report × Connection) :=
  .ask .poll fun
    | some byte => process session byte
    | none => .done (.ok (), session)

end Bridge

end NfcFrontend.Host
