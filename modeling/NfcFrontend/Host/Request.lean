import NfcFrontend.Coded
import NfcFrontend.Fault

/-!
# Host requests

The host sends requests as bytes: an opcode followed by exactly as many parameters
as the opcode takes. A request keeps its parameters as received; whether they name
a register or a protocol is decided when the request is carried out, so that the
host gets an answer about them.
-/

namespace NfcFrontend.Host

/-- The opcodes the bridge knows. -/
inductive Opcode where
  /-- Read a register. Parameter: address. -/
  | regRead
  /-- Write a register. Parameters: address, value. -/
  | regWrite
  /-- Load a protocol. Parameter: identifier. -/
  | protocolSet
  | rfFieldOn
  | rfFieldOff
deriving DecidableEq

namespace Opcode

def code : Opcode → UInt8
  | regRead => 0x00
  | regWrite => 0x01
  | protocolSet => 0x02
  | rfFieldOn => 0x03
  | rfFieldOff => 0x04

def name : Opcode → String
  | regRead => "RegRead"
  | regWrite => "RegWrite"
  | protocolSet => "ProtocolSet"
  | rfFieldOn => "RfFieldOn"
  | rfFieldOff => "RfFieldOff"

instance : Coded Opcode where
  members := [regRead, regWrite, protocolSet, rfFieldOn, rfFieldOff]
  name := name
  code := code
  complete opcode := by cases opcode <;> decide
  distinct := by decide

/-- The number of parameter bytes that follow the opcode. -/
def parameterCount : Opcode → Nat
  | regRead => 1
  | regWrite => 2
  | protocolSet => 1
  | rfFieldOn => 0
  | rfFieldOff => 0

/-- The opcodes are listed by code. -/
theorem code_get_opcode (position : Fin 5) :
    ((Coded.members : List Opcode).get position).code.toNat = position.val := by
  revert position
  decide

/-- Exactly the bytes from five upwards name no opcode. -/
theorem foreign_iff (byte : UInt8) :
    (Coded.ofByte? byte : Option Opcode) = none ↔ 5 ≤ byte.toNat := by
  rw [Coded.ofByte?_eq_none_iff]
  constructor
  · intro foreign
    refine Nat.le_of_not_lt fun below => ?_
    let opcode := (Coded.members : List Opcode).get ⟨byte.toNat, below⟩
    have coded : opcode.code = byte :=
      UInt8.toNat_inj.mp (code_get_opcode ⟨byte.toNat, below⟩)
    exact foreign opcode coded
  · rintro above opcode rfl
    have small : opcode.code.toNat < 5 := by cases opcode <;> decide
    exact absurd above (Nat.not_le.mpr small)

end Opcode

/-- A complete request. -/
inductive Request where
  | regRead (address : UInt8)
  | regWrite (address value : UInt8)
  | protocolSet (protocol : UInt8)
  | rfFieldOn
  | rfFieldOff
deriving DecidableEq

namespace Request

def opcode : Request → Opcode
  | regRead _ => .regRead
  | regWrite _ _ => .regWrite
  | protocolSet _ => .protocolSet
  | rfFieldOn => .rfFieldOn
  | rfFieldOff => .rfFieldOff

def parameters : Request → List UInt8
  | regRead address => [address]
  | regWrite address value => [address, value]
  | protocolSet protocol => [protocol]
  | rfFieldOn => []
  | rfFieldOff => []

/-- The bytes by which the host sends a request. -/
def encode (request : Request) : List UInt8 := request.opcode.code :: request.parameters

/-- The request made of an opcode and its parameters, which must be exactly as many
as the opcode takes. -/
def ofParameters : Opcode → List UInt8 → Except Violation Request
  | .regRead, [address] => .ok (regRead address)
  | .regWrite, [address, value] => .ok (regWrite address value)
  | .protocolSet, [protocol] => .ok (protocolSet protocol)
  | .rfFieldOn, [] => .ok rfFieldOn
  | .rfFieldOff, [] => .ok rfFieldOff
  | _, _ => .error .parameterCount

/-- A request is made of its own opcode and parameters. -/
@[simp] theorem ofParameters_parameters (request : Request) :
    ofParameters request.opcode request.parameters = .ok request := by
  cases request <;> rfl

/-- Building a request succeeds for the right number of parameters only, and keeps
both the opcode and the parameters. -/
theorem ofParameters_eq_ok_iff {opcode : Opcode} {parameters : List UInt8} {request : Request} :
    ofParameters opcode parameters = .ok request ↔
      request.opcode = opcode ∧ request.parameters = parameters := by
  constructor
  · intro built
    match opcode, parameters, built with
    | .regRead, [_], rfl => exact ⟨rfl, rfl⟩
    | .regWrite, [_, _], rfl => exact ⟨rfl, rfl⟩
    | .protocolSet, [_], rfl => exact ⟨rfl, rfl⟩
    | .rfFieldOn, [], rfl => exact ⟨rfl, rfl⟩
    | .rfFieldOff, [], rfl => exact ⟨rfl, rfl⟩
  · rintro ⟨rfl, rfl⟩
    exact ofParameters_parameters request

/-- The right number of parameters is the only condition. -/
theorem ofParameters_of_count (opcode : Opcode) (parameters : List UInt8)
    (counted : parameters.length = opcode.parameterCount) :
    ∃ request, ofParameters opcode parameters = .ok request := by
  cases opcode with
  | regRead | protocolSet =>
    obtain ⟨parameter, rfl⟩ := List.length_eq_one_iff.mp counted
    exact ⟨_, rfl⟩
  | regWrite =>
    match parameters, counted with
    | [_, _], _ => exact ⟨_, rfl⟩
  | rfFieldOn | rfFieldOff =>
    obtain rfl := List.length_eq_zero_iff.mp counted
    exact ⟨_, rfl⟩

end Request

end NfcFrontend.Host
