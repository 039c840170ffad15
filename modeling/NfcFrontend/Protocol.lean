import NfcFrontend.Coded
import NfcFrontend.Fault

/-!
# Protocols

The host names a protocol by its identifier. The chip keeps transmitter and
receiver settings apart and loads one of each; both are numbered like the
identifiers, and a protocol selects the transmitter and the receiver of its own
number. Transmitters and receivers are separate types, so that a transmitter
number cannot be sent where the chip expects a receiver number.
-/

namespace NfcFrontend

/-- A radio standard with its bit rate in kbit/s. -/
inductive Protocol where
  | iso14443a106
  | iso14443a212
  | iso14443a424
  | iso14443a848
  | iso14443b106
  | iso14443b212
  | iso14443b424
  | iso14443b848
  | felica212
  | felica424
deriving DecidableEq

/-- The transmitter setting for a standard. -/
structure Transmitter where
  standard : Protocol
deriving DecidableEq

/-- The receiver setting for a standard. -/
structure Receiver where
  standard : Protocol
deriving DecidableEq

namespace Protocol

/-- The identifier sent by the host. -/
def code : Protocol → UInt8
  | iso14443a106 => 0
  | iso14443a212 => 1
  | iso14443a424 => 2
  | iso14443a848 => 3
  | iso14443b106 => 4
  | iso14443b212 => 5
  | iso14443b424 => 6
  | iso14443b848 => 7
  | felica212 => 8
  | felica424 => 9

def name : Protocol → String
  | iso14443a106 => "Iso14443a106"
  | iso14443a212 => "Iso14443a212"
  | iso14443a424 => "Iso14443a424"
  | iso14443a848 => "Iso14443a848"
  | iso14443b106 => "Iso14443b106"
  | iso14443b212 => "Iso14443b212"
  | iso14443b424 => "Iso14443b424"
  | iso14443b848 => "Iso14443b848"
  | felica212 => "Felica212"
  | felica424 => "Felica424"

/-- The protocols, ascending by identifier. -/
def members : List Protocol :=
  [iso14443a106, iso14443a212, iso14443a424, iso14443a848, iso14443b106, iso14443b212,
    iso14443b424, iso14443b848, felica212, felica424]

instance : Coded Protocol where
  members := members
  name := name
  code := code
  complete protocol := by cases protocol <;> decide
  distinct := by decide

/-- The transmitter setting a protocol loads. -/
def transmitter (protocol : Protocol) : Transmitter := ⟨protocol⟩

/-- The receiver setting a protocol loads. -/
def receiver (protocol : Protocol) : Receiver := ⟨protocol⟩

/-- The protocol with the identifier, or the fault that reports the identifier. -/
def ofId (id : UInt8) : Except Fault Protocol :=
  match Coded.ofByte? id with
  | some protocol => .ok protocol
  | none => .error (.invalidProtocol id)

/-- The identifiers of the protocols go up to nine. -/
theorem code_le (protocol : Protocol) : protocol.code.toNat ≤ 9 := by
  cases protocol <;> decide

/-- The protocols are listed by identifier. -/
theorem code_get_members (position : Fin 10) :
    (members.get position).code.toNat = position.val := by
  revert position
  decide

/-- An identifier names a protocol or is refused, and is refused exactly above nine. -/
theorem ofId_cases (id : UInt8) :
    (∃ protocol : Protocol, protocol.code = id ∧ ofId id = .ok protocol) ∨
      (9 < id.toNat ∧ ofId id = .error (.invalidProtocol id)) := by
  by_cases known : id.toNat ≤ 9
  · let protocol := members.get ⟨id.toNat, Nat.lt_succ_of_le known⟩
    have coded : protocol.code = id :=
      UInt8.toNat_inj.mp (code_get_members ⟨id.toNat, Nat.lt_succ_of_le known⟩)
    have found : (Coded.ofByte? id : Option Protocol) = some protocol :=
      Coded.ofByte?_eq_some_iff.mpr coded
    exact .inl ⟨protocol, coded, by simp [ofId, found]⟩
  · cases found : (Coded.ofByte? id : Option Protocol) with
    | none => exact .inr ⟨Nat.lt_of_not_le known, by simp [ofId, found]⟩
    | some protocol =>
      obtain rfl : protocol.code = id := Coded.ofByte?_eq_some_iff.mp found
      exact absurd protocol.code_le known

end Protocol

instance : Coded Transmitter where
  members := Protocol.members.map Transmitter.mk
  name transmitter := transmitter.standard.name
  code transmitter := transmitter.standard.code
  complete := fun ⟨standard⟩ => List.mem_map.mpr ⟨standard, Coded.complete standard, rfl⟩
  distinct := by decide

instance : Coded Receiver where
  members := Protocol.members.map Receiver.mk
  name receiver := receiver.standard.name
  code receiver := receiver.standard.code
  complete := fun ⟨standard⟩ => List.mem_map.mpr ⟨standard, Coded.complete standard, rfl⟩
  distinct := by decide

end NfcFrontend
