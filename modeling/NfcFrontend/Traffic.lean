import NfcFrontend.Host.Bridge

/-!
# Traffic

Exchanges are what a program run shows to the outside. This module sorts them: the
accesses on the bus and the levels on the reset pin, and for the bridge also the
bytes offered to the host, split into those a host took and those none did.

Bus traffic has a written form, a line per transaction: the bytes sent and the
bytes received in hexadecimal, or an exclamation mark in place of the bytes that
never came. A level is written by name, marked in the same way when the pin could
not be driven.
-/

namespace NfcFrontend

namespace Hex

/-- A digit from zero to fifteen. -/
def digit (value : Nat) : Char :=
  if value < 10 then Char.ofNat ('0'.toNat + value) else Char.ofNat ('a'.toNat + (value - 10))

/-- Two lower case digits for each byte. -/
def ofBytes (bytes : List UInt8) : String :=
  String.ofList (bytes.flatMap fun byte => [digit (byte.toNat / 16), digit (byte.toNat % 16)])

end Hex

def Level.name : Level → String
  | .low => "low"
  | .high => "high"

namespace Chip

/-- The accesses made on the bus, each with its response if it got one. -/
def busTraffic (exchanges : List (Exchange Reply)) : List (Access × Option Frame) :=
  exchanges.filterMap fun
    | ⟨.access access, response⟩ => some (access, response)
    | ⟨.drive _, _⟩ => none

/-- The levels put on the reset pin, each with whether it could be driven. -/
def pinTraffic (exchanges : List (Exchange Reply)) : List (Level × Bool) :=
  exchanges.filterMap fun
    | ⟨.access _, _⟩ => none
    | ⟨.drive level, driven⟩ => some (level, driven)

/-- The value that a read as the very first exchange returned. -/
def firstRead? (exchanges : List (Exchange Reply)) : Option UInt8 :=
  match exchanges with
  | ⟨.access (.read _), some response⟩ :: _ => some response.second
  | _ => none

/-- The written form of one bus transaction. -/
def busLine : Access × Option Frame → String
  | (access, some response) => Hex.ofBytes access.frame.bytes ++ ">" ++ Hex.ofBytes response.bytes
  | (access, none) => Hex.ofBytes access.frame.bytes ++ "!"

/-- The written form of one reset pin call. -/
def pinLine : Level × Bool → String
  | (level, true) => level.name
  | (level, false) => level.name ++ "!"

end Chip

namespace Host.Bridge

/-- The part of the traffic between bridge and chip. -/
def chipTraffic (exchanges : List (Exchange Reply)) : List (Exchange Chip.Reply) :=
  exchanges.filterMap fun
    | ⟨.chip call, reply⟩ => some ⟨call, reply⟩
    | ⟨.send _, _⟩ | ⟨.poll, _⟩ => none

/-- The bytes offered to the host, each with whether a host took it. -/
def offered (exchanges : List (Exchange Reply)) : List (UInt8 × Bool) :=
  exchanges.filterMap fun
    | ⟨.send byte, taken⟩ => some (byte, taken)
    | ⟨.chip _, _⟩ | ⟨.poll, _⟩ => none

/-- The bytes the host got. -/
def delivered (exchanges : List (Exchange Reply)) : List UInt8 :=
  ((offered exchanges).filter Prod.snd).map Prod.fst

/-- The bytes no host took. -/
def lost (exchanges : List (Exchange Reply)) : List UInt8 :=
  ((offered exchanges).filter fun sent => !sent.2).map Prod.fst

end Host.Bridge

end NfcFrontend
