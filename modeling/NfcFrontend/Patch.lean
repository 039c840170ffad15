import NfcFrontend.Address

/-!
# Configuration patches

A patch is a block of values for consecutive registers. It is valid when its last
value still falls on a register. Three views compute the address range on their
own: validation adds the length to the first address, listing adds each offset to
it in byte arithmetic, and lookup subtracts the first address from a register's.
Listing is only allowed for a valid patch, where byte arithmetic does not wrap;
lookup does not depend on validity.
-/

namespace NfcFrontend

/-- Values for the registers from `first` upwards. -/
structure Patch where
  first : Address
  values : List UInt8
deriving DecidableEq

namespace Patch

/-- Every value falls on a register, or the fault names the first byte that is no
address. -/
def validate (patch : Patch) : Except Fault Unit :=
  if patch.first.index.val + patch.values.length > 128 then
    .error (.invalidAddress (Address.last.byte + 1))
  else .ok ()

/-- The value for an address, if the patch has one. -/
def get? (patch : Patch) (address : Address) : Option UInt8 :=
  if patch.first.index.val ≤ address.index.val then
    patch.values[address.index.val - patch.first.index.val]?
  else none

/-- The value at an offset with its address, offsets counted in byte arithmetic. -/
def entry? (patch : Patch) (offset : Nat) (value : UInt8) : Option (Address × UInt8) :=
  (Address.ofByte? (patch.first.byte + UInt8.ofNat offset)).map fun address => (address, value)

/-- The addresses with their values, ascending. Only a valid patch may be listed. -/
def entries (patch : Patch) : Except Violation (List (Address × UInt8)) :=
  match patch.validate with
  | .ok () => .ok (patch.values.zipIdx.filterMap fun (value, offset) => patch.entry? offset value)
  | .error _ => .error .patchTooLong

end Patch

end NfcFrontend
