import NfcFrontend.Address

/-!
# The register memory

128 bytes, one for each address. Storing changes the byte at one address and
nothing else, and two memories with the same byte at every address are equal.
-/

namespace NfcFrontend

/-- One byte for each register address. -/
structure Memory where
  cells : Vector UInt8 128
deriving DecidableEq

namespace Memory

/-- All registers zero. -/
def blank : Memory := ⟨Vector.replicate 128 0⟩

/-- The byte at an address. -/
def get (memory : Memory) (address : Address) : UInt8 := memory.cells[address.index.val]

/-- The memory with one byte replaced. -/
def set (memory : Memory) (address : Address) (value : UInt8) : Memory :=
  ⟨memory.cells.set address.index.val value⟩

/-- A memory that is blank but for the given bytes; a later entry for the same
address wins. -/
def seeded (seeds : List (Address × UInt8)) : Memory :=
  seeds.foldl (fun memory seed => memory.set seed.1 seed.2) blank

/-- The bytes that are not zero, ascending by address. -/
def occupied (memory : Memory) : List (Address × UInt8) :=
  (Address.all.map fun address => (address, memory.get address)).filter
    fun entry => entry.2 != 0

/-- A stored byte is read back. -/
@[simp] theorem get_set_self (memory : Memory) (address : Address) (value : UInt8) :
    (memory.set address value).get address = value := by
  simp [get, set]

/-- A store leaves every other address alone. -/
theorem get_set_of_ne (memory : Memory) {address other : Address} (value : UInt8)
    (different : other ≠ address) : (memory.set address value).get other = memory.get other := by
  have apart : address.index.val ≠ other.index.val := fun same =>
    different (Address.index_injective same.symm)
  simp [get, set, Vector.getElem_set_ne _ _ apart]

/-- Reading after a store, at any address. -/
theorem get_set (memory : Memory) (address other : Address) (value : UInt8) :
    (memory.set address value).get other = if other = address then value else memory.get other := by
  by_cases same : other = address
  · subst same
    simp
  · simp [same, get_set_of_ne memory value same]

/-- Memories that agree at every address are equal. -/
theorem ext {left right : Memory} (same : ∀ address, left.get address = right.get address) :
    left = right := by
  obtain ⟨leftCells⟩ := left
  obtain ⟨rightCells⟩ := right
  congr 1
  apply Vector.ext
  intro index bound
  exact same ⟨⟨index, bound⟩⟩

/-- A later store at the same address wins. -/
theorem set_set (memory : Memory) (address : Address) (first second : UInt8) :
    (memory.set address first).set address second = memory.set address second := by
  apply ext
  intro other
  rw [get_set, get_set, get_set]
  split
  · rfl
  · rfl

end Memory

end NfcFrontend
