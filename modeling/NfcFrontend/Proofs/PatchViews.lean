import Mathlib.Data.List.Nodup
import NfcFrontend.Proofs.Contracts

/-!
# The three views of a patch agree

Validation, listing and lookup each compute the registers of a patch in their own way. Listing
does so in bytes, and leaves out an entry whose byte is no address. Either would be easy to miss:
a sum that wraps names a register that is not meant, and an entry that is left out is one value
the chip never gets.

`listing` counts the same registers in natural numbers and leaves out nothing. A valid patch is
listed just so, and lookup finds in any patch what stands at the distance of the address.
-/

namespace NfcFrontend

namespace Patch

/-- Every value falls on a register. -/
def Fits (patch : Patch) : Prop := patch.first.index.val + patch.values.length ≤ 128

/-- Whether a patch fits is decided by its bounds. -/
instance (patch : Patch) : Decidable patch.Fits := Nat.decLe _ _

/-- The register at an offset from the first one. -/
def register (patch : Patch) (offset : Nat) : Address :=
  ⟨Fin.ofNat 128 (patch.first.index.val + offset)⟩

/-- The values in order, each with its register. -/
def listing (patch : Patch) : List (Address × UInt8) :=
  patch.values.zipIdx.map fun (value, offset) => (patch.register offset, value)

variable {patch : Patch}

/-! ## The listing -/

/-- Short of the end of the address space the register is at its distance. -/
theorem index_register {offset : Nat} (inside : patch.first.index.val + offset < 128) :
    (patch.register offset).index.val = patch.first.index.val + offset :=
  Nat.mod_eq_of_lt inside

/-- There is one entry for each value. -/
theorem length_listing (patch : Patch) : patch.listing.length = patch.values.length := by
  rw [listing, List.length_map, List.length_zipIdx]

/-- The entry at an offset has the value at that offset. -/
theorem getElem?_listing (patch : Patch) (offset : Nat) :
    patch.listing[offset]? =
      patch.values[offset]?.map fun value => (patch.register offset, value) := by
  rw [listing, List.getElem?_map, List.getElem?_zipIdx, Option.map_map, Nat.zero_add]
  rfl

/-- Where an entry stands is the distance of its register. -/
theorem Fits.entry_at (fits : patch.Fits) {offset : Nat} {entry : Address × UInt8}
    (present : patch.listing[offset]? = some entry) :
    entry.1.index.val = patch.first.index.val + offset ∧
      patch.values[offset]? = some entry.2 := by
  rw [getElem?_listing, Option.map_eq_some_iff] at present
  obtain ⟨value, found, rfl⟩ := present
  obtain ⟨within, -⟩ := List.getElem?_eq_some_iff.mp found
  unfold Fits at fits
  exact ⟨index_register (by omega), found⟩

/-- Each register is followed by the next one. -/
theorem Fits.next_entry (fits : patch.Fits) {offset : Nat} {entry following : Address × UInt8}
    (present : patch.listing[offset]? = some entry)
    (later : patch.listing[offset + 1]? = some following) :
    entry.1.next? = some following.1 := by
  obtain ⟨here, -⟩ := fits.entry_at present
  obtain ⟨there, -⟩ := fits.entry_at later
  have bound : following.1.index.val < 128 := following.1.index.isLt
  have successor : entry.1.index.val + 1 = following.1.index.val := by omega
  rw [Address.next?, dif_pos (successor ▸ bound)]
  exact congrArg some (Address.index_injective successor)

/-- No register is listed twice. -/
theorem Fits.nodup_listing (fits : patch.Fits) : (patch.listing.map Prod.fst).Nodup := by
  have registers : patch.listing.map Prod.fst =
      (List.range' 0 patch.values.length).map patch.register := by
    rw [listing, List.map_map, ← List.zipIdx_map_snd, List.map_map]
    rfl
  rw [registers]
  -- Offsets are different as numbers, and stay so as registers as long as none wraps.
  refine List.Nodup.map_on ?_ List.nodup_range'
  intro offset member other among same
  rw [List.mem_range'_1] at member among
  unfold Fits at fits
  have positions := congrArg (fun address => address.index.val) same
  rw [index_register (by omega), index_register (by omega)] at positions
  omega

/-! ## Validation and listing -/

/-- Validation accepts what fits, and reports the first byte that is no address otherwise. -/
theorem validate_eq (patch : Patch) :
    patch.validate = if patch.Fits then .ok () else .error (.invalidAddress 0x80) := by
  by_cases fits : patch.Fits
  · rw [if_pos fits, validate, if_neg (Nat.not_lt.mpr fits)]
  · rw [if_neg fits, validate, if_pos (Nat.lt_of_not_le fits)]
    rfl

/-- A value of a patch that fits has its entry at its register. -/
theorem Fits.entry (fits : patch.Fits) {offset : Nat} (inside : offset < patch.values.length)
    (value : UInt8) : patch.entry? offset value = some (patch.register offset, value) := by
  have valid : patch.validate = .ok () := by rw [validate_eq, if_pos fits]
  obtain ⟨-, exact_sum⟩ := offset_exact valid inside
  unfold Fits at fits
  have named : (patch.register offset).byte = patch.first.byte + UInt8.ofNat offset := by
    rw [← UInt8.toNat_inj, exact_sum, Address.toNat_byte, Address.toNat_byte,
      index_register (by omega)]
  unfold entry?
  rw [Address.ofByte?_eq_some_iff.mpr named]
  rfl

/-- A patch that fits is listed without a gap, and no other patch is listed. -/
theorem entries_eq (patch : Patch) :
    patch.entries = if patch.Fits then .ok patch.listing else .error .patchTooLong := by
  by_cases fits : patch.Fits
  · have whole : patch.values.zipIdx.filterMap
        (fun (value, offset) => patch.entry? offset value) = patch.listing := by
      rw [listing, ← List.filterMap_eq_map]
      refine List.filterMap_congr ?_
      rintro ⟨value, offset⟩ member
      have found : patch.values[offset]? = some value := List.mk_mem_zipIdx_iff_getElem?.mp member
      obtain ⟨inside, -⟩ := List.getElem?_eq_some_iff.mp found
      exact fits.entry inside value
    rw [entries, validate_eq, if_pos fits, if_pos fits]
    exact congrArg Except.ok whole
  · rw [entries, validate_eq, if_neg fits, if_neg fits]

/-! ## Lookup -/

/-- Lookup goes by the distance of the address, whether or not the patch fits. -/
theorem get?_eq_some_iff {address : Address} {value : UInt8} :
    patch.get? address = some value ↔
      ∃ offset, address.index.val = patch.first.index.val + offset ∧
        patch.values[offset]? = some value := by
  constructor
  · intro found
    unfold get? at found
    split at found
    · exact ⟨_, by omega, found⟩
    · cases found
  · rintro ⟨offset, distance, found⟩
    have reached : patch.first.index.val ≤ address.index.val := by omega
    have remaining : address.index.val - patch.first.index.val = offset := by omega
    rw [get?, if_pos reached, remaining]
    exact found

/-- What lookup finds in a patch that fits is what is listed. -/
theorem Fits.mem_listing (fits : patch.Fits) {address : Address} {value : UInt8} :
    (address, value) ∈ patch.listing ↔ patch.get? address = some value := by
  rw [get?_eq_some_iff, List.mem_iff_getElem?]
  constructor
  · rintro ⟨offset, present⟩
    exact ⟨offset, fits.entry_at present⟩
  · rintro ⟨offset, distance, found⟩
    have bound : address.index.val < 128 := address.index.isLt
    have same : patch.register offset = address :=
      Address.index_injective (by rw [index_register (by omega), distance])
    exact ⟨offset, by rw [getElem?_listing, found, Option.map_some, same]⟩

/-! ## Agreement -/

/-- The entries of a patch as its values and lookup have them. -/
structure Lists (patch : Patch) (entries : List (Address × UInt8)) : Prop where
  /-- No entry is dropped. -/
  complete : entries.length = patch.values.length
  /-- Each value stands at its offset, with the register at that distance. -/
  placed : ∀ offset (inside : offset < patch.values.length), ∃ address : Address,
    address.index.val = patch.first.index.val + offset ∧
      entries[offset]? = some (address, patch.values[offset])
  starts : ∀ entry, entries.head? = some entry → entry.1 = patch.first
  ascends : ∀ (offset : Nat) (entry following : Address × UInt8), entries[offset]? = some entry →
    entries[offset + 1]? = some following → entry.1.next? = some following.1
  distinct : (entries.map Prod.fst).Nodup
  found : ∀ address value, (address, value) ∈ entries ↔ patch.get? address = some value

/-- A patch that fits is listed in order, on consecutive registers, each with its value. -/
theorem Fits.lists (fits : patch.Fits) : patch.Lists patch.listing where
  complete := length_listing patch
  placed offset inside := by
    unfold Fits at fits
    refine ⟨patch.register offset, index_register (by omega), ?_⟩
    rw [getElem?_listing, List.getElem?_eq_getElem inside, Option.map_some]
  starts entry first := by
    rw [List.head?_eq_getElem?] at first
    exact Address.index_injective (fits.entry_at first).1
  ascends _ _ _ := fits.next_entry
  distinct := fits.nodup_listing
  found _ _ := fits.mem_listing

/-- The three views of a patch agree. It is valid if its last value falls on a register, and it is
listed exactly then: one entry for each value, on consecutive registers from the first one, with
the value that lookup finds there. Lookup stays within the values of any patch.

Proof: a patch fits if its end is at most 128. For one that fits the byte arithmetic of the listing
does not wrap, and each place of the listing is inverted by subtraction. -/
theorem views_agree (patch : Patch) :
    (patch.validate =
      if patch.first.index.val + patch.values.length ≤ 128 then .ok ()
      else .error (.invalidAddress 0x80)) ∧
    (match patch.entries with
      | .ok entries => patch.validate = .ok () ∧ patch.Lists entries
      | .error violation => patch.validate ≠ .ok () ∧ violation = .patchTooLong) ∧
    ∀ address : Address, patch.get? address =
      if inside : patch.first.index.val ≤ address.index.val ∧
          address.index.val < patch.first.index.val + patch.values.length then
        some patch.values[address.index.val - patch.first.index.val]
      else none := by
  refine ⟨validate_eq patch, ?_, ?_⟩
  · by_cases fits : patch.Fits
    · rw [entries_eq, validate_eq, if_pos fits, if_pos fits]
      exact ⟨rfl, fits.lists⟩
    · rw [entries_eq, validate_eq, if_neg fits, if_neg fits]
      exact ⟨by simp, rfl⟩
  · intro address
    split
    · rename_i inside
      refine get?_eq_some_iff.mpr ⟨address.index.val - patch.first.index.val, by omega, ?_⟩
      exact List.getElem?_eq_getElem _
    · rename_i outside
      rw [Option.eq_none_iff_forall_ne_some]
      intro value found
      obtain ⟨offset, distance, present⟩ := get?_eq_some_iff.mp found
      obtain ⟨within, -⟩ := List.getElem?_eq_some_iff.mp present
      exact outside (by omega)

end Patch

/-- A patch that fits is written as it is listed. Any other is refused. -/
theorem Driver.writePatch_eq (patch : Patch) :
    Driver.writePatch patch =
      if patch.Fits then Driver.writeEntries patch.listing
      else throw (.fault (.invalidAddress 0x80)) := by
  unfold Driver.writePatch
  rw [Patch.validate_eq, Patch.entries_eq]
  by_cases fits : patch.Fits
  · rw [if_pos fits, if_pos fits, if_pos fits]
    rfl
  · rw [if_neg fits, if_neg fits, if_neg fits]
    rfl

end NfcFrontend
