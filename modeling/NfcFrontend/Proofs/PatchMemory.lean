import NfcFrontend.Proofs.PatchViews
import NfcFrontend.Proofs.PlannedMemory

/-!
# A patch is one memory update

Writing a patch replaces a block of registers and touches no other, provided that every write goes
through. A write that fails ends it, and the registers then hold the values in front of the
failure. Those are again a patch, a shorter one from the same register, so one law serves both.

A register holds what was last written to it. The listing of a patch names no register twice, so
that is the only value it has there, and lookup in the patch finds it. The failures are those of any
fail-stop program.
-/

namespace NfcFrontend

/-- The write of an entry. -/
def Access.ofEntry (entry : Address × UInt8) : Access := .write entry.1 entry.2

/-! ## Entries -/

namespace Chip

variable {entries : List (Address × UInt8)} {address : Address}

/-- Nothing is written to an address without an entry. -/
theorem lastWrite?_of_not_mem (absent : ∀ value, (address, value) ∉ entries) :
    lastWrite? address (entries.map Access.ofEntry) = none := by
  rw [lastWrite?, List.getLast?_eq_none_iff, List.filterMap_eq_nil_iff]
  intro access member
  obtain ⟨⟨written, value⟩, among, rfl⟩ := List.mem_map.mp member
  refine if_neg ?_
  rintro rfl
  exact absent value among

/-- Where no address has two entries, each is written its value. -/
theorem lastWrite?_of_mem (distinct : (entries.map Prod.fst).Nodup) {value : UInt8}
    (among : (address, value) ∈ entries) :
    lastWrite? address (entries.map Access.ofEntry) = some value := by
  obtain ⟨before, after, rfl⟩ := List.append_of_mem among
  rw [List.map_append, List.map_cons] at distinct
  have single := (List.nodup_cons.mp (List.nodup_append.mp distinct).2.1).1
  have absent : ∀ other, (address, other) ∉ after := fun other member =>
    single (List.mem_map.mpr ⟨(address, other), member, rfl⟩)
  have written : lastWrite? address [Access.ofEntry (address, value)] = some value :=
    (lastWrite?_write address address value).trans (if_pos rfl)
  rw [List.map_append, List.map_cons, ← List.singleton_append, lastWrite?_append,
    lastWrite?_append, lastWrite?_of_not_mem absent, written]
  rfl

end Chip

namespace Patch

variable {patch : Patch} {before after : Memory}

/-- The first values of a patch. -/
def take (patch : Patch) (count : Nat) : Patch := ⟨patch.first, patch.values.take count⟩

/-- A shorter patch fits where a longer one does. -/
theorem Fits.take (fits : patch.Fits) (count : Nat) : (patch.take count).Fits := by
  have shorter : (patch.values.take count).length ≤ patch.values.length :=
    List.length_take_le' count patch.values
  exact Nat.le_trans (Nat.add_le_add_left shorter _) fits

/-- The first values of a patch are listed first. -/
theorem listing_take (patch : Patch) (count : Nat) :
    (patch.take count).listing = patch.listing.take count := by
  apply List.ext_getElem?
  intro offset
  rw [getElem?_listing, take, List.getElem?_take, List.getElem?_take, getElem?_listing]
  split
  · rfl
  · rfl

/-- The registers of the patch hold its values, and all others what they held before. -/
structure Applied (patch : Patch) (before after : Memory) : Prop where
  written : ∀ (address : Address) (offset : Nat) (inside : offset < patch.values.length),
    address.index.val = patch.first.index.val + offset → after.get address = patch.values[offset]
  kept : ∀ address : Address,
    (∀ offset < patch.values.length, address.index.val ≠ patch.first.index.val + offset) →
      after.get address = before.get address

/-- Writing the entries of a patch leaves what lookup finds in it, or else the old byte. -/
theorem Fits.get_carryAll (fits : patch.Fits) (memory : Memory) (address : Address) :
    (memory.carryAll (patch.listing.map Access.ofEntry)).get address =
      (patch.get? address).getD (memory.get address) := by
  rw [Memory.get_carryAll]
  cases found : patch.get? address with
  | some value =>
    rw [Chip.lastWrite?_of_mem fits.nodup_listing (fits.mem_listing.mpr found)]
  | none =>
    rw [Chip.lastWrite?_of_not_mem]
    intro value among
    rw [fits.mem_listing, found] at among
    cases among

/-- Writing the entries of a patch that fits puts the patch in place. -/
theorem Fits.applied (fits : patch.Fits) (memory : Memory) :
    patch.Applied memory (memory.carryAll (patch.listing.map Access.ofEntry)) where
  written address offset inside distance := by
    have found : patch.get? address = some patch.values[offset] :=
      get?_eq_some_iff.mpr ⟨offset, distance, List.getElem?_eq_getElem inside⟩
    rw [fits.get_carryAll, found, Option.getD_some]
  kept address outside := by
    have missing : patch.get? address = none := by
      rw [Option.eq_none_iff_forall_ne_some]
      intro value found
      obtain ⟨offset, distance, present⟩ := get?_eq_some_iff.mp found
      obtain ⟨inside, -⟩ := List.getElem?_eq_some_iff.mp present
      exact outside offset inside distance
    rw [fits.get_carryAll, missing, Option.getD_none]

end Patch

/-! ## Writes -/

namespace Driver

variable {σ : Type}

/-- Entries are written in order, one access each. -/
theorem attempts_writeEntries (chip : Server Chip.Reply σ) (entries : List (Address × UInt8))
    (state : σ) :
    Action.Attempts (entries.map Access.ofEntry)
      (Program.run chip (writeEntries entries).run state) := by
  induction entries generalizing state with
  | nil => exact Action.attempts_pure chip () state
  | cons entry rest inductionHypothesis =>
    exact Action.attempts_bind (attempts_write chip state entry.1 entry.2) fun _ between =>
      inductionHypothesis between

end Driver

namespace Bench

variable {bench : Bench} {memory : Memory}

/-- A patch that fits is written as it is listed. Its values up to the first failure are stored. -/
theorem run_writePatch {patch : Patch} (fits : patch.Fits) (plan : Plan) (file : RegisterFile)
    (transactions pinCalls sends : Nat) :
    let start : Bench := ⟨.registers file, fun _ => [], transactions, pinCalls, sends⟩
    let run := Program.run (serve plan) (Driver.writePatch patch).run start
    let tried := (Chip.busTraffic run.exchanges).map Prod.fst
    match plan.firstFault transactions patch.values.length with
    | some position => run.result = .error (.fault .spi) ∧
        tried = (patch.listing.take (position + 1)).map Access.ofEntry ∧
        Plain run.state (file.memory.carryAll ((patch.take position).listing.map Access.ofEntry))
    | none => run.result = .ok () ∧ tried = patch.listing.map Access.ofEntry ∧
        Chip.Answered run.exchanges ∧
        Plain run.state (file.memory.carryAll (patch.listing.map Access.ofEntry)) := by
  intro start run tried
  have plain : Plain start file.memory := plain_registers file transactions pinCalls sends
  have written : run =
      Program.run (serve plan) (Driver.writeEntries patch.listing).run start := by
    simp only [run, Driver.writePatch_eq, if_pos fits]
  have stops : Action.FailStop (fun _ => False) (Driver.writeEntries patch.listing) :=
    Driver.failStop_writeEntries patch.listing
  have ended := run_accesses stops (fun chip => Driver.attempts_writeEntries chip patch.listing)
    plan file (fun _ => []) transactions pinCalls sends
  rw [List.length_map, Patch.length_listing] at ended
  dsimp only at ended
  rw [← written] at ended
  cases found : plan.firstFault transactions patch.values.length with
  | some position =>
    rw [found] at ended
    obtain ⟨faulted, made, chip⟩ := ended
    rw [← List.map_take] at made chip
    have left := (plain.carriedAll _).of_sameChip chip
    rw [← Patch.listing_take] at left
    exact ⟨faulted, made, left⟩
  | none =>
    rw [found] at ended
    obtain ⟨succeeded, made, answered, chip⟩ := ended
    exact ⟨succeeded, made, answered, (plain.carriedAll _).of_sameChip chip⟩

/-- Writing a patch to a register file, under any plan of failures. A patch that runs past the last
register is refused, and nothing happens. Any other is written entry by entry, in order. Once a
write fails, the fault is reported, and exactly the values in front of it are in place. If none
fails, the whole patch is in place, and a read at the address of any register returns what lookup
finds there in the patch, or what the register held before.

Proof: a patch that fits is written as its listing, and such a run of writes is planned. The listing
names no register twice, so lookup finds what the writes leave. -/
theorem writePatch_exact (patch : Patch) (plan : Plan) (file : RegisterFile)
    (transactions pinCalls sends : Nat) :
    let bench : Bench := ⟨.registers file, fun _ => [], transactions, pinCalls, sends⟩
    let run := Program.run (serve plan) (Driver.writePatch patch).run bench
    let tried := (Chip.busTraffic run.exchanges).map Prod.fst
    if 0x80 < patch.first.index.val + patch.values.length then
      run = ⟨.error (.fault (.invalidAddress 0x80)), [], bench⟩
    else
      ∃ entries after, patch.entries = .ok entries ∧ patch.Lists entries ∧
        run.state.device.memory? = some after ∧
        match plan.firstFault transactions patch.values.length with
        | some position =>
          run.result = .error (.fault .spi) ∧
            tried = (entries.take (position + 1)).map Access.ofEntry ∧
            (patch.take position).Applied file.memory after
        | none =>
          run.result = .ok () ∧ tried = entries.map Access.ofEntry ∧
            Chip.Answered run.exchanges ∧ patch.Applied file.memory after ∧
            ∀ address, (Program.run (serve plan) (Driver.read address).run run.state).result =
              if plan.busFails (transactions + patch.values.length) then .error (.fault .spi)
              else .ok ((patch.get? address).getD (file.memory.get address)) := by
  intro bench run tried
  by_cases fits : patch.Fits
  · have listed : patch.entries = .ok patch.listing := by rw [Patch.entries_eq, if_pos fits]
    have ended := run_writePatch fits plan file transactions pinCalls sends
    rw [if_neg (Nat.not_lt.mpr fits)]
    cases found : plan.firstFault transactions patch.values.length with
    | some position =>
      rw [found] at ended
      obtain ⟨faulted, made, left⟩ := ended
      exact ⟨patch.listing, _, listed, fits.lists, left.memory?, faulted, made,
        (fits.take position).applied file.memory⟩
    | none =>
      rw [found] at ended
      obtain ⟨succeeded, made, answered, left⟩ := ended
      refine ⟨patch.listing, _, listed, fits.lists, left.memory?, succeeded, made, answered,
        fits.applied file.memory, ?_⟩
      intro address
      have counted : run.state.transactions = transactions + patch.values.length := by
        have moved := transactions_run plan (Driver.writePatch patch).run bench
        have length := congrArg List.length made
        rw [List.length_map, List.length_map, Patch.length_listing] at length
        exact moved.trans (congrArg (transactions + ·) length)
      rw [left.run_read, fits.get_carryAll, counted]
  · rw [if_pos (Nat.lt_of_not_le fits)]
    simp only [run, Driver.writePatch_eq, if_neg fits]
    rfl

end Bench

end NfcFrontend
