import NfcFrontend.Driver.Sequence
import NfcFrontend.Traffic

/-!
# What reached the chip

A transaction that fails never reaches the chip. Of the traffic on the bus the chip has
seen the accesses that were answered, in order, and what it holds can only depend on
those. `carried` picks them out of the traffic, and `lastWrite?` is all that a plain
register remembers of them.
-/

namespace NfcFrontend

namespace Chip

/-- The accesses that reached the chip. -/
def carried (traffic : List (Access × Option Frame)) : List Access :=
  traffic.filterMap fun (access, answer) => answer.map fun _ => access

/-- Traffic in two parts carries out what the parts do, in order. -/
@[simp] theorem carried_append (first second : List (Access × Option Frame)) :
    carried (first ++ second) = carried first ++ carried second :=
  List.filterMap_append

/-- Where nothing failed, what was carried out is what was attempted. -/
theorem map_fst_of_answered {traffic : List (Access × Option Frame)}
    (answered : ∀ entry ∈ traffic, entry.2 ≠ none) : traffic.map Prod.fst = carried traffic := by
  induction traffic with
  | nil => rfl
  | cons entry later inductionHypothesis =>
    have rest := inductionHypothesis fun other member =>
      answered other (List.mem_cons_of_mem _ member)
    obtain ⟨access, answer⟩ := entry
    cases answer with
    | none => exact absurd rfl (answered (access, none) List.mem_cons_self)
    | some response => exact congrArg (access :: ·) rest

/-- The last access carried out is then the last one in the traffic. -/
theorem answered_last {traffic : List (Access × Option Frame)} {earlier : List Access}
    {access : Access} (answered : ∀ entry ∈ traffic, entry.2 ≠ none)
    (last : carried traffic = earlier ++ [access]) :
    ∃ (before : List (Access × Option Frame)) (response : Frame),
      traffic = before ++ [(access, some response)] := by
  rw [← map_fst_of_answered answered, List.map_eq_append_iff] at last
  obtain ⟨before, final, rfl, -, one⟩ := last
  obtain ⟨⟨_, answer⟩, rfl, rfl⟩ := List.map_eq_singleton_iff.mp one
  cases answer with
  | none => exact absurd rfl (answered _ (List.mem_append_right before List.mem_cons_self))
  | some response => exact ⟨before, response, rfl⟩

/-- The value last written to an address. -/
def lastWrite? (address : Address) (accesses : List Access) : Option UInt8 :=
  (accesses.filterMap fun
    | .write written value => if written = address then some value else none
    | .read _ => none).getLast?

/-- A write writes to its own address only. -/
theorem lastWrite?_write (address written : Address) (value : UInt8) :
    lastWrite? address [.write written value] = if address = written then some value else none := by
  by_cases same : address = written
  · simp [lastWrite?, same]
  · have different : written ≠ address := fun equal => same equal.symm
    simp [lastWrite?, same, different]

/-- Later writes come before earlier ones. -/
theorem lastWrite?_append (address : Address) (first second : List Access) :
    lastWrite? address (first ++ second) =
      (lastWrite? address second).or (lastWrite? address first) := by
  simp only [lastWrite?, List.filterMap_append, List.getLast?_append]

/-- What a register holds after two parts is what the second makes of what the first leaves. -/
theorem getD_lastWrite?_append (address : Address) (first second : List Access) (byte : UInt8) :
    (lastWrite? address (first ++ second)).getD byte =
      (lastWrite? address second).getD ((lastWrite? address first).getD byte) := by
  rw [lastWrite?_append]
  cases lastWrite? address second <;> rfl

end Chip

namespace Driver

/-- The bus traffic of a sequence of operations. -/
def traffic (records : List Record) : List (Access × Option Frame) :=
  records.flatMap fun record => Chip.busTraffic record.exchanges

/-- It is the traffic of all their exchanges together. -/
theorem traffic_eq (records : List Record) :
    traffic records = Chip.busTraffic (records.flatMap Record.exchanges) := by
  rw [traffic, Chip.busTraffic, List.filterMap_flatMap]
  rfl

end Driver

end NfcFrontend
