/-!
# Enumerations with byte codes

Opcodes, chip commands and protocols are closed lists of names, each with a
one-byte code. Looking a code up returns exactly the member that carries it;
wider integers are looked up at full width, so a value outside a byte is never
mistaken for its low bits.
-/

namespace NfcFrontend

/-- A closed list of named members with pairwise different codes. -/
class Coded (α : Type) where
  members : List α
  name : α → String
  code : α → UInt8
  complete : ∀ member : α, member ∈ members
  distinct : (members.map code).Nodup

namespace Coded

variable {α : Type} [Coded α]

/-- The member whose code is the byte. -/
def ofByte? (byte : UInt8) : Option α := members.find? (fun member => code member == byte)

/-- The member whose code is the integer; values that are no byte have none. -/
def ofInt? (value : Int) : Option α :=
  if 0 ≤ value ∧ value < 256 then ofByte? (UInt8.ofNat value.toNat) else none

/-- The member with the given name. -/
def ofName? (text : String) : Option α := members.find? (fun member => name member == text)

/-- Two members of a list whose codes are pairwise different agree when their
codes do. -/
theorem same_of_code {list : List α} (distinct : (list.map code).Nodup) {left right : α}
    (present : left ∈ list) (other : right ∈ list) (same : code left = code right) :
    left = right := by
  induction list with
  | nil => simp at present
  | cons head rest inductionHypothesis =>
    simp only [List.map_cons, List.nodup_cons, List.mem_map, not_exists, not_and] at distinct
    rcases List.mem_cons.mp present with rfl | later <;>
      rcases List.mem_cons.mp other with rfl | otherLater
    · rfl
    · exact absurd same.symm (distinct.1 right otherLater)
    · exact absurd same (distinct.1 left later)
    · exact inductionHypothesis distinct.2 later otherLater

/-- A code determines its member. -/
theorem code_injective {left right : α} (same : code left = code right) : left = right :=
  same_of_code Coded.distinct (Coded.complete left) (Coded.complete right) same

/-- Lookup succeeds exactly at the codes, and returns the member coded by the byte. -/
theorem ofByte?_eq_some_iff {byte : UInt8} {member : α} :
    ofByte? byte = some member ↔ code member = byte := by
  constructor
  · intro found
    simpa using List.find?_some found
  · intro coded
    cases found : (ofByte? byte : Option α) with
    | none =>
      have absent := List.find?_eq_none.mp found member (Coded.complete member)
      simp [coded] at absent
    | some other =>
      have otherCoded : code other = byte := by simpa using List.find?_some found
      rw [code_injective (otherCoded.trans coded.symm)]

/-- Lookup fails exactly at the bytes that code no member. -/
theorem ofByte?_eq_none_iff {byte : UInt8} :
    (ofByte? byte : Option α) = none ↔ ∀ member : α, code member ≠ byte := by
  simp only [Option.eq_none_iff_forall_ne_some, ne_eq, ofByte?_eq_some_iff]

/-- The code of a member is looked up to that member. -/
@[simp] theorem ofByte?_code (member : α) : ofByte? (code member) = some member :=
  ofByte?_eq_some_iff.mpr rfl

end Coded

end NfcFrontend
