import NfcFrontend.Proofs.BusHistory
import NfcFrontend.Proofs.BusTransactions

/-!
# The record explains the registers

A register file can take the place of the chip only if its record can be believed. Whatever
transactions it is given, each register holds what the record says was written to it last, and
each access was answered by what the record says up to it. An aborted transaction is no
exception: the operation that ended it has been recorded and carried out, or neither.

`Explained` is the invariant. Answering an access keeps it, and nothing else that an operation
can do touches the registers or the record.
-/

namespace NfcFrontend

/-- The bytes an operation sends. -/
def Bus.Operation.sent? : Bus.Operation → Option (List UInt8)
  | .write sent | .transfer sent _ => some sent
  | .inPlace buffer => some buffer
  | .read _ | .delay _ => none

/-- The response to an access that the accesses before it call for: a register gives back what
was last written to it. -/
def Access.called (seed : Memory) (earlier : List Access) : Access → Frame
  | .read address => ⟨0, (Chip.lastWrite? address earlier).getD (seed.get address)⟩
  | .write _ _ => ⟨0, 0⟩

namespace RegisterFile

open Bus (Operation)

/-! ## Transactions in order -/

/-- The device after transactions, whether or not they are aborted. -/
def afterAll (file : RegisterFile) (transactions : List (List Operation)) : RegisterFile :=
  transactions.foldl (fun reached operations => (reached.transaction operations).file) file

/-- The response computed for the bytes of an operation. -/
def response? (file : RegisterFile) (operation : Operation) : Option Frame :=
  match operation.sent?.map file.exchange with
  | some (.ok (response, _)) => some response
  | _ => none

/-- The responses computed for operations in order, up to the first that breaks a contract. -/
def responses (file : RegisterFile) : List Operation → List Frame
  | [] => []
  | operation :: rest =>
    let performed := file.perform operation
    (file.response? operation).toList ++
      match performed.violation with
      | some _ => []
      | none => performed.file.responses rest

/-- The responses computed during transactions. -/
def responsesAll (file : RegisterFile) : List (List Operation) → List Frame
  | [] => []
  | operations :: later =>
    { file with transactions := file.transactions + 1 }.responses operations ++
      (file.transaction operations).file.responsesAll later

/-- An operation is answered, or it leaves the device as it is. -/
theorem perform_answered (file : RegisterFile) (operation : Operation) :
    (file.response? operation = none ∧ (file.perform operation).file = file) ∨
      ∃ access, file.response? operation = some (file.answer access).1 ∧
        (file.perform operation).file = (file.answer access).2 := by
  by_cases breaks : operation.Breaks
  · obtain ⟨violation, after, abort⟩ := exists_abort file breaks
    rw [abort.perform]
    cases abort with
    | read received => exact .inl ⟨rfl, rfl⟩
    | write sent unframed | transfer sent received unframed | inPlace sent unframed =>
      refine .inl ⟨?_, rfl⟩
      simp only [response?, Operation.sent?, Option.map_some, exchange_unframed file unframed]
    | overrun exchanged received long =>
      obtain ⟨-, rfl⟩ := exchanged.eq_answer
      exact .inr ⟨_, rfl, rfl⟩
  · obtain ⟨buffer, after, effect⟩ := exists_effect file breaks
    rw [effect.perform]
    cases effect with
    | write exchanged | transfer exchanged received fits | inPlace exchanged =>
      obtain ⟨-, rfl⟩ := exchanged.eq_answer
      exact .inr ⟨_, rfl, rfl⟩
    | delay duration => exact .inl ⟨rfl, rfl⟩

/-! ## The invariant -/

/-- Registers and responses so far are those that the record calls for. -/
structure Explained (seed : Memory) (file : RegisterFile) (responses : List Frame) : Prop where
  registers : ∀ address, file.memory.get address =
    (Chip.lastWrite? address file.accesses).getD (seed.get address)
  counted : responses.length = file.accesses.length
  responded : ∀ before access after, file.accesses = before ++ access :: after →
    responses[before.length]? = some (access.called seed before)

variable {seed : Memory} {file : RegisterFile} {earlier : List Frame}

/-- A register file that has seen nothing holds its seed. -/
theorem explained_ofMemory (seed : Memory) : Explained seed (ofMemory seed) [] where
  registers _ := rfl
  counted := rfl
  responded before _ _ split := by cases before <;> cases split

/-- An access is answered as the record so far calls for, and is recorded with its effect. -/
theorem Explained.answer (explained : Explained seed file earlier) (access : Access) :
    Explained seed (file.answer access).2 (earlier ++ [(file.answer access).1]) where
  registers address := by
    rw [accesses_answer, Chip.lastWrite?_append]
    cases access with
    | read other => exact explained.registers address
    | write other value =>
      rw [memory_answer_write, Memory.get_set, explained.registers, Chip.lastWrite?_write]
      split
      · rfl
      · rfl
  counted := by
    rw [accesses_answer, List.length_append, List.length_append, explained.counted]
    rfl
  responded before other after split := by
    rw [accesses_answer] at split
    rcases List.eq_nil_or_concat after with rfl | ⟨later, last, rfl⟩
    · obtain ⟨rfl, equal⟩ := List.append_inj' split rfl
      obtain rfl : access = other := List.singleton_inj.mp equal
      rw [← explained.counted, List.getElem?_concat_length]
      cases access with
      | read address => rw [RegisterFile.answer, explained.registers address, Access.called]
      | write address value => rfl
    · have earlierSplit : file.accesses = before ++ other :: later := by
        rw [List.concat_eq_append, ← List.cons_append, ← List.append_assoc] at split
        exact (List.append_inj' split rfl).1
      have inside : before.length < earlier.length := by
        rw [explained.counted, earlierSplit]
        simp
      rw [List.getElem?_append_left inside]
      exact explained.responded before other later earlierSplit

/-- An operation keeps the record an explanation, since it is answered or leaves the device as it
is. -/
theorem Explained.perform (explained : Explained seed file earlier) (operation : Operation) :
    Explained seed (file.perform operation).file
      (earlier ++ (file.response? operation).toList) := by
  rcases perform_answered file operation with ⟨silent, same⟩ | ⟨access, response, left⟩
  · rw [silent, same, Option.toList_none, List.append_nil]
    exact explained
  · rw [response, left]
    exact explained.answer access

/-- So do operations in order, whether or not one of them breaks a contract: the device that the
last one left is explained. -/
theorem Explained.performAll (explained : Explained seed file earlier)
    (operations : List Operation) :
    Explained seed (file.performAll operations).file (earlier ++ file.responses operations) := by
  induction operations generalizing file earlier with
  | nil =>
    rw [responses, List.append_nil]
    exact explained
  | cons operation rest inductionHypothesis =>
    have first := explained.perform operation
    rw [RegisterFile.performAll, responses]
    cases ended : (file.perform operation).violation with
    | some violation =>
      dsimp only
      rw [List.append_nil]
      exact first
    | none =>
      dsimp only
      rw [← List.append_assoc]
      exact inductionHypothesis first

/-- The count is no part of what the record explains. -/
theorem Explained.recount (explained : Explained seed file earlier) (count : Nat) :
    Explained seed { file with transactions := count } earlier :=
  ⟨explained.registers, explained.counted, explained.responded⟩

/-- So does a transaction, which adds no more than its count. -/
theorem Explained.transaction (explained : Explained seed file earlier)
    (operations : List Operation) :
    Explained seed (file.transaction operations).file
      (earlier ++ { file with transactions := file.transactions + 1 }.responses operations) :=
  (explained.recount (file.transactions + 1)).performAll operations

/-- And so do transactions in order. By induction on them, with the device and its responses so
far left open. -/
theorem Explained.afterAll (explained : Explained seed file earlier)
    (transactions : List (List Operation)) :
    Explained seed (file.afterAll transactions) (earlier ++ file.responsesAll transactions) := by
  induction transactions generalizing file earlier with
  | nil =>
    rw [responsesAll, List.append_nil]
    exact explained
  | cons operations later inductionHypothesis =>
    rw [responsesAll, ← List.append_assoc]
    exact inductionHypothesis (explained.transaction operations)

/-- Every transaction is counted once, and an aborted one as well. -/
theorem transactions_afterAll (file : RegisterFile) (transactions : List (List Operation)) :
    (file.afterAll transactions).transactions = file.transactions + transactions.length := by
  induction transactions generalizing file with
  | nil => rfl
  | cons operations later inductionHypothesis =>
    have counted : (file.transaction operations).file.transactions = file.transactions + 1 :=
      transactions_performAll _ operations
    have rest := inductionHypothesis (file.transaction operations).file
    rw [counted, Nat.add_assoc, Nat.add_comm 1] at rest
    exact rest

/-- What has been written to a register stands in the record. -/
theorem writesTo_byte (file : RegisterFile) (address : Address) :
    file.writesTo address.byte = file.accesses.filterMap fun
      | .write written value => if written = address then some value else none
      | .read _ => none := by
  rw [writesTo]
  congr 1
  funext access
  cases access with
  | read other => rfl
  | write other value =>
    have same : other.byte = address.byte ↔ other = address :=
      ⟨Address.byte_injective, congrArg Address.byte⟩
    simp only [same]

/-- After any transactions, aborted ones among them, the record of a register file explains what
the registers hold and how every access was answered, and all the transactions have been counted.
A transaction cut short is one as well, so this holds in the midst of a transaction. No frame
leads outside the registers.

Proof: one operation keeps the explanation, whether it is carried out or aborted, hence so do a
transaction and a sequence of them. -/
theorem record_explains_registers (seed : Memory) (transactions : List (List Operation)) :
    let file := (ofMemory seed).afterAll transactions
    let responses := (ofMemory seed).responsesAll transactions
    (∀ address : Address,
      file.memory.get address =
        (file.writesTo address.byte).getLast?.getD (seed.get address) ∧
      file.writesTo address.byte = file.accesses.filterMap fun
        | .write written value => if written = address then some value else none
        | .read _ => none) ∧
    (responses.length = file.accesses.length ∧
      ∀ before access after, file.accesses = before ++ access :: after →
        responses[before.length]? = some (access.called seed before)) ∧
    file.transactions = transactions.length ∧
    ∀ first second : UInt8, (first >>> 1).toNat ≤ 0x7F ∧
      ∃ access : Access, access.address.byte = first >>> 1 ∧
        ∀ other : RegisterFile, other.exchange [first, second] = .ok (other.answer access) := by
  intro file responses
  have explained : Explained seed file responses := (explained_ofMemory seed).afterAll transactions
  refine ⟨?registers, ⟨explained.counted, explained.responded⟩, ?counted, ?inside⟩
  case registers =>
    intro address
    refine ⟨?_, writesTo_byte file address⟩
    rw [writesTo_byte]
    exact explained.registers address
  case counted =>
    have counted : file.transactions = 0 + transactions.length :=
      transactions_afterAll (ofMemory seed) transactions
    rw [counted, Nat.zero_add]
  case inside =>
    intro first second
    let frame : Frame := ⟨first, second⟩
    have named : frame.access.address.byte = first >>> 1 := frame.byte_access
    have bound : (first >>> 1).toNat ≤ 0x7F := by
      rw [← named]
      exact frame.access.address.byte_le
    exact ⟨bound, frame.access, named, fun _ => rfl⟩

/-- The write that an aborted transaction ends with is the one a later read gives back. -/
theorem record_explains_registers_aborted :
    let transactions : List (List Operation) :=
      [[.write [0x50, 0x8E], .transfer [0x50, 0x15] [0xEE, 0xEE, 0xEE], .read []],
        [.transfer [0x51, 0xDB] [0, 0]]]
    let file := (ofMemory .blank).afterAll transactions
    let before : List Access := [.write .drvMode 0x8E, .write .drvMode 0x15]
    file.accesses = before ++ .read .drvMode :: [] ∧
      ((ofMemory .blank).responsesAll transactions)[before.length]? =
        some ((Access.read .drvMode).called .blank before) ∧
      (Access.read .drvMode).called .blank before = ⟨0, 0x15⟩ := by
  intro transactions file before
  obtain ⟨-, ⟨-, responded⟩, -⟩ := record_explains_registers .blank transactions
  have recorded : file.accesses = before ++ .read .drvMode :: [] := rfl
  exact ⟨recorded, responded before _ [] recorded, rfl⟩

end RegisterFile

end NfcFrontend
