import NfcFrontend.Bench.RegisterFile

/-!
# What is left of a bus transaction

The operations of a transaction are carried out in order. Whether one of them breaks a contract
shows in the operation itself, so the device has no say in where a transaction ends. The
operations before that one have their full effect, and those after it have none. The one itself
leaves nothing behind, with a single exception: that a receive buffer is too long is noticed only
when the frame has been answered.

`Effect` and `Abort` list all that an operation can come to. Where nothing is aborted, it makes
no difference but to the count how operations are divided into transactions.
-/

namespace NfcFrontend

namespace Bus.Operation

/-- The operation asks the device for more than the response to a frame. -/
def Breaks : Operation → Prop
  | .write sent => sent.length ≠ 2
  | .transfer sent received => sent.length ≠ 2 ∨ 2 < received.length
  | .inPlace buffer => buffer.length ≠ 2
  | .read _ => True
  | .delay _ => False

instance : DecidablePred Breaks
  | .write sent => inferInstanceAs (Decidable (sent.length ≠ 2))
  | .transfer sent received => inferInstanceAs (Decidable (sent.length ≠ 2 ∨ 2 < received.length))
  | .inPlace buffer => inferInstanceAs (Decidable (buffer.length ≠ 2))
  | .read _ => inferInstanceAs (Decidable True)
  | .delay _ => inferInstanceAs (Decidable False)

end Bus.Operation

namespace RegisterFile

open Bus (Operation)

variable {file between after : RegisterFile} {operation : Operation} {operations : List Operation}
  {buffer : List UInt8} {buffers : List (List UInt8)} {violation : Violation}

/-! ## One frame -/

/-- A frame of two bytes that has been exchanged for a response of two bytes, with the device it
leaves. The first byte names a register and tells the direction. The access is recorded; a read
is answered with what the register holds, and a write puts the second byte there. -/
inductive Exchanged (file : RegisterFile) (first second : UInt8) :
    List UInt8 → RegisterFile → Prop where
  | read (address : Address) (after : RegisterFile) (named : address.byte = first >>> 1)
      (direction : first &&& 1 = 1) (recorded : after.accesses = file.accesses ++ [.read address])
      (kept : ∀ other, after.memory.get other = file.memory.get other)
      (counted : after.transactions = file.transactions) :
      Exchanged file first second [0x00, file.memory.get address] after
  | write (address : Address) (after : RegisterFile) (named : address.byte = first >>> 1)
      (direction : first &&& 1 ≠ 1)
      (recorded : after.accesses = file.accesses ++ [.write address second])
      (stored : ∀ other, after.memory.get other =
        if other = address then second else file.memory.get other)
      (counted : after.transactions = file.transactions) :
      Exchanged file first second [0x00, 0x00] after

/-- Two bytes are a frame. -/
theorem exists_frame {sent : List UInt8} (framed : sent.length = 2) :
    ∃ frame : Frame, sent = frame.bytes := by
  match sent, framed with
  | [first, second], _ => exact ⟨⟨first, second⟩, rfl⟩

/-- A frame is answered. -/
theorem exchange_frame (file : RegisterFile) (frame : Frame) :
    file.exchange frame.bytes = .ok (file.answer frame.access) := rfl

/-- The answer to its access is what a frame is exchanged for. -/
theorem exchanged_answer (file : RegisterFile) (frame : Frame) :
    Exchanged file frame.first frame.second (file.answer frame.access).1.bytes
      (file.answer frame.access).2 := by
  have named := frame.byte_access
  unfold Frame.access at named ⊢
  by_cases read : frame.isRead = true
  · rw [if_pos read] at named ⊢
    have direction : frame.first &&& 1 = 1 := eq_of_beq read
    exact .read frame.address _ named direction (accesses_answer file _) (fun _ => rfl) rfl
  · rw [if_neg read] at named ⊢
    have direction : frame.first &&& 1 ≠ 1 := fun same => read (beq_iff_eq.mpr same)
    exact .write frame.address _ named direction (accesses_answer file _)
      (fun other => Memory.get_set file.memory frame.address other frame.second) rfl

/-- A device is determined by what its registers hold, by its record and by its count. -/
theorem eq_of_shown {one other : RegisterFile}
    (registers : ∀ address, one.memory.get address = other.memory.get address)
    (record : one.accesses = other.accesses) (count : one.transactions = other.transactions) :
    one = other := by
  obtain ⟨memory, log, transactions⟩ := one
  obtain ⟨_, _, _⟩ := other
  obtain rfl := Memory.ext registers
  obtain rfl := List.reverse_inj.mp record
  obtain rfl := count
  rfl

/-- A frame is exchanged for nothing but the answer to its access. -/
theorem Exchanged.eq_answer {first second : UInt8} {response : List UInt8}
    (exchanged : Exchanged file first second response after) :
    let access := (Frame.mk first second).access
    response = (file.answer access).1.bytes ∧ after = (file.answer access).2 := by
  -- Both describe the same frame, so they agree on its direction and on its register.
  have answered := exchanged_answer file ⟨first, second⟩
  dsimp only at answered ⊢
  generalize (file.answer (Frame.mk first second).access).1.bytes = bytes at answered ⊢
  generalize (file.answer (Frame.mk first second).access).2 = left at answered ⊢
  cases exchanged with
  | read address after named direction recorded kept counted =>
    cases answered with
    | write _ _ _ other => exact absurd direction other
    | read other _ same _ record stays count =>
      obtain rfl : address = other := Address.byte_injective (named.trans same.symm)
      refine ⟨rfl, eq_of_shown (fun other => ?_) (recorded.trans record.symm)
        (counted.trans count.symm)⟩
      rw [kept, stays]
  | write address after named direction recorded stored counted =>
    cases answered with
    | read _ _ _ other => exact absurd other direction
    | write other _ same _ record holds count =>
      obtain rfl : address = other := Address.byte_injective (named.trans same.symm)
      refine ⟨rfl, eq_of_shown (fun other => ?_) (recorded.trans record.symm)
        (counted.trans count.symm)⟩
      rw [stored, holds]

/-! ## One operation -/

/-- An operation that is carried out, with what is in its buffer then and the device it leaves. -/
inductive Effect (file : RegisterFile) : Operation → List UInt8 → RegisterFile → Prop where
  | write {first second : UInt8} {response : List UInt8} {after : RegisterFile}
      (exchanged : Exchanged file first second response after) :
      Effect file (.write [first, second]) [] after
  /-- The buffer takes as much of the response as it has room for. -/
  | transfer {first second : UInt8} {response : List UInt8} {after : RegisterFile}
      (exchanged : Exchanged file first second response after) (received : List UInt8)
      (fits : received.length ≤ 2) :
      Effect file (.transfer [first, second] received) (response.take received.length) after
  /-- The frame is exchanged as it was sent, and the response then takes its place. -/
  | inPlace {first second : UInt8} {response : List UInt8} {after : RegisterFile}
      (exchanged : Exchanged file first second response after) :
      Effect file (.inPlace [first, second]) response after
  | delay (duration : Nat) : Effect file (.delay duration) [] file

/-- An operation that ends the transaction, with the contract it breaks and the device it
leaves. -/
inductive Abort (file : RegisterFile) : Operation → Violation → RegisterFile → Prop where
  | read (received : List UInt8) : Abort file (.read received) .unframedRead file
  | write (sent : List UInt8) (unframed : sent.length ≠ 2) :
      Abort file (.write sent) .frameLength file
  | transfer (sent received : List UInt8) (unframed : sent.length ≠ 2) :
      Abort file (.transfer sent received) .frameLength file
  | inPlace (buffer : List UInt8) (unframed : buffer.length ≠ 2) :
      Abort file (.inPlace buffer) .frameLength file
  /-- The frame has been exchanged by the time the response does not fill the buffer. -/
  | overrun {first second : UInt8} {response : List UInt8} {after : RegisterFile}
      (exchanged : Exchanged file first second response after) (received : List UInt8)
      (long : 2 < received.length) :
      Abort file (.transfer [first, second] received) .receiveTooLong after

/-- Any other number of bytes is refused. -/
theorem exchange_unframed (file : RegisterFile) {sent : List UInt8} (unframed : sent.length ≠ 2) :
    file.exchange sent = .error .frameLength := by
  match sent, unframed with
  | [], _ | [_], _ | _ :: _ :: _ :: _, _ => rfl
  | [_, _], unframed => exact absurd rfl unframed

/-- The device carries an operation out like this. -/
theorem Effect.perform (effect : Effect file operation buffer after) :
    file.perform operation = ⟨none, buffer, after⟩ := by
  cases effect with
  | write exchanged | inPlace exchanged =>
    obtain ⟨rfl, rfl⟩ := exchanged.eq_answer
    rfl
  | transfer exchanged received fits =>
    obtain ⟨rfl, rfl⟩ := exchanged.eq_answer
    exact if_pos fits
  | delay duration => rfl

/-- The device stops at an operation like this. -/
theorem Abort.perform (abort : Abort file operation violation after) :
    file.perform operation = ⟨some violation, operation.buffer, after⟩ := by
  cases abort with
  | read received => rfl
  | write sent unframed | inPlace buffer unframed | transfer sent received unframed =>
    simp only [RegisterFile.perform, exchange_unframed file unframed, Operation.buffer]
  | overrun exchanged received long =>
    obtain ⟨-, rfl⟩ := exchanged.eq_answer
    exact if_neg (Nat.not_le.mpr long)

/-- An operation that breaks no contract is carried out. -/
theorem exists_effect (file : RegisterFile) (sound : ¬ operation.Breaks) :
    ∃ buffer after, Effect file operation buffer after := by
  cases operation with
  | write sent =>
    obtain ⟨frame, rfl⟩ := exists_frame (Decidable.not_not.mp sound)
    exact ⟨_, _, .write (exchanged_answer file frame)⟩
  | transfer sent received =>
    obtain ⟨framed, fits⟩ := not_or.mp sound
    obtain ⟨frame, rfl⟩ := exists_frame (Decidable.not_not.mp framed)
    exact ⟨_, _, .transfer (exchanged_answer file frame) received (Nat.not_lt.mp fits)⟩
  | inPlace buffer =>
    obtain ⟨frame, rfl⟩ := exists_frame (Decidable.not_not.mp sound)
    exact ⟨_, _, .inPlace (exchanged_answer file frame)⟩
  | read received => exact absurd trivial sound
  | delay duration => exact ⟨_, _, .delay duration⟩

/-- One that breaks a contract ends the transaction. -/
theorem exists_abort (file : RegisterFile) (breaks : operation.Breaks) :
    ∃ violation after, Abort file operation violation after := by
  cases operation with
  | write sent => exact ⟨_, _, .write sent breaks⟩
  | transfer sent received =>
    by_cases framed : sent.length = 2
    · obtain ⟨frame, rfl⟩ := exists_frame framed
      exact ⟨_, _, .overrun (exchanged_answer file frame) received
        (breaks.resolve_left (not_not_intro framed))⟩
    · exact ⟨_, _, .transfer sent received framed⟩
  | inPlace buffer => exact ⟨_, _, .inPlace buffer breaks⟩
  | read received => exact ⟨_, _, .read received⟩
  | delay duration => exact breaks.elim

/-! ## Operations in order -/

/-- Operations that are all carried out, with their buffers and the device they leave. -/
inductive Effects : RegisterFile → List Operation → List (List UInt8) → RegisterFile → Prop where
  | done (file : RegisterFile) : Effects file [] [] file
  | next {file between after : RegisterFile} {operation : Operation} {rest : List Operation}
      {buffer : List UInt8} {buffers : List (List UInt8)}
      (first : Effect file operation buffer between) (others : Effects between rest buffers after) :
      Effects file (operation :: rest) (buffer :: buffers) after

/-- Operations of which none breaks a contract are all carried out. By induction on them: each one
starts at the device the one before it has left. -/
theorem exists_effects (file : RegisterFile)
    (sound : ∀ operation ∈ operations, ¬ operation.Breaks) :
    ∃ buffers after, Effects file operations buffers after := by
  induction operations generalizing file with
  | nil => exact ⟨_, _, .done file⟩
  | cons operation rest inductionHypothesis =>
    obtain ⟨here, later⟩ := List.forall_mem_cons.mp sound
    obtain ⟨buffer, between, effect⟩ := exists_effect file here
    obtain ⟨buffers, after, effects⟩ := inductionHypothesis between later
    exact ⟨_, _, .next effect effects⟩

/-- Operations that are all carried out may have any others after them. -/
theorem Effects.performAll_append (effects : Effects file operations buffers between)
    (later : List Operation) :
    file.performAll (operations ++ later) =
      let settled := between.performAll later
      ⟨settled.violation, buffers ++ settled.buffers, settled.file⟩ := by
  induction effects with
  | done file => rfl
  | next first others inductionHypothesis =>
    rw [List.cons_append, RegisterFile.performAll, first.perform]
    dsimp only
    rw [inductionHypothesis, List.cons_append]

/-- The device carries such operations out with these buffers, and no contract is broken. -/
theorem Effects.performAll (effects : Effects file operations buffers after) :
    file.performAll operations = ⟨none, buffers, after⟩ := by
  have joined := effects.performAll_append []
  simpa only [List.append_nil, RegisterFile.performAll] using joined

/-- Nothing comes after an operation that ends the transaction. -/
theorem Abort.performAll (abort : Abort file operation violation after)
    (later : List Operation) :
    file.performAll (operation :: later) =
      ⟨some violation, operation.buffer :: later.map Operation.buffer, after⟩ := by
  rw [RegisterFile.performAll, abort.perform]

/-- Operations are all carried out exactly if none of them breaks a contract. -/
theorem performAll_completes_iff (file : RegisterFile) (operations : List Operation) :
    (file.performAll operations).violation = none ↔
      ∀ operation ∈ operations, ¬ operation.Breaks := by
  induction operations generalizing file with
  | nil => simp [performAll]
  | cons operation rest inductionHypothesis =>
    rw [List.forall_mem_cons]
    by_cases breaks : operation.Breaks
    · obtain ⟨violation, after, abort⟩ := exists_abort file breaks
      simp [abort.performAll, breaks]
    · obtain ⟨buffer, between, effect⟩ := exists_effect file breaks
      simp only [performAll, effect.perform, inductionHypothesis, breaks, not_false_eq_true,
        true_and]

/-! ## The count -/

/-- What is exchanged does not depend on the number of transactions. -/
theorem exchange_recount (file : RegisterFile) (sent : List UInt8) (count : Nat) :
    { file with transactions := count }.exchange sent =
      (file.exchange sent).map fun (response, after) =>
        (response, { after with transactions := count }) := by
  by_cases framed : sent.length = 2
  · obtain ⟨frame, rfl⟩ := exists_frame framed
    rw [exchange_frame, exchange_frame]
    cases frame.access <;> rfl
  · rw [exchange_unframed _ framed, exchange_unframed _ framed]
    rfl

/-- What an operation does is independent of the number of transactions. -/
theorem perform_recount (file : RegisterFile) (operation : Operation) (count : Nat) :
    { file with transactions := count }.perform operation =
      let performed := file.perform operation
      ⟨performed.violation, performed.buffer, { performed.file with transactions := count }⟩ := by
  cases operation with
  | write sent | inPlace sent =>
    simp only [perform, exchange_recount]
    cases file.exchange sent <;> rfl
  | transfer sent received =>
    simp only [perform, exchange_recount]
    cases file.exchange sent with
    | error violation => rfl
    | ok answered =>
      by_cases fits : received.length ≤ 2
      · simp only [Except.map, if_pos fits]
      · simp only [Except.map, if_neg fits]
  | read received | delay duration => rfl

/-- Nor does what becomes of operations in order. -/
theorem performAll_recount (file : RegisterFile) (operations : List Operation) (count : Nat) :
    { file with transactions := count }.performAll operations =
      let settled := file.performAll operations
      ⟨settled.violation, settled.buffers, { settled.file with transactions := count }⟩ := by
  induction operations generalizing file with
  | nil => rfl
  | cons operation rest inductionHypothesis =>
    rw [performAll, performAll, perform_recount]
    cases (file.perform operation).violation with
    | some violation => rfl
    | none =>
      dsimp only
      rw [inductionHypothesis]

/-- Operations leave the count as it is. -/
theorem transactions_performAll (file : RegisterFile) (operations : List Operation) :
    (file.performAll operations).file.transactions = file.transactions :=
  congrArg (fun settled => settled.file.transactions)
    (performAll_recount file operations file.transactions)

/-! ## Transactions -/

/-- A transaction is a batch of operations. Dividing it where nothing has been aborted changes
nothing but the count, by one. It is aborted exactly if it has an operation that breaks a contract;
those before the first such operation have had their effects, that operation is aborted, and the
buffers of those after it are as the caller passed them.

Proof: an induction over the operations. Each that keeps its contract has its effect and passes the
file on; one that breaks its contract is the end of it. -/
theorem transaction_exact (file : RegisterFile) :
    (∀ first second : List Operation, (file.transaction first).violation = none →
      let joined := file.transaction (first ++ second)
      let begun := file.transaction first
      let rest := begun.file.transaction second
      joined.file.memory = rest.file.memory ∧ joined.file.accesses = rest.file.accesses ∧
        joined.buffers = begun.buffers ++ rest.buffers ∧ joined.violation = rest.violation ∧
        rest.file.transactions = joined.file.transactions + 1) ∧
    (∀ operations : List Operation, (file.transaction operations).violation ≠ none ↔
      ∃ operation ∈ operations, operation.Breaks) ∧
    ∀ before : List Operation, (∀ operation ∈ before, ¬ operation.Breaks) →
      ∃ buffers reached,
        Effects { file with transactions := file.transactions + 1 } before buffers reached ∧
        file.transaction before = ⟨none, buffers, reached⟩ ∧
        ∀ (operation : Operation) (after : List Operation), operation.Breaks →
          ∃ violation left, Abort reached operation violation left ∧
            file.transaction (before ++ operation :: after) =
              ⟨some violation, buffers ++ operation.buffer :: after.map Operation.buffer,
                left⟩ := by
  refine ⟨?divided, ?aborted, ?settled⟩
  case divided =>
    intro first second completes joined begun rest
    obtain ⟨buffers, reached, effects⟩ := exists_effects
      { file with transactions := file.transactions + 1 }
      ((performAll_completes_iff _ first).mp completes)
    have halves : begun = ⟨none, buffers, reached⟩ := effects.performAll
    have whole : joined = _ := effects.performAll_append second
    have counted : rest = _ := performAll_recount begun.file second (begun.file.transactions + 1)
    rw [halves] at counted
    rw [whole, counted, halves, transactions_performAll]
    exact ⟨rfl, rfl, rfl, rfl, rfl⟩
  case aborted =>
    intro operations
    have completes := performAll_completes_iff
      { file with transactions := file.transactions + 1 } operations
    rw [transaction, Ne, completes]
    simp
  case settled =>
    intro before sound
    obtain ⟨buffers, reached, effects⟩ := exists_effects
      { file with transactions := file.transactions + 1 } sound
    refine ⟨buffers, reached, effects, effects.performAll, ?_⟩
    intro operation after breaks
    obtain ⟨violation, left, abort⟩ := exists_abort reached breaks
    refine ⟨violation, left, abort, ?_⟩
    rw [transaction, effects.performAll_append, abort.performAll]

/-- A transaction divided after a write, and one that is aborted by the operation after it. -/
theorem transaction_exact_overrun :
    let file := ofMemory .blank
    let stored : List Operation := [.inPlace [0x50, 0x8E]]
    let asked : List Operation := [.transfer [0x51, 0xDB] [0xEE]]
    let overrun : Operation := .transfer [0x50, 0x15] [0xEE, 0xEE, 0xEE]
    let once := file.transaction stored
    let twice := once.file.transaction asked
    (once.violation = none ∧ (file.transaction (stored ++ asked)).buffers = [[0, 0], [0]] ∧
      (file.transaction (stored ++ asked)).buffers = once.buffers ++ twice.buffers ∧
      twice.file.transactions = (file.transaction (stored ++ asked)).file.transactions + 1) ∧
    (∀ operation ∈ stored, ¬ operation.Breaks) ∧ overrun.Breaks ∧
    ∃ buffers reached violation left,
      Effects { file with transactions := 1 } stored buffers reached ∧
      Abort reached overrun violation left ∧
      file.transaction (stored ++ overrun :: asked) =
        ⟨some violation, buffers ++ overrun.buffer :: asked.map Operation.buffer, left⟩ := by
  intro file stored asked overrun once twice
  obtain ⟨divided, -, settled⟩ := transaction_exact file
  have completes : once.violation = none := rfl
  have sound : ∀ operation ∈ stored, ¬ operation.Breaks := by decide
  have breaks : overrun.Breaks := by decide
  obtain ⟨-, -, together, -, counted⟩ := divided stored asked completes
  obtain ⟨buffers, reached, effects, -, aborts⟩ := settled stored sound
  obtain ⟨violation, left, abort, ended⟩ := aborts overrun asked breaks
  exact ⟨⟨completes, rfl, together, counted⟩, sound, breaks, buffers, reached, violation, left,
    effects, abort, ended⟩

end RegisterFile

end NfcFrontend
