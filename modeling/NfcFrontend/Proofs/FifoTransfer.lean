import NfcFrontend.Proofs.PlannedRuns

/-!
# Block transfers through the FIFO

A block goes through the data register one byte at a time, each byte by an access of its own. The
first access that fails ends the transfer. A block read has then put the bytes it received in front
of the buffer and left the rest of it alone.

`BlockRead` and `BlockWritten` say so of a run as a whole, against any chip, by the answers it got.
On a bench the plan tells how many there are. That transfers may be cut is a law about programs: a
transfer of two blocks in a row is the program that transfers the first and, after a success, the
second. Hence no chip can tell the two apart.
-/

namespace NfcFrontend

namespace Fifo

/-- A byte asked of the FIFO. -/
def pull (answer : Option Frame) : Exchange Chip.Reply := ⟨.access (.read .fifoData), answer⟩

/-- A byte given to the FIFO. -/
def push (byte : UInt8) (answer : Option Frame) : Exchange Chip.Reply :=
  ⟨.access (.write .fifoData byte), answer⟩

end Fifo

namespace Driver

open NfcFrontend.Action

variable {σ : Type}

/-! ## Runs -/

/-- What reading a block comes to, by the answers to the reads. -/
inductive BlockRead (buffer : List UInt8) :
    Run Chip.Reply σ (Except (Stop Fault) Unit × List UInt8) → Prop where
  /-- Every read was answered, and the buffer holds the answers. -/
  | whole (answers : List Frame) (after : σ) (length : answers.length = buffer.length) :
      BlockRead buffer
        ⟨(.ok (), answers.map Frame.second), answers.map (Fifo.pull ∘ some), after⟩
  /-- One more read was made after the answered ones, and it failed. -/
  | stopped (answers : List Frame) (after : σ) (length : answers.length < buffer.length) :
      BlockRead buffer
        ⟨(.error (.fault .spi), answers.map Frame.second ++ buffer.drop answers.length),
          answers.map (Fifo.pull ∘ some) ++ [Fifo.pull none], after⟩

/-- What writing a block comes to, by the answers to the writes. -/
inductive BlockWritten (block : List UInt8) :
    Run Chip.Reply σ (Except (Stop Fault) Unit) → Prop where
  /-- Every write was answered. -/
  | whole (answers : List Frame) (after : σ) (length : answers.length = block.length) :
      BlockWritten block
        ⟨.ok (), block.zipWith (fun byte answer => Fifo.push byte (some answer)) answers, after⟩
  /-- The byte after those whose writes were answered was tried as well, and failed. -/
  | stopped (answers : List Frame) (after : σ) (length : answers.length < block.length) :
      BlockWritten block
        ⟨.error (.fault .spi),
          block.zipWith (fun byte answer => Fifo.push byte (some answer)) answers ++
            [Fifo.push block[answers.length] none], after⟩

/-- A byte received in front of a block read makes it one of a longer buffer. -/
theorem BlockRead.received {rest : List UInt8}
    {run : Run Chip.Reply σ (Except (Stop Fault) Unit × List UInt8)} (later : BlockRead rest run)
    (old : UInt8) (response : Frame) :
    BlockRead (old :: rest)
      ⟨(run.result.1, response.second :: run.result.2),
        Fifo.pull (some response) :: run.exchanges, run.state⟩ := by
  cases later with
  | whole answers after length =>
    have longer : (response :: answers).length = (old :: rest).length := congrArg (· + 1) length
    exact .whole _ after longer
  | stopped answers after length =>
    have longer : (response :: answers).length < (old :: rest).length := Nat.succ_lt_succ length
    exact .stopped _ after longer

/-- So does a byte sent in front of a block write. -/
theorem BlockWritten.sent {rest : List UInt8} {run : Run Chip.Reply σ (Except (Stop Fault) Unit)}
    (later : BlockWritten rest run) (byte : UInt8) (response : Frame) :
    BlockWritten (byte :: rest)
      ⟨run.result, Fifo.push byte (some response) :: run.exchanges, run.state⟩ := by
  cases later with
  | whole answers after length =>
    have longer : (response :: answers).length = (byte :: rest).length := congrArg (· + 1) length
    exact .whole _ after longer
  | stopped answers after length =>
    have longer : (response :: answers).length < (byte :: rest).length := Nat.succ_lt_succ length
    exact .stopped _ after longer

/-- The induction is on the buffer. Its first place is filled before the rest is read. -/
theorem blockRead_fillBuffer (chip : Server Chip.Reply σ) (buffer : List UInt8) (state : σ) :
    BlockRead buffer ((fillBuffer buffer).run chip state) := by
  induction buffer generalizing state with
  | nil => exact .whole [] state rfl
  | cons old rest inductionHypothesis =>
    have reading : readRegister .fifoData = Driver.access (.read .fifoData) := rfl
    rw [fillBuffer, reading, Program.run_bind]
    rcases run_access_cases chip state (.read .fifoData) with
      ⟨after, unread⟩ | ⟨response, between, answered⟩
    · rw [unread]
      exact .stopped [] after (Nat.succ_pos rest.length)
    · rw [answered]
      dsimp only
      rw [Program.run_bind]
      have filled := (inductionHypothesis between).received old response
      simpa [Fifo.pull] using filled

/-- A block is written byte by byte against any chip. The induction is on the block: a byte that
was answered goes in front of what the rest comes to, and one that was not ends it. -/
theorem blockWritten_pushBytes (chip : Server Chip.Reply σ) (block : List UInt8) (state : σ) :
    BlockWritten block (Program.run chip (pushBytes block).run state) := by
  induction block generalizing state with
  | nil => exact .whole [] state rfl
  | cons byte rest inductionHypothesis =>
    have writing : pushBytes (byte :: rest) =
        Driver.access (.write .fifoData byte) >>= fun _ => pushBytes rest := by
      simp [pushBytes, writeRegister, write, Register.address]
    rw [writing]
    rcases run_access_cases chip state (.write .fifoData byte) with
      ⟨after, unanswered⟩ | ⟨response, between, answered⟩
    · have one : ([] : List Frame).length < (byte :: rest).length := Nat.succ_pos rest.length
      rw [run_bind_of_error unanswered]
      exact .stopped [] after one
    · rw [run_bind_of_ok answered]
      exact (inductionHypothesis between).sent byte response

/-! ## Blocks in a row -/

/-- Read two blocks, the second only after the first was read. -/
def readBoth (front back : List UInt8) :
    Program Chip.Reply (Except (Stop Fault) Unit × List UInt8) := do
  match ← readFifo front with
  | (.error stop, filled) => .done (.error stop, filled ++ back)
  | (.ok (), filled) =>
    let (verdict, rest) ← readFifo back
    .done (verdict, filled ++ rest)

/-- A buffer in two parts is filled part by part. When the first part is cut short, the second
keeps what the caller put there. -/
theorem fillBuffer_append (front back : List UInt8) :
    fillBuffer (front ++ back) = (do
      match ← fillBuffer front with
      | (.error stop, filled) => .done (.error stop, filled ++ back)
      | (.ok (), filled) =>
        let (verdict, rest) ← fillBuffer back
        .done (verdict, filled ++ rest)) := by
  induction front with
  | nil =>
    rw [fillBuffer, Program.done_bind]
    exact (Program.bind_done (fillBuffer back)).symm
  | cons old rest inductionHypothesis =>
    rw [List.cons_append, fillBuffer, fillBuffer, Program.bind_assoc]
    congr 1
    funext received
    cases received with
    | error stop => rfl
    | ok byte =>
      dsimp only
      rw [inductionHypothesis, Program.bind_assoc, Program.bind_assoc]
      congr 1
      funext ended
      obtain ⟨verdict, filled⟩ := ended
      cases verdict with
      | error stop => rfl
      | ok value =>
        dsimp only
        rw [Program.bind_assoc]
        rfl

/-- A block in two parts is written part by part. -/
theorem pushBytes_append (front back : List UInt8) :
    pushBytes (front ++ back) = (do pushBytes front; pushBytes back) := by
  induction front with
  | nil => simp [pushBytes]
  | cons byte rest inductionHypothesis =>
    rw [List.cons_append, pushBytes, pushBytes, inductionHypothesis, bind_assoc]

/-! ## Transfers on a bench -/

/-- Bytes pulled one by one are read accesses to the FIFO, each with its answer. -/
theorem busTraffic_pulls (answers : List Frame) :
    Chip.busTraffic (answers.map (Fifo.pull ∘ some)) =
      answers.map fun answer => (.read .fifoData, some answer) := by
  simp [Chip.busTraffic, Fifo.pull, List.filterMap_map, Function.comp_def]

/-- Bytes pushed one by one are write accesses to the FIFO, each with its answer. -/
theorem busTraffic_pushes (block : List UInt8) (answers : List Frame) :
    Chip.busTraffic (block.zipWith (fun byte answer => Fifo.push byte (some answer)) answers) =
      block.zipWith (fun byte answer => (.write .fifoData byte, some answer)) answers := by
  induction block generalizing answers with
  | nil => rfl
  | cons byte rest inductionHypothesis =>
    cases answers with
    | nil => rfl
    | cons answer later => exact congrArg (_ :: ·) (inductionHypothesis later)

/-- A block read that got every answer has filled the buffer. -/
theorem BlockRead.of_answered {buffer : List UInt8}
    {run : Run Chip.Reply σ (Except (Stop Fault) Unit × List UInt8)} (read : BlockRead buffer run)
    (answered : Chip.Answered run.exchanges) :
    run.result.1 = .ok () ∧ (Chip.busTraffic run.exchanges).length = buffer.length := by
  cases read with
  | whole answers after length =>
    refine ⟨rfl, ?_⟩
    rw [busTraffic_pulls, List.length_map, length]
  | stopped answers after length =>
    have failed : (Access.read .fifoData, none) ∈ Chip.busTraffic
        (answers.map (Fifo.pull ∘ some) ++ [Fifo.pull none]) := by
      rw [Chip.busTraffic_append]
      exact List.mem_append_right _ List.mem_cons_self
    exact absurd rfl (answered _ failed)

/-- So has a block write that got every answer written the block. -/
theorem BlockWritten.of_answered {block : List UInt8}
    {run : Run Chip.Reply σ (Except (Stop Fault) Unit)} (written : BlockWritten block run)
    (answered : Chip.Answered run.exchanges) :
    run.result = .ok () ∧ (Chip.busTraffic run.exchanges).length = block.length := by
  cases written with
  | whole answers after length =>
    refine ⟨rfl, ?_⟩
    rw [busTraffic_pushes, List.length_zipWith, length, Nat.min_self]
  | stopped answers after length =>
    have failed : (Access.write .fifoData block[answers.length], none) ∈ Chip.busTraffic
        (block.zipWith (fun byte answer => Fifo.push byte (some answer)) answers ++
          [Fifo.push block[answers.length] none]) := by
      rw [Chip.busTraffic_append]
      exact List.mem_append_right _ List.mem_cons_self
    exact absurd rfl (answered _ failed)

/-- The plan decides how much of a block is read. -/
theorem planned_fillBuffer (buffer : List UInt8) (plan : Plan) (file : RegisterFile)
    (script : Address → List UInt8) (transactions pinCalls sends : Nat) :
    let bench : Bench := ⟨.registers file, script, transactions, pinCalls, sends⟩
    let run := (fillBuffer buffer).run (Bench.serve plan) bench
    match plan.firstFault transactions buffer.length with
    | none => run.result.1 = .ok () ∧ (Chip.busTraffic run.exchanges).length = buffer.length
    | some position => run.result.1 = .error (.fault .spi) ∧
        (Chip.busTraffic run.exchanges).length = position + 1 := by
  have stops : Chip.FailStop (fun result => Faulted result.1)
      (fun result => Clear (fun _ => False) result.1) (fillBuffer buffer) :=
    failStop_fillBuffer buffer
  exact Bench.run_of_count (fun result => result.1 = .ok ()) stops
    (fun chip state => (blockRead_fillBuffer chip buffer state).of_answered)
    plan file script transactions pinCalls sends

/-- And how much of one is written. -/
theorem planned_pushBytes (block : List UInt8) (plan : Plan) (file : RegisterFile)
    (script : Address → List UInt8) (transactions pinCalls sends : Nat) :
    let bench : Bench := ⟨.registers file, script, transactions, pinCalls, sends⟩
    let run := Program.run (Bench.serve plan) (pushBytes block).run bench
    match plan.firstFault transactions block.length with
    | none => run.result = .ok () ∧ (Chip.busTraffic run.exchanges).length = block.length
    | some position => run.result = .error (.fault .spi) ∧
        (Chip.busTraffic run.exchanges).length = position + 1 := by
  have stops : FailStop (fun _ => False) (pushBytes block) := failStop_pushBytes block
  exact Bench.run_of_count (fun result => result = .ok ()) stops
    (fun chip state => (blockWritten_pushBytes chip block state).of_answered)
    plan file script transactions pinCalls sends

/-- Blocks that fit the larger FIFO go through byte by byte. Against any chip, a transfer makes one
access for each byte up to the first that fails, and reports it; a block read has put exactly the
bytes it was answered with in front of the buffer. On a bench that is the first transaction the
plan fails. A block of two parts is transferred as the first part and then, if that succeeded, the
second.

Proof: an induction over the block, in which a failed access ends the transfer where it stands. On a
bench the transfer is fail-stop, so the plan tells where that is. -/
theorem transfers_exact (block : List UInt8) (fits : block.length ≤ FifoMode.large.capacity) :
    (∀ {σ : Type} (chip : Server Chip.Reply σ) (state : σ),
      BlockRead block ((readFifo block).run chip state) ∧
        BlockWritten block (Program.run chip (writeFifo block).run state)) ∧
    (∀ (plan : Plan) (file : RegisterFile) (script : Address → List UInt8)
        (transactions pinCalls sends : Nat),
      let bench : Bench := ⟨.registers file, script, transactions, pinCalls, sends⟩
      let read := (readFifo block).run (Bench.serve plan) bench
      let written := Program.run (Bench.serve plan) (writeFifo block).run bench
      match plan.firstFault transactions block.length with
      | none => read.result.1 = .ok () ∧ written.result = .ok ()
      | some position =>
        (read.result.1 = .error (.fault .spi) ∧
          (Chip.busTraffic read.exchanges).length = position + 1) ∧
        written.result = .error (.fault .spi) ∧
          (Chip.busTraffic written.exchanges).length = position + 1) ∧
    ∀ front back, block = front ++ back →
      readFifo block = readBoth front back ∧
        writeFifo block = (do writeFifo front; writeFifo back) := by
  have reading : readFifo block = fillBuffer block := if_pos fits
  have writing : writeFifo block = pushBytes block := if_pos fits
  rw [reading, writing]
  refine ⟨?_, ?_, ?_⟩
  · intro σ chip state
    exact ⟨blockRead_fillBuffer chip block state, blockWritten_pushBytes chip block state⟩
  · intro plan file script transactions pinCalls sends bench read written
    have received := planned_fillBuffer block plan file script transactions pinCalls sends
    have sent := planned_pushBytes block plan file script transactions pinCalls sends
    cases found : plan.firstFault transactions block.length with
    | none =>
      rw [found] at received sent
      exact ⟨received.1, sent.1⟩
    | some position =>
      rw [found] at received sent
      exact ⟨received, sent⟩
  · rintro front back rfl
    rw [List.length_append] at fits
    have first : front.length ≤ FifoMode.large.capacity := Nat.le_trans (Nat.le_add_right _ _) fits
    have second : back.length ≤ FifoMode.large.capacity := Nat.le_trans (Nat.le_add_left _ _) fits
    refine ⟨?_, ?_⟩
    · rw [fillBuffer_append, readBoth, readFifo, readFifo, if_pos first, if_pos second]
    · rw [pushBytes_append, writeFifo, writeFifo, if_pos first, if_pos second]

/-- The third of three reads fails. Two bytes have come in by then, and the last place of the
buffer is as it was. -/
theorem transfers_exact_interrupted :
    let block : List UInt8 := [0xA0, 0xA1, 0xA2]
    let plan : Plan := { Plan.smooth with busFails := fun position => position == 2 }
    let script : Address → List UInt8 := fun address =>
      if address = .fifoData then [0x01, 0x02, 0x03] else []
    let run := (readFifo block).run (Bench.serve plan)
      (.ofDevice (.registers (.ofMemory .blank)) script)
    block.length ≤ FifoMode.large.capacity ∧ BlockRead block run ∧
      run.result = (.error (.fault .spi), [0x01, 0x02, 0xA2]) ∧
      readFifo block = readBoth [0xA0] [0xA1, 0xA2] := by
  intro block plan script run
  have fits : block.length ≤ FifoMode.large.capacity := by decide
  obtain ⟨ran, -, cut⟩ := transfers_exact block fits
  exact ⟨fits, (ran _ _).1, rfl, (cut [0xA0] [0xA1, 0xA2] rfl).1⟩

end Driver

end NfcFrontend
