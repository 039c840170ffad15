import NfcFrontend.Proofs.FifoLength
import NfcFrontend.Proofs.RegisterChange

/-!
# Changing the FIFO mode

The mode is changed in two steps, each of which reads the control register and writes it back: the
FIFO is emptied, and the mode is selected in what the register shows by then. A failure between the
accesses therefore leaves the old mode, with or without the request to empty the FIFO. Once both
steps are done, the length is read the way the new mode counts it.
-/

namespace NfcFrontend

namespace FifoMode

/-- The top bit of the control byte tells the mode, and the other bits are old. -/
def Selected (mode : FifoMode) (old new : UInt8) : Prop :=
  ∀ position < 8, new.toBitVec.getLsbD position =
    if position = 7 then decide (mode = .small) else old.toBitVec.getLsbD position

/-- The setting that selects a mode writes bit 7 and keeps the rest, bit by bit. -/
theorem selected_apply (mode : FifoMode) (control : UInt8) :
    mode.Selected control ((Setting.fifoSize mode.sizeBit).apply control) := by
  intro position inside
  have written := BitField.getLsbD_set Field.fifoSize (if mode.sizeBit then 1 else 0) control
    position inside
  have applied : (Setting.fifoSize mode.sizeBit).apply control =
      Field.fifoSize.set (if mode.sizeBit then 1 else 0) control := rfl
  rw [applied, written]
  by_cases top : position = 7
  · subst top
    cases mode <;> rfl
  · have uncovered : Field.fifoSize.covers position = false :=
      (Field.fifoSize.covers_flag rfl position).trans (decide_eq_false top)
    simp [uncovered, top]

/-- A selected mode is the one the length is counted in. -/
theorem Selected.reportedLength {mode : FifoMode} {old control : UInt8}
    (selected : mode.Selected old control) (length : UInt8) :
    FifoMode.reportedLength length control =
      match mode with
      | .small => length.toNat
      | .large => ((control &&& 3).toNat <<< 8) ||| length.toNat := by
  have size : control.toBitVec.getLsbD 7 = decide (mode = .small) := selected 7 (by decide)
  rw [reportedLength_eq, size]
  cases mode with
  | small => rfl
  | large =>
    rw [← Nat.shiftLeft_add_eq_or_of_lt length.toNat_lt, Nat.shiftLeft_eq]
    rfl

end FifoMode

namespace Driver

open NfcFrontend.Action

variable {σ : Type} {chip : Server Chip.Reply σ} {state : σ}

/-- A change of mode that completes has made four accesses: it has read and flushed, and read and
selected. What it writes is made of what it was just answered. -/
theorem completes_setFifoMode {after : σ} {mode : FifoMode} {exchanges : List (Exchange Chip.Reply)}
    (completed : Completes chip (setFifoMode mode) state () exchanges after) :
    ∃ (first flushed second written : Frame) (content : UInt8),
      mode.Selected second.second content ∧
      exchanges = [⟨.access (.read .fifoControl), some first⟩,
        ⟨.access (.write .fifoControl (first.second ||| 0x10)), some flushed⟩,
        ⟨.access (.read .fifoControl), some second⟩,
        ⟨.access (.write .fifoControl content), some written⟩] := by
  obtain ⟨_, early, between, late, flushing, selecting, rfl⟩ := completes_bind completed
  obtain ⟨first, flushed, rfl⟩ := completes_modify flushing
  obtain ⟨second, written, rfl⟩ := completes_modify selecting
  refine ⟨first, flushed, second, written, _, mode.selected_apply second.second, ?_⟩
  rw [Setting.apply_fifoFlush]
  rfl

end Driver

namespace Bench

variable {bench : Bench} {memory : Memory}

/-- A failure leaves the old mode, and the request to empty the FIFO once that has been written. -/
theorem Plain.run_setFifoMode (plain : Plain bench memory) (plan : Plan) (mode : FifoMode) :
    let run := Program.run (serve plan) (Driver.setFifoMode mode).run bench
    let flushed := memory.get .fifoControl ||| 0x10
    match plan.firstFault bench.transactions 4 with
    | none => run.result = .ok () ∧ Plain run.state
        (memory.set .fifoControl ((Setting.fifoSize mode.sizeBit).apply flushed))
    | some position => run.result = .error (.fault .spi) ∧ Plain run.state
        (if position < 2 then memory else memory.set .fifoControl flushed) := by
  have changed := plain.run_modify_modify plan .fifoControl (Setting.fifoFlush true).apply
    (Setting.fifoSize mode.sizeBit).apply
  dsimp only at changed
  rw [Setting.apply_fifoFlush] at changed
  exact changed

/-- On plain registers the length is reported as they show it. -/
theorem Plain.run_fifoLength (plain : Plain bench memory) (plan : Plan) :
    (Program.run (serve plan) Driver.fifoLength.run bench).result =
      match plan.firstFault bench.transactions 2 with
      | none => .ok (FifoMode.reportedLength (memory.get .fifoLength) (memory.get .fifoControl))
      | some _ => .error (.fault .spi) := by
  have stops : Action.FailStop (fun _ => False) Driver.fifoLength := Driver.failStop_fifoLength
  have onBus : Chip.OnBus Driver.fifoLength.run :=
    Driver.onBus_bind (Driver.onBus_access _) fun _ =>
      Driver.onBus_bind (Driver.onBus_access _) fun _ => .done _
  have planned := plain.run_planned stops onBus plan 2 rfl
  dsimp only at planned ⊢
  cases found : plan.firstFault bench.transactions 2 with
  | none =>
    rw [found] at planned
    exact planned.result
  | some position =>
    rw [found] at planned
    exact planned.1

end Bench

namespace Driver

open NfcFrontend.Action
open Bench (serve Plain)

/-- The mode is changed. Against any chip this is a flush of the content first read and a selection
of the mode in the content read after that, or it stops at an access that got no answer. On plain
registers a failure leaves the mode as it was and at most requests a flush. If nothing fails, the
mode is selected, and the length is read as that mode counts it. No other register changes.

Proof: the change is fail-stop, so it suffices to know its four accesses when it completes. On plain
registers it is two changes of one register, and the length is read from what they leave. -/
theorem setFifoMode_exact (mode : FifoMode) :
    (∀ {σ : Type} (chip : Server Chip.Reply σ) (state : σ),
      let run := Program.run chip (setFifoMode mode).run state
      (run.result = .error (.fault .spi) ∧ ∃ earlier access,
        run.exchanges = earlier ++ [⟨.access access, none⟩] ∧ Chip.Answered earlier) ∨
      ∃ (first flushed second written : Frame) (content : UInt8), run.result = .ok () ∧
        mode.Selected second.second content ∧
        run.exchanges = [⟨.access (.read .fifoControl), some first⟩,
          ⟨.access (.write .fifoControl (first.second ||| 0x10)), some flushed⟩,
          ⟨.access (.read .fifoControl), some second⟩,
          ⟨.access (.write .fifoControl content), some written⟩]) ∧
    ∀ (plan : Plan) (file : RegisterFile) (transactions pinCalls sends : Nat),
      let bench : Bench := ⟨.registers file, fun _ => [], transactions, pinCalls, sends⟩
      let run := Program.run (serve plan) (setFifoMode mode).run bench
      let old := file.memory.get .fifoControl
      ∃ after, run.state.device.memory? = some after ∧
        (∀ address, address ≠ .fifoControl → after.get address = file.memory.get address) ∧
        match plan.firstFault transactions 4 with
        | some position => run.result = .error (.fault .spi) ∧
            after.get .fifoControl = if position < 2 then old else old ||| 0x10
        | none => run.result = .ok () ∧ mode.Selected (old ||| 0x10) (after.get .fifoControl) ∧
            (Program.run (serve plan) fifoLength.run run.state).result =
              match plan.firstFault (transactions + 4) 2, mode with
              | some _, _ => .error (.fault .spi)
              | none, .small => .ok (after.get .fifoLength).toNat
              | none, .large => .ok (((after.get .fifoControl &&& 3).toNat <<< 8) |||
                  (after.get .fifoLength).toNat) := by
  refine ⟨?_, ?_⟩
  · intro σ chip state run
    have stops : Action.FailStop (fun _ => False) (setFifoMode mode) := failStop_setFifoMode mode
    rcases stops.run_ended chip state with ⟨clear, -⟩ | ⟨reported, stopped⟩
    · cases result : run.result with
      | error stop =>
        rw [result] at clear
        exact clear.elim
      | ok done =>
        obtain ⟨first, flushed, second, written, content, selected, made⟩ :=
          completes_setFifoMode (completes_of_result result)
        exact .inr ⟨first, flushed, second, written, content, rfl, selected, made⟩
    · exact .inl ⟨reported, stopped⟩
  · intro plan file transactions pinCalls sends bench run old
    have plain : Plain bench file.memory := Bench.plain_registers file transactions pinCalls sends
    have ended := plain.run_setFifoMode plan mode
    dsimp only [bench] at ended
    cases found : plan.firstFault transactions 4 with
    | some position =>
      rw [found] at ended
      obtain ⟨failed, left⟩ := ended
      refine ⟨_, left.memory?, ?_, failed, ?_⟩
      · intro address other
        split
        · rfl
        · exact Memory.get_set_of_ne _ _ other
      · split
        · rfl
        · exact Memory.get_set_self _ _ _
    | none =>
      rw [found] at ended
      obtain ⟨succeeded, left⟩ := ended
      have counted : run.state.transactions = transactions + 4 := by
        obtain ⟨first, flushed, second, written, content, -, made⟩ :=
          completes_setFifoMode (completes_of_result succeeded)
        have moved := Bench.transactions_run plan (setFifoMode mode).run bench
        dsimp only at moved
        rw [made] at moved
        exact moved
      have selected := mode.selected_apply (old ||| 0x10)
      refine ⟨_, left.memory?, fun address other => Memory.get_set_of_ne _ _ other, succeeded, ?_⟩
      rw [left.run_fifoLength, counted, Memory.get_set_self, selected.reportedLength]
      refine ⟨selected, ?_⟩
      cases plan.firstFault (transactions + 4) 2 <;> cases mode <;> rfl

end Driver

end NfcFrontend
