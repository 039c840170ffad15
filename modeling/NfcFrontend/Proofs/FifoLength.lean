import NfcFrontend.Bench.Basic
import NfcFrontend.Proofs.Attempts

/-!
# The FIFO length while bytes come in

The length of the larger FIFO does not fit a byte, so it is read in two parts, the low byte first.
Bytes that come in between the two reads may carry into the high part. The parts then belong to
different lengths, and put together they are a third one.

`Receiving` says what a chip shows of a FIFO that grows during the call, and leaves everything else
about it open. What is reported is the length at the first read and 256 bytes for every multiple of
256 that was passed since. It is never too small. It is too large exactly if a multiple was passed
and the low byte has not caught up again, and then the FIFO never held that many bytes.
-/

namespace NfcFrontend

namespace FifoMode

/-- A number of bytes that the FIFO can hold. -/
structure Fill (mode : FifoMode) where
  count : Nat
  fits : count ≤ mode.capacity

/-- A control byte shows the mode and the part of the length that does not fit the length byte. Its
other bits may be anything. -/
structure Fill.ShownBy {mode : FifoMode} (fill : mode.Fill) (control : UInt8) : Prop where
  size : control.toBitVec.getLsbD 7 = decide (mode = .small)
  high : mode = .large → (control &&& 3).toNat = fill.count / 256

/-- In the small mode the length byte is the length. In the large one the two low bits of the
control byte count in 256s. -/
theorem reportedLength_eq (length control : UInt8) :
    reportedLength length control =
      if control.toBitVec.getLsbD 7 then length.toNat
      else (control &&& 3).toNat * 256 + length.toNat := by
  have low : Field.fifoLength.get length = length := BitField.get_whole _ rfl length
  have high : Field.fifoLengthExt.get control = control &&& 3 := by
    simp [Field.fifoLengthExt, BitField.get, BitField.mask]
  have size : Field.fifoSize.test control = control.toBitVec.getLsbD 7 :=
    BitField.test_flag Field.fifoSize rfl control
  rw [reportedLength, low, high, size]

variable {mode : FifoMode} {before after : mode.Fill} {length control : UInt8}

/-- A low byte of one length and a high part of a later one. -/
theorem reportedLength_of_shown (grows : before.count ≤ after.count)
    (low : length.toNat = before.count % 256) (high : after.ShownBy control) :
    reportedLength length control =
      before.count + 256 * (after.count / 256 - before.count / 256) := by
  have fits := after.fits
  rw [reportedLength_eq, high.size, low]
  cases mode with
  | small =>
    have short : after.count ≤ 255 := fits
    simp only [decide_true, ↓reduceIte]
    omega
  | large =>
    have part : (control &&& 3).toNat = after.count / 256 := high.high rfl
    simp only [reduceCtorEq, decide_false, Bool.false_eq_true, ↓reduceIte, part]
    omega

end FifoMode

/-- A bench whose length register and control register each take a value just before they are
read. -/
def Bench.showing (length control : UInt8) : Bench :=
  .ofDevice (.registers (.ofMemory .blank)) fun address =>
    if address = .fifoLength then [length]
    else if address = .fifoControl then [control]
    else []

namespace Driver

open NfcFrontend.Action

variable {σ : Type} {chip : Server Chip.Reply σ} {state : σ} {mode : FifoMode}
  {before after : mode.Fill}

/-- The chip has a FIFO that does not shrink while its length is asked for, and stays in its mode.
Reads that are answered show what it holds at that time. -/
structure Receiving (chip : Server Chip.Reply σ) (state : σ) (before after : mode.Fill) :
    Prop where
  grows : before.count ≤ after.count
  length : ∀ response, (chip (.access (.read .fifoLength)) state).1 = some response →
    response.second.toNat = before.count % 256
  control : ∀ response,
    (chip (.access (.read .fifoControl)) (chip (.access (.read .fifoLength)) state).2).1 =
      some response → after.ShownBy response.second

/-- The length is asked for in two reads, of which the second is made after the first was
answered. The answers to both make up what is reported. -/
theorem run_fifoLength (chip : Server Chip.Reply σ) (state : σ) :
    let first : Chip.Call := .access (.read .fifoLength)
    let second : Chip.Call := .access (.read .fifoControl)
    let run := Program.run chip fifoLength.run state
    match (chip first state).1, (chip second (chip first state).2).1 with
    | none, _ => run.result = .error (.fault .spi) ∧ run.exchanges = [⟨first, none⟩]
    | some low, none => run.result = .error (.fault .spi) ∧
        run.exchanges = [⟨first, some low⟩, ⟨second, none⟩]
    | some low, some high =>
        run.result = .ok (FifoMode.reportedLength low.second high.second) ∧
        run.exchanges = [⟨first, some low⟩, ⟨second, some high⟩] := by
  have reading : fifoLength = Driver.access (.read .fifoLength) >>= fun length =>
      Driver.access (.read .fifoControl) >>= fun control =>
        pure (FifoMode.reportedLength length control) := rfl
  dsimp only
  rw [reading]
  cases low : (chip (.access (.read .fifoLength)) state).1 with
  | none =>
    rw [run_bind_of_error (run_access_unanswered _ _ low)]
    exact ⟨rfl, rfl⟩
  | some length =>
    rw [run_bind_of_ok (run_access_answered _ _ low)]
    cases high : (chip (.access (.read .fifoControl))
        (chip (.access (.read .fifoLength)) state).2).1 with
    | none =>
      rw [run_bind_of_error (run_access_unanswered _ _ high)]
      exact ⟨rfl, rfl⟩
    | some control =>
      rw [run_bind_of_ok (run_access_answered _ _ high)]
      exact ⟨rfl, rfl⟩

/-- What is reported of a FIFO that grows during the call. Either a read fails, which ends the call,
or both are answered and the report is the length at the first read with 256 bytes for every
multiple of 256 passed before the second. It is at least the length at the first read, and it is
that length if no multiple was passed. It exceeds the length at the second read if one was passed
and the low byte is still behind.

Proof: the two reads are followed. Low byte and high bits are quotient and remainder by 256 of two
counts, of which the second is no smaller. -/
theorem fifoLength_exact (receiving : Receiving chip state before after) :
    let first : Chip.Call := .access (.read .fifoLength)
    let second : Chip.Call := .access (.read .fifoControl)
    let run := Program.run chip fifoLength.run state
    (run.result = .error (.fault .spi) ∧
      (run.exchanges = [⟨first, none⟩] ∨
        ∃ low, run.exchanges = [⟨first, some low⟩, ⟨second, none⟩])) ∨
    ∃ low high number, run.exchanges = [⟨first, some low⟩, ⟨second, some high⟩] ∧
      run.result = .ok number ∧
      number = before.count + 256 * (after.count / 256 - before.count / 256) ∧
      before.count ≤ number ∧
      (number = before.count ↔ before.count / 256 = after.count / 256) ∧
      (number ≤ after.count ↔ before.count / 256 = after.count / 256 ∨
        before.count % 256 ≤ after.count % 256) := by
  intro first second run
  have grows := receiving.grows
  have ran := run_fifoLength chip state
  dsimp only at ran
  cases low : (chip first state).1 with
  | none =>
    rw [low] at ran
    exact .inl ⟨ran.1, .inl ran.2⟩
  | some length =>
    cases high : (chip second (chip first state).2).1 with
    | none =>
      rw [low, high] at ran
      exact .inl ⟨ran.1, .inr ⟨length, ran.2⟩⟩
    | some control =>
      rw [low, high] at ran
      have reported := FifoMode.reportedLength_of_shown grows (receiving.length length low)
        (receiving.control control high)
      refine .inr ⟨length, control, _, ran.2, ran.1, reported, ?_, ?_, ?_⟩
      · omega
      · omega
      · omega

/-- A bench may stand for a growing FIFO: its two registers show what the FIFO holds at the time. -/
theorem receiving_showing {length control : UInt8} (grows : before.count ≤ after.count)
    (low : length.toNat = before.count % 256) (high : after.ShownBy control) :
    Receiving (Bench.serve .smooth) (.showing length control) before after where
  grows := grows
  length response answered := by
    obtain rfl : response = ⟨0, length⟩ := (Option.some.inj answered).symm
    exact low
  control response answered := by
    obtain rfl : response = ⟨0, control⟩ := (Option.some.inj answered).symm
    exact high

/-- Between the two reads the larger FIFO grows from 255 to 511 bytes. The low byte is the same
again, so the report is right. -/
theorem fifoLength_exact_caught_up :
    let chip := Bench.serve .smooth
    let bench := Bench.showing 0xFF 0x01
    let before : FifoMode.large.Fill := ⟨255, by decide⟩
    let after : FifoMode.large.Fill := ⟨511, by decide⟩
    Receiving chip bench before after ∧
      ∃ number, (Program.run chip fifoLength.run bench).result = .ok number ∧
        before.count ≤ number ∧ number ≤ after.count := by
  intro chip bench before after
  have receiving : Receiving chip bench before after :=
    receiving_showing (by decide) rfl ⟨rfl, fun _ => by simp [after]⟩
  rcases fifoLength_exact receiving with
    ⟨failed, -⟩ | ⟨low, high, number, -, returned, -, least, -, most⟩
  · cases failed
  · exact ⟨receiving, number, returned, least, most.mpr (.inr (by decide))⟩

/-- Between the two reads the larger FIFO grows from 255 to 256 bytes, and 511 are reported. -/
theorem fifoLength_overshoots :
    let chip := Bench.serve .smooth
    let bench := Bench.showing 0xFF 0x01
    let before : FifoMode.large.Fill := ⟨255, by decide⟩
    let after : FifoMode.large.Fill := ⟨256, by decide⟩
    Receiving chip bench before after ∧
      ∃ number, (Program.run chip fifoLength.run bench).result = .ok number ∧
        ¬ (before.count ≤ number ∧ number ≤ after.count) := by
  intro chip bench before after
  have receiving : Receiving chip bench before after :=
    receiving_showing (by decide) rfl ⟨rfl, fun _ => by simp [after]⟩
  have returned : (Program.run chip fifoLength.run bench).result = .ok 511 := rfl
  exact ⟨receiving, 511, returned, by decide⟩

end Driver

end NfcFrontend
