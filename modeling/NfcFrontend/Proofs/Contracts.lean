import Mathlib.Data.List.Forall2
import NfcFrontend.Proofs.ByteOutcome
import NfcFrontend.Proofs.FaultPlan

/-!
# Contracts are kept

Some steps of the driver and of the bridge are only allowed on a condition that another step
has to establish: a patch is listed after it was validated, a request is built of as many
parameters as its opcode takes, a frame is two bytes long, and the byte arithmetic of addresses
must not wrap. A caller can break one contract only, by transferring a block that is longer
than any FIFO, and then nothing has happened yet.

`Kept` says so of an operation and its record. For scenarios the invariant is that the session
is sound, which every event preserves.
-/

namespace NfcFrontend

/-! ## Operations -/

namespace Driver

variable {σ : Type}

/-- The buffer a caller passes to an operation. -/
def Op.buffer : Op → List UInt8
  | .readFifo buffer => buffer
  | _ => []

/-- An operation breaks a contract exactly when its block is too long. It then has asked nothing
of the chip, and the caller's buffer is as it was. -/
structure Kept (operation : Op) (record : Record) : Prop where
  aborts : ∀ violation,
    record.outcome.verdict = .error (.abort violation) ↔ operation.breaks violation
  untouched : operation.Oversized →
    record.exchanges = [] ∧ record.outcome.buffer = operation.buffer

/-- A block that is too long is refused, whatever the chip. -/
theorem operate_oversized (chip : Server Chip.Reply σ) {operation : Op}
    (oversized : operation.Oversized) (state : σ) :
    operate chip operation state =
      (⟨⟨.error (.abort .transferTooLong), operation.buffer⟩, []⟩, state) := by
  cases operation with
  | writeFifo block =>
    rw [operate, Op.program, writeFifo, if_neg (Nat.not_le.mpr oversized)]
    rfl
  | readFifo buffer =>
    rw [operate, Op.program, readFifo, if_neg (Nat.not_le.mpr oversized)]
    rfl
  | _ => exact oversized.elim

/-- An operation keeps the contracts on any chip: its program is fail-stop, and only an oversized
block ends it with a violation. -/
theorem operate_kept (chip : Server Chip.Reply σ) (operation : Op) (state : σ) :
    Kept operation (operate chip operation state).1 := by
  constructor
  · intro violation
    constructor
    · intro aborted
      rcases (failStop_operation operation).run_ended chip state with ⟨clear, -⟩ | ⟨faulted, -⟩
      · rw [Outcome.Clear] at clear
        have same : (Program.run chip operation.program state).result.verdict =
            .error (.abort violation) := aborted
        rw [same] at clear
        exact clear
      · cases faulted.symm.trans aborted
    · rintro ⟨rfl, oversized⟩
      rw [operate_oversized chip oversized]
  · intro oversized
    rw [operate_oversized chip oversized]
    exact ⟨rfl, rfl⟩

/-- So do operations in order, each with a record of its own. -/
theorem operateAll_kept (chip : Server Chip.Reply σ) (operations : List Op) (state : σ) :
    List.Forall₂ Kept operations (operateAll chip operations state).1 := by
  induction operations generalizing state with
  | nil => exact .nil
  | cons operation rest inductionHypothesis =>
    exact .cons (operate_kept chip operation state) (inductionHypothesis _)

end Driver

/-! ## Scenarios -/

namespace Host

variable {σ : Type}

/-- An event of the bridge breaks no contract, and after a restart each operation keeps its own. -/
def Event.Kept : Event → Record → Prop
  | .restart operations, .restart records => List.Forall₂ Driver.Kept operations records
  | .byte _, .bridge record | .tick, .bridge record | .push _, .bridge record =>
    ∀ violation, record.report ≠ .error (.abort violation)
  | _, _ => False

namespace Bridge

/-- A byte is processed without breaking a contract, and leaves a sound session. -/
theorem process_kept (world : World σ) {session : Connection} (sound : session.Sound)
    (byte : UInt8) (surroundings : Queue × σ) :
    let run := (process session byte).run world.serve surroundings
    (∀ violation, run.result.1 ≠ .error (.abort violation)) ∧ run.result.2.Sound := by
  obtain ⟨queue, state⟩ := surroundings
  obtain ⟨report, exchanges, after, ran, reaction⟩ :=
    react_reaction world session sound byte queue state
  obtain ⟨step, next, accepted, moved⟩ := session.accept_accepted sound byte
  rw [run_process, ran, accepted]
  refine ⟨?_, moved.sound⟩
  rintro violation rfl
  cases (reaction.failed (by simp)).1

/-- So is a poll, whether or not there is a byte. -/
theorem tick_kept (world : World σ) {session : Connection} (sound : session.Sound)
    (surroundings : Queue × σ) :
    let run := (tick session).run world.serve surroundings
    (∀ violation, run.result.1 ≠ .error (.abort violation)) ∧ run.result.2.Sound := by
  rw [tick, Program.run_ask]
  cases (world.serve .poll surroundings).1 with
  | none => exact ⟨by simp, sound⟩
  | some byte => exact process_kept world sound byte _

end Bridge

namespace Scene

/-- An event keeps the contracts and leaves the session sound. A byte and a poll do so by the step
of a sound session, a restart by its operations. -/
theorem happen_kept (world : World σ) (event : Event) {scene : Scene σ}
    (sound : scene.session.Sound) :
    event.Kept (scene.happen world event).1 ∧ (scene.happen world event).2.session.Sound := by
  cases event with
  | byte byte => exact Bridge.process_kept world sound byte (scene.queue, scene.state)
  | tick => exact Bridge.tick_kept world sound (scene.queue, scene.state)
  | push places => exact ⟨by simp [Event.Kept, happen], sound⟩
  | restart operations =>
    exact ⟨Driver.operateAll_kept world.chip operations scene.state, Session.sound_fresh⟩

/-- Whatever happens, the session stays sound. -/
theorem sound_play (world : World σ) (events : List Event) {scene : Scene σ}
    (sound : scene.session.Sound) : (scene.play world events).2.session.Sound := by
  induction events generalizing scene with
  | nil => exact sound
  | cons event rest inductionHypothesis =>
    exact inductionHypothesis (happen_kept world event sound).2

/-- A scenario keeps the contracts at every event. By induction on the events, with soundness of
the session as the invariant. -/
theorem play_kept (world : World σ) (events : List Event) {scene : Scene σ}
    (sound : scene.session.Sound) :
    List.Forall₂ Event.Kept events (scene.play world events).1 := by
  induction events generalizing scene with
  | nil => exact .nil
  | cons event rest inductionHypothesis =>
    obtain ⟨kept, still⟩ := happen_kept world event sound
    exact .cons kept (inductionHypothesis still)

end Scene

end Host

/-! ## Byte arithmetic -/

/-- In a valid patch no offset is cut off, and no address wraps. -/
theorem Patch.offset_exact {patch : Patch} (valid : patch.validate = .ok ()) {offset : Nat}
    (inside : offset < patch.values.length) :
    (UInt8.ofNat offset).toNat = offset ∧
      (patch.first.byte + UInt8.ofNat offset).toNat = patch.first.byte.toNat + offset := by
  have within : patch.first.index.val + patch.values.length ≤ 128 := by
    unfold validate at valid
    split at valid
    · cases valid
    · exact Nat.not_lt.mp ‹_›
  have number : patch.first.byte.toNat = patch.first.index.val := Address.toNat_byte patch.first
  have small : (UInt8.ofNat offset).toNat = offset := by
    rw [UInt8.toNat_ofNat']
    omega
  refine ⟨small, ?_⟩
  rw [UInt8.toNat_add, small]
  omega

/-- The first byte of a frame holds the whole address, above the direction bit. -/
theorem Access.first_exact (access : Access) :
    access.frame.first.toNat = 2 * access.address.byte.toNat +
      match access with
      | .read _ => 1
      | .write _ _ => 0 := by
  have shifted (address : Address) : (address.byte <<< 1).toNat = 2 * address.byte.toNat ∧
      ((address.byte <<< 1) ||| Frame.readBit).toNat = 2 * address.byte.toNat + 1 := by
    obtain ⟨index⟩ := address
    revert index
    decide
  cases access with
  | read address => exact (shifted address).2
  | write address value => exact (shifted address).1

/-- No device aborts the transaction of an access. -/
theorem Device.transaction_access (device : Device) (access : Access) (violation : Violation) :
    (device.transaction [.transfer access.frame.bytes [0, 0]]).verdict ≠ .aborted violation := by
  cases device with
  | failing transactions => simp [transaction]
  | registers file =>
    have settled : (file.transaction [.transfer access.frame.bytes [0, 0]]).violation = none := rfl
    simp [transaction, settled]

/-- On a bench with a register file, whatever it holds and takes from scripts, an access goes
unanswered only where the plan says so. -/
theorem Bench.transfer_eq_none_iff (plan : Plan) (file : RegisterFile)
    (script : Address → List UInt8) (transactions pinCalls sends : Nat) (access : Access) :
    ((⟨.registers file, script, transactions, pinCalls, sends⟩ : Bench).transfer plan
      access.frame).1 = none ↔ plan.busFails transactions = true := by
  cases fails : plan.busFails transactions with
  | true =>
    rw [transfer_failed access.frame fails]
    simp
  | false =>
    obtain ⟨response, after, left, exchanged⟩ := transfer_registers file script access.frame
    rw [exchanged plan transactions pinCalls sends fails]
    simp

/-! ## All contracts together -/

open Driver (Op operate operateAll)

/-- Whatever the driver and the bridge are asked, and however chip and link behave, no contract is
broken but by a block that is too long, and that is noticed before anything has happened.

Proof: an operation breaks off only with a violation that its parts allow, whatever the answers, and
all of these but the check of a block's length are excluded. Scenarios keep the session sound, and a
sound session breaks no contract. -/
theorem contracts_kept {σ : Type} :
    (∀ (chip : Server Chip.Reply σ) (operations : List Op) (state : σ),
      List.Forall₂ Driver.Kept operations (operateAll chip operations state).1) ∧
    (∀ (chip : Server Chip.Reply σ) (operation : Op) (state : σ), operation.Oversized →
      operate chip operation state =
        (⟨⟨.error (.abort .transferTooLong), operation.buffer⟩, []⟩, state)) ∧
    (∀ (world : Host.World σ) (events : List Host.Event) (queue : Host.Queue) (state : σ),
      List.Forall₂ Host.Event.Kept events
        ((⟨Host.Session.fresh, queue, state⟩ : Host.Scene σ).play world events).1) ∧
    (∀ patch : Patch, patch.validate = .ok () → (∃ entries, patch.entries = .ok entries) ∧
      ∀ offset < patch.values.length, (UInt8.ofNat offset).toNat = offset ∧
        (patch.first.byte + UInt8.ofNat offset).toNat = patch.first.byte.toNat + offset) ∧
    ∀ access : Access, access.frame.bytes.length = 2 ∧
      access.frame.first.toNat = 2 * access.address.byte.toNat +
        (match access with
          | .read _ => 1
          | .write _ _ => 0) ∧
      (∀ (device : Device) (violation : Violation),
        (device.transaction [.transfer access.frame.bytes [0, 0]]).verdict ≠
          .aborted violation) ∧
      ∀ (plan : Plan) (file : RegisterFile) (script : Address → List UInt8)
        (transactions pinCalls sends : Nat),
        ((⟨.registers file, script, transactions, pinCalls, sends⟩ : Bench).transfer plan
          access.frame).1 = none ↔ plan.busFails transactions = true := by
  refine ⟨Driver.operateAll_kept, ?refused, ?scenarios, ?patches, ?frames⟩
  case refused =>
    intro chip operation state oversized
    exact Driver.operate_oversized chip oversized state
  case scenarios =>
    intro world events queue state
    exact Host.Scene.play_kept world events Host.Session.sound_fresh
  case patches =>
    intro patch valid
    refine ⟨⟨_, by rw [Patch.entries, valid]⟩, ?_⟩
    intro offset inside
    exact patch.offset_exact valid inside
  case frames =>
    intro access
    refine ⟨rfl, access.first_exact, fun device => device.transaction_access access, ?_⟩
    intro plan file script transactions pinCalls sends
    exact Bench.transfer_eq_none_iff plan file script transactions pinCalls sends access

/-- A block of one byte too many is refused, and a patch of the last two registers is listed. -/
theorem contracts_kept_limits :
    let block : List UInt8 := List.replicate 513 0
    let patch : Patch := ⟨⟨0x7E⟩, [0x8E, 0x15]⟩
    (Op.writeFifo block).Oversized ∧
      operate (Bench.serve .smooth) (.writeFifo block) (Bench.ofMemory .blank) =
        (⟨⟨.error (.abort .transferTooLong), []⟩, []⟩, Bench.ofMemory .blank) ∧
      patch.validate = .ok () ∧ (∃ entries, patch.entries = .ok entries) ∧
      1 < patch.values.length ∧ (UInt8.ofNat 1).toNat = 1 ∧
      (patch.first.byte + UInt8.ofNat 1).toNat = patch.first.byte.toNat + 1 := by
  intro block patch
  obtain ⟨-, refused, -, patches, -⟩ := @contracts_kept Bench
  have oversized : (Op.writeFifo block).Oversized := by
    rw [Op.Oversized, List.length_replicate]
    decide
  have valid : patch.validate = .ok () := rfl
  have inside : 1 < patch.values.length := by decide
  obtain ⟨entries, counted⟩ := patches patch valid
  have unchanged :=
    refused (Bench.serve .smooth) (.writeFifo block) (Bench.ofMemory .blank) oversized
  exact ⟨oversized, unchanged, valid, entries, inside, counted 1 inside⟩

end NfcFrontend
