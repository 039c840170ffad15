import NfcFrontend.Proofs.ByteOutcome
import NfcFrontend.Proofs.Capacity
import NfcFrontend.Proofs.Contracts
import NfcFrontend.Proofs.SceneTraffic

/-!
# Foreign bytes bring a session back

The host's stream has no delimiter and no reset frame. A host that has lost count can still get
back in step: it sends two bytes that name no opcode. Whatever the session has been through, each
of them is either unknown, or a parameter that a pending command lacks, or it does not fit and
ends the command. No command lacks more than two, so after two the session is a new one.

What is taken for a parameter may complete a command that the host never meant. Two bytes `0xFF`
keep this harmless, since they name no register and no protocol. The only command they can bring
about is a write that already holds an address in range.
-/

namespace NfcFrontend.Host

/-- Two bytes that name no opcode. -/
structure ForeignPair where
  first : UInt8
  second : UInt8
  first_foreign : 5 ≤ first.toNat
  second_foreign : 5 ≤ second.toNat

namespace ForeignPair

/-- The two bytes in order. -/
def bytes (pair : ForeignPair) : List UInt8 := [pair.first, pair.second]

/-- The pair that names no register and no protocol either. -/
def ones : ForeignPair := ⟨0xFF, 0xFF, by decide, by decide⟩

end ForeignPair

/-! ## Sessions -/

namespace Session

variable {capacity : Nat}

/-- The number of parameters that a session still waits for. -/
def lacking (session : Session capacity) : Nat :=
  match session.state with
  | .waitingForCommand => 0
  | .waitingForParams opcode => opcode.parameterCount - session.held.length

/-- A session never lacks more than two bytes, since no opcode takes more parameters. -/
theorem lacking_le (session : Session capacity) : session.lacking ≤ 2 := by
  obtain ⟨state, held⟩ := session
  cases state with
  | waitingForCommand => exact Nat.zero_le 2
  | waitingForParams opcode => exact Nat.le_trans (Nat.sub_le _ _) opcode.parameterCount_le

/-- A sound session that waits for nothing is fresh. -/
theorem Sound.fresh_of_lacking {session : Session capacity} (sound : session.Sound)
    (nothing : session.lacking = 0) : session = fresh := by
  obtain ⟨state, held⟩ := session
  cases state with
  | waitingForCommand => exact sound.eq_fresh rfl
  | waitingForParams opcode =>
    have wanting : held.length < opcode.parameterCount := sound.1
    have complete : opcode.parameterCount - held.length = 0 := nothing
    omega

/-- A foreign byte opens no command, so it leaves less to wait for. -/
theorem Accepted.lacking_le_pred {byte : UInt8} {session after : Session capacity} {step : Step}
    (moved : Accepted byte session step after) (foreign : 5 ≤ byte.toNat) :
    after.lacking ≤ session.lacking - 1 := by
  cases moved with
  | stray | completed | overflowed => exact Nat.zero_le _
  | opened opcode coded =>
    have unknown : (Coded.ofByte? byte : Option Opcode) = none :=
      (Opcode.foreign_iff byte).mpr foreign
    exact absurd coded (Coded.ofByte?_eq_none_iff.mp unknown opcode)
  | kept opcode held =>
    simp only [lacking, List.length_append, List.length_singleton]
    omega

/-- Enough foreign bytes end whatever is pending. -/
theorem feed_foreign {session : Session capacity} (sound : session.Sound) {bytes : List UInt8}
    (foreign : ∀ byte ∈ bytes, 5 ≤ byte.toNat) (enough : session.lacking ≤ bytes.length) :
    (session.feed bytes).2 = fresh := by
  induction bytes generalizing session with
  | nil => exact sound.fresh_of_lacking (Nat.le_zero.mp enough)
  | cons byte rest inductionHypothesis =>
    rw [List.forall_mem_cons] at foreign
    rw [List.length_cons] at enough
    obtain ⟨step, after, accepted, moved⟩ := session.accept_accepted sound byte
    have less : after.lacking ≤ session.lacking - 1 := moved.lacking_le_pred foreign.1
    have fed : (session.feed (byte :: rest)).2 = (after.feed rest).2 := by
      simp only [feed, accepted]
    rw [fed]
    exact inductionHypothesis moved.sound foreign.2 (by omega)

/-- Two of them are enough for any sound session. -/
theorem feed_pair {session : Session capacity} (sound : session.Sound) (pair : ForeignPair) :
    (session.feed pair.bytes).2 = fresh := by
  refine feed_foreign sound ?_ session.lacking_le
  rintro byte (_ | ⟨_, _ | ⟨_, ⟨⟩⟩⟩)
  · exact pair.first_foreign
  · exact pair.second_foreign

/-- They are enough after any history. -/
theorem afterAll_pair (inputs : List Input) (pair : ForeignPair) :
    (fresh : Session capacity).afterAll (inputs ++ pair.bytes.map .byte) = fresh := by
  rw [afterAll_append, afterAll_bytes]
  exact feed_pair (holds_afterAll inputs).sound pair

/-- What a lost host pays for it: a write that was pending takes the first of the two bytes. -/
example : (⟨.waitingForParams .regWrite, [0x28]⟩ : Session 30).feed ForeignPair.ones.bytes =
    ([.ok (.ready (.regWrite 0x28 0xFF)), .ok (.unknown 0xFF)], fresh) := by
  rfl

end Session

/-! ## Bridges -/

namespace Bridge

variable {σ : Type}

/-- The register that a pending write is about, once its address is held and in range. -/
def pendingWrite? (session : Connection) : Option Address :=
  match session.state, session.held with
  | .waitingForParams .regWrite, [byte] => Address.ofByte? byte
  | _, _ => none

/-- A write is pending exactly when its address is all that is held. -/
theorem pendingWrite?_eq_some_iff {session : Connection} {address : Address} :
    pendingWrite? session = some address ↔
      session = ⟨.waitingForParams .regWrite, [address.byte]⟩ := by
  constructor
  · intro pending
    match session, pending with
    | ⟨.waitingForParams .regWrite, [byte]⟩, pending =>
      obtain rfl : address.byte = byte := Address.ofByte?_eq_some_iff.mp pending
      rfl
  · rintro rfl
    exact Address.ofByte?_byte address

/-- A session that has just accepted `0xFF` holds no address in range as its last byte. -/
theorem pendingWrite_of_accepted {session after : Connection} {step : Step}
    (moved : Session.Accepted 0xFF session step after) : pendingWrite? after = none := by
  rw [Option.eq_none_iff_forall_ne_some]
  intro address pending
  rw [pendingWrite?_eq_some_iff] at pending
  cases moved with
  | stray | completed | overflowed => cases pending
  | opened opcode => cases pending
  | kept opcode held =>
    injection pending with _ same
    obtain ⟨-, last⟩ := List.append_inj' (show held ++ [0xFF] = [] ++ [address.byte] from same) rfl
    have inRange : address.byte.toNat ≤ 0x7F := address.byte_le
    rw [← List.singleton_inj.mp last] at inRange
    exact absurd inRange (by decide)

/-- The only request in range that ends with `0xFF` is a write. -/
theorem write_of_last {earlier : List UInt8} (inRange : InRange (earlier ++ [0xFF])) :
    ∃ address : Address, earlier = [Opcode.regWrite.code, address.byte] := by
  generalize whole : earlier ++ [0xFF] = taken at inRange
  have before : taken.dropLast = earlier := by rw [← whole, List.dropLast_concat]
  have last : taken.getLast? = some 0xFF := by rw [← whole, List.getLast?_concat]
  cases inRange with
  | read byte inside =>
    obtain rfl : byte = 0xFF := Option.some.inj last
    exact absurd inside (by decide)
  | write byte value inside =>
    rcases Address.ofByte_cases byte with ⟨address, rfl, -⟩ | ⟨outside, -⟩
    · exact ⟨address, before.symm⟩
    · exact absurd inside (Nat.not_le.mpr outside)
  | load id known =>
    obtain rfl : id = 0xFF := Option.some.inj last
    exact absurd known (by decide)
  | switchOn | switchOff => cases last

/-- A session whose pending bytes are a write to an address in range has that write pending. -/
theorem pendingWrite_of_pending {session : Connection} {address : Address}
    (pending : session.pending = [Opcode.regWrite.code, address.byte]) :
    pendingWrite? session = some address := by
  obtain ⟨state, held⟩ := session
  cases state with
  | waitingForCommand => cases pending
  | waitingForParams opcode =>
    rw [Session.pending_parameters] at pending
    obtain ⟨coded, rfl⟩ := List.cons.inj pending
    obtain rfl : opcode = .regWrite := Coded.code_injective coded
    exact Address.ofByte?_byte address

/-- A write is one transaction, answered or not. -/
theorem run_work_write (chip : Server Chip.Reply σ) (address : Address) (value : UInt8)
    (state : σ) :
    ∃ answer, Chip.busTraffic
        (Program.run chip (work (.regWrite address.byte value)).run state).exchanges =
      [(.write address value, answer)] := by
  have named : Address.ofByte address.byte = .ok address := by simp [Address.ofByte]
  have attempt : Action.Attempts [.write address value]
      (Program.run chip (work (.regWrite address.byte value)).run state) := by
    rw [work, named]
    exact Action.attempts_bind (Driver.attempts_write chip state address value)
      fun _ between => Action.attempts_pure chip none between
  exact attempt.single

/-- A byte `0xFF` asks nothing of the chip, unless it is the value of a pending write. -/
theorem happen_last (world : World σ) {scene : Scene σ} (sound : scene.session.Sound) :
    let traffic := Chip.busTraffic (scene.happen world (.byte 0xFF)).1.chipTraffic
    match pendingWrite? scene.session with
    | some address => ∃ answer, traffic = [(.write address 0xFF, answer)]
    | none => traffic = [] := by
  intro traffic
  cases pending : pendingWrite? scene.session with
  | some address =>
    rw [pendingWrite?_eq_some_iff] at pending
    have ready : (scene.session.accept 0xFF).1 =
        .ok (.ready (.regWrite address.byte 0xFF)) := by
      rw [pending]
      rfl
    obtain ⟨sends, after, ran, quiet, -⟩ :=
      run_execute world (.regWrite address.byte 0xFF) scene.queue scene.state
    obtain ⟨answer, written⟩ := run_work_write world.chip address 0xFF scene.state
    refine ⟨answer, ?_⟩
    have executed : react (.ok (.ready (.regWrite address.byte 0xFF))) =
        execute (.regWrite address.byte 0xFF) := rfl
    simp only [traffic, happen_byte, ready, executed, ran, Record.chipTraffic]
    rw [chipTraffic_append, chipTraffic_relayed, quiet, List.append_nil, written]
  | none =>
    obtain ⟨report, exchanges, after, ran, reaction⟩ :=
      react_reaction world scene.session sound 0xFF scene.queue scene.state
    have shown : traffic = Chip.busTraffic (chipTraffic exchanges) := by
      simp only [traffic, happen_byte, ran, Record.chipTraffic]
    dsimp only
    rw [shown]
    -- Only a request in range asks anything, and the one that ends with this byte is a write.
    by_contra asked
    obtain ⟨address, held⟩ := write_of_last (reaction.asked asked)
    rw [pendingWrite_of_pending held] at pending
    cases pending

/-- Two bytes `0xFF` leave a fresh session, and ask nothing of the chip but a pending write. -/
theorem play_ones (world : World σ) {scene : Scene σ} (sound : scene.session.Sound) :
    let resent := scene.play world (ForeignPair.ones.bytes.map Event.byte)
    let traffic := Chip.busTraffic (chipLog resent.1)
    resent.2.session = Session.fresh ∧
      match pendingWrite? scene.session with
      | some address => ∃ answer, traffic = [(.write address 0xFF, answer)]
      | none => traffic = [] := by
  intro resent traffic
  constructor
  · rw [session_play]
    exact Session.feed_pair sound .ones
  · let between := (scene.happen world (.byte 0xFF)).2
    have still : between.session.Sound := (Scene.happen_kept world (.byte 0xFF) sound).2
    have settled : pendingWrite? between.session = none := by
      obtain ⟨step, after, accepted, moved⟩ := scene.session.accept_accepted sound 0xFF
      have left : between.session = after := by
        simp only [between, happen_byte, accepted]
      rw [left]
      exact pendingWrite_of_accepted moved
    -- The first byte is the only one that can complete a write: afterwards none is pending.
    have shown := happen_last world sound
    have quiet := happen_last world still
    rw [settled] at quiet
    have split : traffic = Chip.busTraffic (scene.happen world (.byte 0xFF)).1.chipTraffic ++
        Chip.busTraffic (between.happen world (.byte 0xFF)).1.chipTraffic := by
      have logged : chipLog resent.1 = (scene.happen world (.byte 0xFF)).1.chipTraffic ++
          ((between.happen world (.byte 0xFF)).1.chipTraffic ++ []) := rfl
      simp only [traffic, logged, List.append_nil, Chip.busTraffic_append]
    rw [split, quiet, List.append_nil]
    exact shown

end Bridge

end NfcFrontend.Host
