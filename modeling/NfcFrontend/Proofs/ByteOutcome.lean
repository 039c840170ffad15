import NfcFrontend.Proofs.Attempts
import NfcFrontend.Proofs.Cut
import NfcFrontend.Proofs.Requests

/-!
# The outcome of one byte

The host only sees the bytes it is offered, so they must tell it how its request went.
`Told` is the table of answers: what a byte makes complete, what then goes over the bus,
and what the host is told. It covers the bytes after which every transaction succeeded.
After a failed transaction the answer is always the same.

The table speaks of numbers only, those of the bytes received, so no lookup of the bridge
can decide which row a byte falls into. Its rows exclude each other.

The table is proved for an arbitrary world. Neither the chip's answers nor a link that
refuses bytes can move a byte into another row, and only a request in range reaches the
chip at all.
-/

namespace NfcFrontend.Host

namespace Bridge

variable {σ : Type}

/-! ## The table -/

/-- The bytes of a request that the chip is asked about. -/
inductive InRange : List UInt8 → Prop where
  | read (address : UInt8) (inside : address.toNat ≤ 0x7F) : InRange [0x00, address]
  | write (address value : UInt8) (inside : address.toNat ≤ 0x7F) : InRange [0x01, address, value]
  | load (id : UInt8) (known : id.toNat ≤ 9) : InRange [0x02, id]
  | switchOn : InRange [0x03]
  | switchOff : InRange [0x04]

/-- The bytes of a request that names no register or no protocol. -/
inductive OutOfRange : List UInt8 → Prop where
  | read (address : UInt8) (outside : 0x7F < address.toNat) : OutOfRange [0x00, address]
  | write (address value : UInt8) (outside : 0x7F < address.toNat) :
      OutOfRange [0x01, address, value]
  | load (id : UInt8) (unknown : 9 < id.toNat) : OutOfRange [0x02, id]

/-- The bytes since the last complete frame, the bus traffic, and the bytes offered to the
host, when no transaction failed. -/
inductive Told : List UInt8 → List (Access × Option Frame) → List UInt8 → Prop where
  | incomplete {taken : List UInt8} (short : ¬ Whole taken) : Told taken [] []
  /-- The numbers from five upwards are no opcodes. -/
  | stray (byte : UInt8) (foreign : 5 ≤ byte.toNat) : Told [byte] [] [0xFF, 0xAA]
  | refused {taken : List UInt8} (outOfRange : OutOfRange taken) : Told taken [] [0xFF, 0xAB]
  | read (address : Address) (response : Frame) :
      Told [0x00, address.byte] [(.read address, some response)] [response.second]
  | written (address : Address) (value : UInt8) (response : Frame) :
      Told [0x01, address.byte, value] [(.write address value, some response)] []
  | loaded (id : UInt8) (known : id.toNat ≤ 9) (control : UInt8)
      (traffic : List (Access × Option Frame)) (answered : ∀ entry ∈ traffic, entry.2 ≠ none)
      (accesses : traffic.map Prod.fst = Action.payloadAccesses control [id, id] .loadProtocol) :
      Told [0x02, id] traffic [0xBB]
  | switchedOn (response : Frame) :
      Told [0x03] [(.write .drvMode 0x8E, some response)] [0xBB]
  | switchedOff (response : Frame) :
      Told [0x04] [(.write .drvMode 0x00, some response)] [0xBB]

/-- A request that is not refused is in range. -/
theorem inRange_encode {request : Request} (accepted : ¬ request.Refused) :
    InRange request.encode := by
  cases request with
  | regRead address => exact .read address (Nat.not_lt.mp accepted)
  | regWrite address value => exact .write address value (Nat.not_lt.mp accepted)
  | protocolSet id => exact .load id (Nat.not_lt.mp accepted)
  | rfFieldOn => exact .switchOn
  | rfFieldOff => exact .switchOff

/-- A request that is refused is out of range. -/
theorem outOfRange_encode {request : Request} (refused : request.Refused) :
    OutOfRange request.encode := by
  cases request with
  | regRead address => exact .read address refused
  | regWrite address value => exact .write address value refused
  | protocolSet id => exact .load id refused
  | rfFieldOn | rfFieldOff => exact refused.elim

namespace Told

variable {taken : List UInt8} {traffic : List (Access × Option Frame)} {offers told : List UInt8}

/-- In every row with bus traffic a request in range has become complete. -/
theorem inRange (row : Told taken traffic offers) (asked : traffic ≠ []) : InRange taken := by
  cases row with
  | incomplete | stray | refused => exact absurd rfl asked
  | read address => exact .read address.byte address.byte_le
  | written address value => exact .write address.byte value address.byte_le
  | loaded id known => exact .load id known
  | switchedOn => exact .switchOn
  | switchedOff => exact .switchOff

/-- Every row but the first is about a whole frame. -/
theorem whole (row : Told taken traffic offers) : Whole taken ∨ (traffic = [] ∧ offers = []) := by
  cases row with
  | incomplete short => exact .inr ⟨rfl, rfl⟩
  | stray byte foreign =>
    have single : trailing byte = 0 := trailing_of_foreign ((Opcode.foreign_iff byte).mpr foreign)
    exact .inl ⟨byte, [], rfl, single.symm⟩
  | refused outOfRange =>
    refine .inl ?_
    cases outOfRange with
    | read | write | load => exact ⟨_, _, rfl, rfl⟩
  | read | written | loaded | switchedOn | switchedOff => exact .inl ⟨_, _, rfl, rfl⟩

/-- The rows exclude each other: the same bytes with the same traffic have one answer. -/
theorem alone (row : Told taken traffic offers) {bytes : List UInt8}
    {accessed : List (Access × Option Frame)} (other : Told bytes accessed told)
    (sameBytes : taken = bytes) (sameTraffic : traffic = accessed) : told = offers := by
  by_cases framed : Whole taken
  case neg =>
    rw [(row.whole.resolve_left framed).2, (other.whole.resolve_left (sameBytes ▸ framed)).2]
  case pos =>
    -- Two whole frames are told apart by their first numbers, or by whether there was traffic.
    have complete : Whole bytes := sameBytes ▸ framed
    cases row with
    | incomplete short => exact absurd framed short
    | stray byte foreign =>
      cases other with
      | incomplete short => exact absurd complete short
      | stray => rfl
      | refused outOfRange => cases outOfRange <;> simp at sameBytes
      | read | written | loaded | switchedOn | switchedOff => simp_all
    | refused outOfRange =>
      cases other with
      | incomplete short => exact absurd complete short
      | refused => rfl
      | stray byte foreign => cases outOfRange <;> simp at sameBytes
      | loaded => simp_all [Action.payloadAccesses, Action.preparation]
      | read | written | switchedOn | switchedOff => cases sameTraffic
    | loaded =>
      cases other with
      | incomplete short => exact absurd complete short
      | loaded => rfl
      | refused => simp_all [Action.payloadAccesses, Action.preparation]
      | stray | read | written | switchedOn | switchedOff => simp_all
    | read | written | switchedOn | switchedOff =>
      cases other with
      | incomplete short => exact absurd complete short
      | stray | refused => cases sameTraffic
      | read | written | loaded | switchedOn | switchedOff => simp_all

end Told

/-! ## Reactions -/

/-- How the bridge reacts to a byte, the last of the bytes since the last complete
frame. -/
structure Reaction (taken : List UInt8) (report : Report) (exchanges : List (Exchange Reply)) :
    Prop where
  /-- Failed transactions are reported, and nothing else is. -/
  reports : report ≠ .ok () ↔ ∃ access, (access, none) ∈ Chip.busTraffic (chipTraffic exchanges)
  /-- A failed transaction is the last one, and the host is told. -/
  failed : report ≠ .ok () → report = .error (.fault (.driver .spi)) ∧
    (∃ earlier access, chipTraffic exchanges = earlier ++ [⟨.access access, none⟩] ∧
      Chip.Answered earlier) ∧
    (offered exchanges).map Prod.fst = [0xFF, 0xAC]
  told : report = .ok () →
    Told taken (Chip.busTraffic (chipTraffic exchanges)) ((offered exchanges).map Prod.fst)
  /-- No other row of the table applies. -/
  alone : report = .ok () → ∀ offers,
    Told taken (Chip.busTraffic (chipTraffic exchanges)) offers →
      offers = (offered exchanges).map Prod.fst
  /-- Nothing but a request in range asks anything of the chip, answered or not. -/
  asked : Chip.busTraffic (chipTraffic exchanges) ≠ [] → InRange taken
  /-- Nothing is offered to the host before the last transaction has ended. -/
  ordered : ∃ transactions sends, exchanges = transactions ++ sends ∧
    offered transactions = [] ∧ chipTraffic sends = []

namespace Reaction

variable {taken : List UInt8} {worked : List (Exchange Chip.Reply)}
  {sends : List (Exchange Reply)}

/-- Work whose accesses were all answered is concluded from the table. -/
theorem of_answered (quiet : chipTraffic sends = []) (answered : Chip.Answered worked)
    (told : Told taken (Chip.busTraffic worked) ((offered sends).map Prod.fst)) :
    Reaction taken (.ok ()) (worked.map relayed ++ sends) where
  reports := by
    constructor
    · intro failed
      exact absurd rfl failed
    · rintro ⟨access, unanswered⟩
      rw [chipTraffic_append, chipTraffic_relayed, quiet, List.append_nil] at unanswered
      exact absurd rfl (answered (access, none) unanswered)
  failed failed := absurd rfl failed
  told _ := by simpa [quiet] using told
  alone _ offers row := by
    rw [chipTraffic_append, chipTraffic_relayed, quiet, List.append_nil] at row
    rw [offered_append, offered_relayed, List.nil_append]
    exact told.alone row rfl rfl
  asked asked := told.inRange (by simpa [quiet] using asked)
  ordered := ⟨worked.map relayed, sends, rfl, offered_relayed worked, quiet⟩

/-- A byte that asks nothing of the chip is concluded from the table as well. -/
theorem of_idle (quiet : chipTraffic sends = [])
    (told : Told taken [] ((offered sends).map Prod.fst)) : Reaction taken (.ok ()) sends :=
  show Reaction taken (.ok ()) (List.map relayed [] ++ sends) from
    of_answered quiet Chip.answered_nil told

/-- Work that ended with an unanswered access is reported. -/
theorem of_unanswered (inRange : InRange taken) (quiet : chipTraffic sends = [])
    (ended : ∃ earlier access, worked = earlier ++ [⟨.access access, none⟩] ∧
      Chip.Answered earlier)
    (offers : (offered sends).map Prod.fst = [0xFF, 0xAC]) :
    Reaction taken (.error (.fault (.driver .spi))) (worked.map relayed ++ sends) where
  reports := by
    obtain ⟨earlier, access, rfl, -⟩ := ended
    refine ⟨fun _ => ⟨access, ?_⟩, fun _ => by simp⟩
    rw [chipTraffic_append, chipTraffic_relayed, quiet, List.append_nil, Chip.busTraffic_append]
    exact List.mem_append_right _ (List.mem_singleton_self _)
  failed _ := by
    obtain ⟨earlier, access, rfl, answered⟩ := ended
    refine ⟨rfl, ⟨earlier, access, ?_, answered⟩, ?_⟩
    · rw [chipTraffic_append, chipTraffic_relayed, quiet, List.append_nil]
    · rw [offered_append, offered_relayed, List.nil_append, offers]
  told succeeded := by cases succeeded
  alone succeeded := by cases succeeded
  asked _ := inRange
  ordered := ⟨worked.map relayed, sends, rfl, offered_relayed worked, quiet⟩

end Reaction

/-! ## Requests -/

namespace Served

variable {request : Request} {action : Action (Option UInt8)}

/-- A request out of range asks nothing of the chip. -/
theorem throws (served : Served request action) (outOfRange : request.Refused) :
    ∃ fault, action = throw (.fault fault) := by
  cases served with
  | refused request fault => exact ⟨fault, rfl⟩
  | read address | write address =>
    exact absurd address.byte_le (Nat.not_le.mpr outOfRange)
  | load protocol => exact absurd protocol.code_le (Nat.not_le.mpr outOfRange)
  | switchOn | switchOff => exact outOfRange.elim

/-- A request whose work completes is answered as in the table. -/
theorem told (served : Served request action) {chip : Server Chip.Reply σ} {state after : σ}
    {answer : Option UInt8} {exchanges : List (Exchange Chip.Reply)}
    (completed : Action.Completes chip action state answer exchanges after)
    (answered : Chip.Answered exchanges) :
    Told request.encode (Chip.busTraffic exchanges) answer.toList := by
  cases served with
  | refused request fault => cases completed
  | read address =>
    obtain ⟨value, _, _, _, accessed, ended, rfl⟩ := Action.completes_bind completed
    obtain ⟨response, rfl, rfl⟩ := Action.completes_access accessed
    obtain ⟨rfl, rfl⟩ := Action.completes_pure ended
    exact .read address response
  | write address value =>
    obtain ⟨_, _, _, _, written, ended, rfl⟩ := Action.completes_bind completed
    obtain ⟨response, rfl⟩ := Action.completes_write written
    obtain ⟨rfl, rfl⟩ := Action.completes_pure ended
    exact .written address value response
  | load protocol =>
    obtain ⟨_, loading, _, _, loaded, ended, rfl⟩ := Action.completes_bind completed
    obtain ⟨control, accesses⟩ :=
      Driver.completes_payload chip _ (by simp [FifoMode.capacity]) loaded
    obtain ⟨rfl, rfl⟩ := Action.completes_pure ended
    rw [List.append_nil] at answered ⊢
    exact .loaded protocol.code protocol.code_le control (Chip.busTraffic loading)
      answered accesses
  | switchOn =>
    obtain ⟨_, _, _, _, written, ended, rfl⟩ := Action.completes_bind completed
    obtain ⟨response, rfl⟩ := Action.completes_write written
    obtain ⟨rfl, rfl⟩ := Action.completes_pure ended
    exact .switchedOn response
  | switchOff =>
    obtain ⟨_, _, _, _, written, ended, rfl⟩ := Action.completes_bind completed
    obtain ⟨response, rfl⟩ := Action.completes_write written
    obtain ⟨rfl, rfl⟩ := Action.completes_pure ended
    exact .switchedOff response

end Served

/-- A request is carried out as in the table, or stops at its only failed transaction. -/
theorem execute_reaction (world : World σ) (request : Request) (queue : Queue) (state : σ) :
    ∃ report exchanges after, (execute request).run world.serve (queue, state) =
        ⟨report, exchanges, (queue, after)⟩ ∧ Reaction request.encode report exchanges := by
  have served : Served request (work request) := work_served request
  obtain ⟨sends, after, ran, quiet, offers⟩ := run_execute world request queue state
  refine ⟨_, _, after, ran, ?_⟩
  cases run : Program.run world.chip (work request).run state with
  | mk result worked between =>
    have ended := served.failStop.run_ended world.chip state
    rw [run] at ended offers
    rcases ended with ⟨fine, answered⟩ | ⟨rfl, stopped⟩
    · cases result with
      | ok answer =>
        have told : Told request.encode (Chip.busTraffic worked) answer.toList :=
          served.told run answered
        refine .of_answered quiet answered ?_
        rw [offers]
        exact told
      | error stop =>
        obtain ⟨outOfRange, blamed⟩ := fine
        obtain ⟨fault, thrown⟩ := served.throws outOfRange
        rw [thrown] at run
        cases run
        rw [blamed] at offers ⊢
        refine .of_answered quiet answered ?_
        rw [offers]
        exact .refused (outOfRange_encode outOfRange)
    · have inRange : InRange request.encode := by
        refine inRange_encode ?_
        intro outOfRange
        obtain ⟨fault, thrown⟩ := served.throws outOfRange
        obtain ⟨earlier, access, split, -⟩ := stopped
        rw [thrown] at run
        cases run
        simp at split
      exact .of_unanswered inRange quiet stopped offers

/-! ## Bytes -/

/-- Whatever session a byte meets, its reaction is the one for the pending bytes. The receive
queue is left alone. -/
theorem react_reaction (world : World σ) (session : Connection) (sound : session.Sound)
    (byte : UInt8) (queue : Queue) (state : σ) :
    ∃ report exchanges after,
      (react (session.accept byte).1).run world.serve (queue, state) =
        ⟨report, exchanges, (queue, after)⟩ ∧
      Reaction (session.pending ++ [byte]) report exchanges := by
  obtain ⟨step, next, accepted, moved⟩ := session.accept_accepted sound byte
  rw [accepted]
  cases step with
  | pending =>
    have kept : session.pending ++ [byte] = next.pending := moved.conserves (by simp)
    have short : ¬ Whole (session.pending ++ [byte]) := by
      rw [kept]
      exact not_whole_of_cut (congrArg Cut.frames (next.cut_pending moved.sound))
    exact ⟨.ok (), [], state, rfl, .of_idle rfl (.incomplete short)⟩
  | unknown other =>
    cases moved with
    | stray foreign =>
      obtain ⟨sends, after, ran, quiet, offers⟩ :=
        run_announce world ⟨[nak, unknownCommand], .ok ()⟩ queue state
      have told : Told [byte] [] ((offered sends).map Prod.fst) := by
        rw [offers]
        exact .stray byte ((Opcode.foreign_iff byte).mp foreign)
      rw [react_unknown, ran]
      exact ⟨.ok (), sends, after, rfl, .of_idle quiet told⟩
  | ready request =>
    cases moved with
    | completed _ _ whole =>
      have executed : react (.ok (.ready request)) = execute request := rfl
      rw [executed, ← whole]
      exact execute_reaction world request queue state
  | overflow => exact absurd rfl (moved.not_overflow (by decide))

/-- After any history of bytes, with any answers of the chip and any bytes refused by the
link along the way, the next byte is reacted to as its pending bytes demand. These are
what the history leaves of its last frame.

Proof: the session after the history is sound, and has pending what the stream leaves. From
a sound session the byte is pending, unknown, or the last of a request, whose work is
fail-stop. -/
theorem outcome_of_byte (world : World σ) (state : σ) (history : List UInt8) (byte : UInt8) :
    let before := ((Scene.start state).play world (history.map Event.byte)).2
    ∃ record after, before.happen world (.byte byte) = (.bridge record, after) ∧
      Reaction ((cut history).rest ++ [byte]) record.report record.exchanges := by
  intro before
  have session : before.session = ((Session.fresh : Connection).feed history).2 :=
    session_play world history (Scene.start state)
  have sound : before.session.Sound := by
    rw [session]
    exact Session.sound_feed Session.fresh Session.sound_fresh history
  have pending : (cut history).rest = before.session.pending := by
    have framed :=
      Session.cut_feed (by decide) (Session.fresh : Connection) Session.sound_fresh history
    rw [Session.pending_fresh, List.nil_append] at framed
    rw [framed, session]
  obtain ⟨report, exchanges, after, ran, reaction⟩ :=
    react_reaction world before.session sound byte before.queue before.state
  rw [happen_byte, ran, pending]
  exact ⟨_, _, rfl, reaction⟩

end Bridge

end NfcFrontend.Host
