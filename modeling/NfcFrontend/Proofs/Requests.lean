import NfcFrontend.Host.Scenario
import NfcFrontend.Proofs.FailStop
import NfcFrontend.Proofs.Framing

/-!
# What the bridge makes of a request

Carrying out a request is work on the chip followed by a conclusion drawn from how the
work ended. `execute_eq` splits every request in this way: all transactions come first,
then the bytes offered to the host, then the report. The work is a driver action, so
what is known of driver actions carries over, and nothing that the host link does can
change what happens on the chip.
-/

namespace NfcFrontend.Host

namespace Bridge

variable {α β σ : Type}

/-! ## Driver programs inside the bridge -/

/-- An exchange with the chip, as the bridge makes it. -/
def relayed (exchange : Exchange Chip.Reply) : Exchange Reply := ⟨.chip exchange.1, exchange.2⟩

/-- Traffic in two parts. -/
@[simp] theorem chipTraffic_append (first second : List (Exchange Reply)) :
    chipTraffic (first ++ second) = chipTraffic first ++ chipTraffic second :=
  List.filterMap_append

/-- Offers in two parts. -/
@[simp] theorem offered_append (first second : List (Exchange Reply)) :
    offered (first ++ second) = offered first ++ offered second :=
  List.filterMap_append

/-- Relayed exchanges are all traffic with the chip. -/
@[simp] theorem chipTraffic_relayed (exchanges : List (Exchange Chip.Reply)) :
    chipTraffic (exchanges.map relayed) = exchanges := by
  induction exchanges with
  | nil => rfl
  | cons exchange rest inductionHypothesis =>
    exact congrArg (exchange :: ·) inductionHypothesis

/-- They offer nothing to the host. -/
@[simp] theorem offered_relayed (exchanges : List (Exchange Chip.Reply)) :
    offered (exchanges.map relayed) = [] := by
  induction exchanges with
  | nil => rfl
  | cons exchange rest inductionHypothesis => exact inductionHypothesis

/-- Work on the chip in sequence may be relayed part by part. -/
theorem ofChip_bind (program : Program Chip.Reply α) (next : α → Program Chip.Reply β) :
    ofChip (program >>= next) = ofChip program >>= fun result => ofChip (next result) := by
  induction program with
  | done result => rfl
  | ask call rest inductionHypothesis =>
    rw [Program.ask_bind, ofChip, ofChip, Program.ask_bind]
    exact congrArg (Program.ask (Call.chip call)) (funext inductionHypothesis)

/-- A driver program inside the bridge runs as it does on the chip alone, and leaves the
receive queue alone. -/
theorem run_ofChip (world : World σ) (program : Program Chip.Reply α) (queue : Queue) (state : σ) :
    (ofChip program).run world.serve (queue, state) =
      ⟨(program.run world.chip state).result, (program.run world.chip state).exchanges.map relayed,
        (queue, (program.run world.chip state).state)⟩ := by
  induction program generalizing state with
  | done result => rfl
  | ask call next inductionHypothesis =>
    simp only [ofChip, Program.run_ask, World.serve, inductionHypothesis, List.map_cons]
    rfl

/-! ## Bytes offered to the host -/

/-- Offer bytes to the host in order. -/
def offerAll : List UInt8 → Program Reply Unit
  | [] => .done ()
  | byte :: rest => do
    respond byte
    offerAll rest

/-- The bytes are offered whatever the link does, and the chip is left alone. -/
theorem run_offerAll (world : World σ) (bytes : List UInt8) (queue : Queue) (state : σ) :
    ∃ exchanges after, (offerAll bytes).run world.serve (queue, state) =
        ⟨(), exchanges, (queue, after)⟩ ∧
      chipTraffic exchanges = [] ∧ (offered exchanges).map Prod.fst = bytes := by
  induction bytes generalizing state with
  | nil => exact ⟨[], state, rfl, rfl, rfl⟩
  | cons byte rest inductionHypothesis =>
    obtain ⟨later, after, run, quiet, bytes⟩ := inductionHypothesis (world.link byte state).2
    refine ⟨⟨.send byte, (world.link byte state).1⟩ :: later, after, ?_, quiet, ?_⟩
    · rw [offerAll, respond, Program.ask_bind, Program.run_ask]
      simp only [World.serve, Program.done_bind, run]
    · exact congrArg (byte :: ·) bytes

/-! ## Requests -/

/-- What a request asks of the chip, and the byte that answers it, if one does. -/
def work : Request → Action (Option UInt8)
  | .regRead address => do
    let value ← Driver.read (← Action.ofArgument (Address.ofByte address))
    return some value
  | .regWrite address value => do
    Driver.write (← Action.ofArgument (Address.ofByte address)) value
    return none
  | .protocolSet id => do
    Driver.loadProtocol (← Action.ofArgument (Protocol.ofId id))
    return some ack
  | .rfFieldOn => do
    Driver.enableField
    return some ack
  | .rfFieldOff => do
    Driver.disableField
    return some ack

/-- The bytes offered to the host, and the report. -/
structure Conclusion where
  offers : List UInt8
  report : Report

/-- What the bridge concludes from the end of a request's work. -/
def conclude : Except (Stop Fault) (Option UInt8) → Conclusion
  | .ok answer => ⟨answer.toList, .ok ()⟩
  | .error (.fault (.invalidAddress _)) | .error (.fault (.invalidProtocol _)) =>
    ⟨[nak, invalidParameter], .ok ()⟩
  | .error (.fault fault) => ⟨[nak, driverFault], .error (.fault (.driver fault))⟩
  | .error (.abort violation) => ⟨[], .error (.abort violation)⟩

/-- Act on a conclusion. -/
def announce (conclusion : Conclusion) : Program Reply Report := do
  offerAll conclusion.offers
  return conclusion.report

/-- What is left of handling a request once its work has ended. -/
def finish : Except (Stop Fault) (Option UInt8) → Program Reply (Except (Stop Fault) Unit)
  | .ok answer => do
    offerAll answer.toList
    return .ok ()
  | .error stop => return .error stop

/-- An action whose value is answered with a byte. -/
theorem run_answered (action : Action α) (answer : α → UInt8) :
    (do respond (answer (← ofAction action)) : ExceptT (Stop Fault) (Program Reply) Unit).run =
      ofChip (do return some (answer (← action)) : Action (Option UInt8)).run >>= finish := by
  rw [ExceptT.run_bind, ExceptT.run_bind, ofChip_bind, Program.bind_assoc]
  congr 1
  funext verdict
  cases verdict with
  | ok value => rfl
  | error stop => rfl

/-- An action that is not answered. -/
theorem run_silent (action : Action Unit) :
    (ofAction action).run =
      ofChip (do action; return none : Action (Option UInt8)).run >>= finish := by
  rw [ExceptT.run_bind, ofChip_bind, Program.bind_assoc]
  have unchanged : (ofAction action).run = ofChip action.run >>= Program.done :=
    (Program.bind_done _).symm
  rw [unchanged]
  congr 1
  funext verdict
  cases verdict with
  | ok value => rfl
  | error stop => rfl

/-- Handling a request is its work, then its answer. -/
theorem handle_eq (request : Request) :
    (handle request).run = ofChip (work request).run >>= finish := by
  cases request with
  | regRead address =>
    have joined := run_answered (do Driver.read (← Action.ofArgument (Address.ofByte address))) id
    simpa [handle, work] using joined
  | regWrite address value =>
    have joined := run_silent (do Driver.write (← Action.ofArgument (Address.ofByte address)) value)
    simpa [handle, work] using joined
  | protocolSet id =>
    have joined := run_answered (do Driver.loadProtocol (← Action.ofArgument (Protocol.ofId id)))
      fun _ => ack
    simpa [handle, work] using joined
  | rfFieldOn => exact run_answered Driver.enableField fun _ => ack
  | rfFieldOff => exact run_answered Driver.disableField fun _ => ack

/-- A request is carried out by its work on the chip; the host is told afterwards. -/
theorem execute_eq (request : Request) :
    execute request = ofChip (work request).run >>= fun verdict => announce (conclude verdict) := by
  rw [execute, handle_eq, Program.bind_assoc]
  congr 1
  funext verdict
  match verdict with
  | .ok (some byte) => rfl
  | .ok none => rfl
  | .error (.fault .spi) => rfl
  | .error (.fault .pin) => rfl
  | .error (.fault (.invalidAddress _)) => rfl
  | .error (.fault (.invalidProtocol _)) => rfl
  | .error (.abort _) => rfl

/-- A conclusion is announced without another look at the chip. -/
theorem run_announce (world : World σ) (conclusion : Conclusion) (queue : Queue) (state : σ) :
    ∃ sends after, (announce conclusion).run world.serve (queue, state) =
        ⟨conclusion.report, sends, (queue, after)⟩ ∧
      chipTraffic sends = [] ∧ (offered sends).map Prod.fst = conclusion.offers := by
  obtain ⟨sends, after, run, quiet, bytes⟩ := run_offerAll world conclusion.offers queue state
  refine ⟨sends, after, ?_, quiet, bytes⟩
  rw [announce, Program.run_bind, run]
  simp

/-- A request runs as its work does on the chip alone. What the host is told and what is
reported follow from how that ended. -/
theorem run_execute (world : World σ) (request : Request) (queue : Queue) (state : σ) :
    let worked := Program.run world.chip (work request).run state
    ∃ sends after, (execute request).run world.serve (queue, state) =
        ⟨(conclude worked.result).report, worked.exchanges.map relayed ++ sends, (queue, after)⟩ ∧
      chipTraffic sends = [] ∧
      (offered sends).map Prod.fst = (conclude worked.result).offers := by
  intro worked
  obtain ⟨sends, after, run, quiet, bytes⟩ :=
    run_announce world (conclude worked.result) queue worked.state
  refine ⟨sends, after, ?_, quiet, bytes⟩
  rw [execute_eq, Program.run_bind, run_ofChip]
  simp only [run, worked]

end Bridge

/-! ## Requests in and out of range -/

/-- The parameters of a request are out of range. -/
def Request.Refused : Request → Prop
  | .regRead address | .regWrite address _ => 0x7F < address.toNat
  | .protocolSet id => 9 < id.toNat
  | .rfFieldOn | .rfFieldOff => False

namespace Bridge

/-- All that can become of a request: it is refused at once with a fault that blames its
parameters, or one driver action is carried out for it. -/
inductive Served : Request → Action (Option UInt8) → Prop where
  | refused (request : Request) (fault : Fault) (outOfRange : request.Refused)
      (blamed : conclude (.error (.fault fault)) = ⟨[nak, invalidParameter], .ok ()⟩) :
      Served request (throw (.fault fault))
  | read (address : Address) :
      Served (.regRead address.byte) (do return some (← Driver.read address))
  | write (address : Address) (value : UInt8) :
      Served (.regWrite address.byte value) (do
        Driver.write address value
        return none)
  | load (protocol : Protocol) :
      Served (.protocolSet protocol.code) (do
        Driver.loadProtocol protocol
        return some ack)
  | switchOn : Served .rfFieldOn (do
      Driver.enableField
      return some ack)
  | switchOff : Served .rfFieldOff (do
      Driver.disableField
      return some ack)

/-- The work for a request is of the kind that its opcode and its parameters call for. There is
one case for each request, and one more where an argument is out of range. -/
theorem work_served (request : Request) : Served request (work request) := by
  cases request with
  | regRead byte =>
    rcases Address.ofByte_cases byte with ⟨address, rfl, named⟩ | ⟨outside, refused⟩
    · rw [work, named]
      exact .read address
    · rw [work, refused]
      exact .refused _ _ outside rfl
  | regWrite byte value =>
    rcases Address.ofByte_cases byte with ⟨address, rfl, named⟩ | ⟨outside, refused⟩
    · rw [work, named]
      exact .write address value
    · rw [work, refused]
      exact .refused _ _ outside rfl
  | protocolSet id =>
    rcases Protocol.ofId_cases id with ⟨protocol, rfl, named⟩ | ⟨unknown, refused⟩
    · rw [work, named]
      exact .load protocol
    · rw [work, refused]
      exact .refused _ _ unknown rfl
  | rfFieldOn => exact .switchOn
  | rfFieldOff => exact .switchOff

/-- The work for a request is fail-stop. It ends without a value only when the chip does
not answer, or when the parameters are refused before it is asked. -/
theorem Served.failStop {request : Request} {action : Action (Option UInt8)}
    (served : Served request action) :
    Action.FailStop (fun stop => request.Refused ∧
      conclude (.error stop) = ⟨[nak, invalidParameter], .ok ()⟩) action := by
  cases served with
  | refused _ fault outOfRange blamed => exact Action.failStop_throw ⟨outOfRange, blamed⟩
  | read address =>
    exact Action.failStop_bind (Driver.failStop_access _) fun _ => Action.failStop_pure _
  | write address value =>
    exact Action.failStop_bind (Driver.failStop_write _ _) fun _ => Action.failStop_pure _
  | load protocol =>
    exact Action.failStop_bind (Driver.failStop_loadSettings _ _) fun _ => Action.failStop_pure _
  | switchOn | switchOff =>
    exact Action.failStop_bind (Driver.failStop_write _ _) fun _ => Action.failStop_pure _

/-! ## Bytes -/

/-- A byte that is no opcode is answered without asking the chip. -/
theorem react_unknown (byte : UInt8) :
    react (.ok (.unknown byte)) = announce ⟨[nak, unknownCommand], .ok ()⟩ := rfl

/-- Processing a byte is accepting it and reacting to the step. -/
theorem run_process (world : World σ) (session : Connection) (byte : UInt8)
    (surroundings : Queue × σ) :
    (process session byte).run world.serve surroundings =
      let reacted := (react (session.accept byte).1).run world.serve surroundings
      ⟨(reacted.result, (session.accept byte).2), reacted.exchanges, reacted.state⟩ := by
  unfold process
  simp only [Program.run_bind, Program.pure_eq_done, Program.run_done, List.append_nil]

/-- A byte processed directly moves the session on and shows the reaction to its step. -/
theorem happen_byte (world : World σ) (byte : UInt8) (scene : Scene σ) :
    scene.happen world (.byte byte) =
      let reacted := (react (scene.session.accept byte).1).run world.serve
        (scene.queue, scene.state)
      let session := (scene.session.accept byte).2
      (.bridge ⟨reacted.result, reacted.exchanges, session, reacted.state.1.length⟩,
        ⟨session, reacted.state.1, reacted.state.2⟩) := by
  simp only [Scene.happen, Scene.attend, run_process]

/-- The session after bytes processed directly depends on nothing but the bytes. -/
theorem session_play (world : World σ) (bytes : List UInt8) (scene : Scene σ) :
    (scene.play world (bytes.map Event.byte)).2.session = (scene.session.feed bytes).2 := by
  induction bytes generalizing scene with
  | nil => rfl
  | cons byte rest inductionHypothesis =>
    rw [List.map_cons, Scene.play, happen_byte]
    exact inductionHypothesis _

end Bridge

end NfcFrontend.Host
