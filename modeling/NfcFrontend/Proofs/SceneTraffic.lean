import NfcFrontend.Proofs.Requests

/-!
# The traffic of a scenario

What a scenario showed to the outside is the traffic of its records in order, on the side of
the chip and on the side of the host. A byte that only waits for the next one shows nothing:
its record is silent, and it moves nothing but the session. The bytes of a request are
therefore silent up to the last, at which the request is carried out.
-/

namespace NfcFrontend.Host

namespace Record

/-- The exchanges with the chip during the event. -/
def chipTraffic : Record → List (Exchange Chip.Reply)
  | .bridge record => Bridge.chipTraffic record.exchanges
  | .restart records => records.flatMap Driver.Record.exchanges

/-- The bytes offered to the host during the event, each with whether a host took it. -/
def offered : Record → List (UInt8 × Bool)
  | .bridge record => Bridge.offered record.exchanges
  | .restart _ => []

/-- The bridge had nothing to do and nothing to report. -/
def Silent : Record → Prop
  | .bridge record => record.report = .ok () ∧ record.exchanges = []
  | .restart _ => False

end Record

/-- The exchanges with the chip while records were made. -/
def chipLog (records : List Record) : List (Exchange Chip.Reply) :=
  records.flatMap Record.chipTraffic

/-- The bytes offered to the host while records were made. -/
def hostLog (records : List Record) : List (UInt8 × Bool) :=
  records.flatMap Record.offered

/-- Records in two parts show the chip what the parts do. -/
@[simp] theorem chipLog_append (first second : List Record) :
    chipLog (first ++ second) = chipLog first ++ chipLog second :=
  List.flatMap_append

/-- They offer the host what the parts do. -/
@[simp] theorem hostLog_append (first second : List Record) :
    hostLog (first ++ second) = hostLog first ++ hostLog second :=
  List.flatMap_append

/-- The traffic of the first record comes first. -/
@[simp] theorem chipLog_cons (record : Record) (later : List Record) :
    chipLog (record :: later) = record.chipTraffic ++ chipLog later :=
  List.flatMap_cons

/-- So do its offers. -/
@[simp] theorem hostLog_cons (record : Record) (later : List Record) :
    hostLog (record :: later) = record.offered ++ hostLog later :=
  List.flatMap_cons

/-- Silent records have no traffic on either side. -/
theorem logs_silent {records : List Record} (silent : ∀ record ∈ records, record.Silent) :
    chipLog records = [] ∧ hostLog records = [] := by
  induction records with
  | nil => exact ⟨rfl, rfl⟩
  | cons record rest inductionHypothesis =>
    rw [List.forall_mem_cons] at silent
    obtain ⟨chip, host⟩ := inductionHypothesis silent.2
    cases record with
    | restart records => exact silent.1.elim
    | bridge record =>
      obtain ⟨-, still⟩ := silent.1
      rw [chipLog_cons, hostLog_cons, chip, host, Record.chipTraffic, Record.offered, still]
      exact ⟨rfl, rfl⟩

namespace Scene

variable {σ : Type}

/-- Every event leaves one record. -/
theorem length_play (world : World σ) (events : List Event) (scene : Scene σ) :
    (scene.play world events).1.length = events.length := by
  induction events generalizing scene with
  | nil => rfl
  | cons event rest inductionHypothesis =>
    rw [play]
    exact congrArg (· + 1) (inductionHypothesis _)

/-- Bytes that only wait for later ones leave silent records, and move the session alone. -/
theorem play_waiting (world : World σ) (bytes : List UInt8) (scene : Scene σ)
    (waits : ∀ step ∈ (scene.session.feed bytes).1, step = .ok .pending) :
    ∃ records : List Record, records.length = bytes.length ∧
      (∀ record ∈ records, record.Silent) ∧
      scene.play world (bytes.map Event.byte) =
        (records, { scene with session := (scene.session.feed bytes).2 }) := by
  induction bytes generalizing scene with
  | nil => exact ⟨[], rfl, by simp, rfl⟩
  | cons byte rest inductionHypothesis =>
    rw [Session.feed, List.forall_mem_cons] at waits
    obtain ⟨waited, later⟩ := waits
    obtain ⟨records, length, silent, played⟩ :=
      inductionHypothesis { scene with session := (scene.session.accept byte).2 } later
    let shown : BridgeRecord := ⟨.ok (), [], (scene.session.accept byte).2, scene.queue.length⟩
    have happened : scene.happen world (.byte byte) =
        (.bridge shown, { scene with session := (scene.session.accept byte).2 }) := by
      rw [Bridge.happen_byte, waited]
      rfl
    refine ⟨.bridge shown :: records, congrArg (· + 1) length, ?_, ?_⟩
    · rw [List.forall_mem_cons]
      exact ⟨⟨rfl, rfl⟩, silent⟩
    · rw [List.map_cons, play, happened]
      dsimp only
      rw [played]
      rfl

/-- A request is carried out at its last byte. -/
theorem play_encode (world : World σ) (request : Request) (queue : Queue) (state : σ) :
    let executed := (Bridge.execute request).run world.serve (queue, state)
    ∃ records : List Record, (∀ record ∈ records, record.Silent) ∧
      (⟨Session.fresh, queue, state⟩ : Scene σ).play world (request.encode.map Event.byte) =
        (records ++ [.bridge ⟨executed.result, executed.exchanges, Session.fresh,
          executed.state.1.length⟩], ⟨Session.fresh, executed.state.1, executed.state.2⟩) := by
  have fits : request.parameters.length ≤ paramsMax := by
    have few : request.opcode.parameterCount ≤ 2 := request.opcode.parameterCount_le
    rw [request.length_parameters]
    exact Nat.le_trans few (by decide)
  obtain ⟨waits, pending, fed⟩ := Session.feed_request paramsMax request fits
  obtain ⟨earlier, last, split⟩ : ∃ earlier last, request.encode = earlier ++ [last] :=
    ⟨_, _, (List.dropLast_concat_getLast (List.cons_ne_nil _ _)).symm⟩
  rw [split, Session.feed_append, Prod.mk.injEq] at fed
  obtain ⟨steps, left⟩ := fed
  obtain ⟨rfl, ready⟩ := List.append_inj' steps rfl
  obtain ⟨records, -, silent, played⟩ :=
    play_waiting world earlier ⟨Session.fresh, queue, state⟩ pending
  refine ⟨records, silent, ?_⟩
  have ended : (((Session.fresh : Bridge.Connection).feed earlier).2.accept last) =
      (.ok (.ready request), Session.fresh) :=
    Prod.ext (List.singleton_inj.mp ready) left
  rw [split, List.map_append, play_append, played]
  simp only [List.map_cons, List.map_nil, play, Bridge.happen_byte, ended]
  rfl

end Scene

end NfcFrontend.Host
