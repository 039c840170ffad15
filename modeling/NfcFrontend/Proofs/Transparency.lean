import NfcFrontend.Proofs.Attempts
import NfcFrontend.Proofs.BusHistory
import NfcFrontend.Proofs.FaultPlan
import NfcFrontend.Proofs.PlainChip
import NfcFrontend.Proofs.RegisterMap

/-!
# Frames are transparent

Encoding an access, sending its frame and decoding it at the other end adds nothing and loses
nothing. Driver operations on a register file behind a bus end as they do over a map, with the
same bytes handed over, and leave the same bytes behind, for any operations, arguments and
failures.

`Agrees` compares a run on the bench with work on the map, and it composes: a run in two parts
agrees if both parts do. So it is shown for the single access and the single level, and then
followed along the driver, operation by operation.
-/

namespace NfcFrontend

namespace Chip

/-- Every answered read returns what was last written to its address, or else what was there at
first. -/
def ReadsBack (value : Address → UInt8) (traffic : List (Access × Option Frame)) : Prop :=
  ∀ before address response after, traffic = before ++ (.read address, some response) :: after →
    response.second = (lastWrite? address (carried before)).getD (value address)

/-- Traffic may be continued from the bytes that its first part leaves. -/
theorem ReadsBack.append {value between : Address → UInt8}
    {first second : List (Access × Option Frame)} (begun : ReadsBack value first)
    (left : ∀ address, between address =
      (lastWrite? address (carried first)).getD (value address))
    (rest : ReadsBack between second) : ReadsBack value (first ++ second) := by
  intro before address response after split
  have late (front : List (Access × Option Frame))
      (inside : second = front ++ (.read address, some response) :: after) :
      response.second = (lastWrite? address (carried (first ++ front))).getD (value address) := by
    rw [rest front address response after inside, left, carried_append, getD_lastWrite?_append]
  rcases List.append_eq_append_iff.mp split with ⟨front, rfl, inside⟩ | ⟨back, inside, reached⟩
  · exact late front inside
  · cases back with
    | nil =>
      rw [List.append_nil] at inside
      have shown := late [] reached.symm
      rwa [List.append_nil, inside] at shown
    | cons entry others =>
      obtain ⟨rfl, -⟩ := List.cons.inj reached
      exact begun before address response others inside

/-- Where there is no traffic, nothing is read back. -/
theorem readsBack_nil (value : Address → UInt8) : ReadsBack value [] := by
  intro before address response after split
  cases before <;> cases split

/-- A single access that is not answered reads nothing back. -/
theorem readsBack_unanswered (value : Address → UInt8) (access : Access) :
    ReadsBack value [(access, none)] := by
  intro before address response after split
  have among : (.read address, some response) ∈ [(access, none)] := by
    rw [split]
    exact List.mem_append_right before List.mem_cons_self
  cases List.mem_singleton.mp among

/-- One that is answered reads back what its response has in the second place. -/
theorem readsBack_answered {value : Address → UInt8} {access : Access} {response : Frame}
    (handed : ∀ address, access = .read address → response.second = value address) :
    ReadsBack value [(access, some response)] := by
  intro before address other after split
  cases before with
  | nil =>
    obtain ⟨same, -⟩ := List.cons.inj split
    obtain ⟨read, answer⟩ := Prod.mk.inj same
    rw [← Option.some.inj answer]
    exact handed address read
  | cons entry rest =>
    obtain ⟨-, empty⟩ := List.cons.inj split
    cases rest <;> cases empty

end Chip

namespace Bench

variable {α β : Type} {bench : Bench} {map : RegisterMap}

/-- The register file has the bytes of the map and has recorded the same accesses. -/
structure Shows (file : RegisterFile) (map : RegisterMap) : Prop where
  registers : ∀ address, file.memory.get address = map.value address
  accesses : file.accesses = map.record
  /-- Only accesses that succeed are transactions of the device. -/
  transactions : file.transactions = map.record.length

/-- The bench has such a register file with nothing scripted, and is as far in its plan. -/
structure Refines (bench : Bench) (map : RegisterMap) : Prop where
  device : ∃ file, bench.device = .registers file ∧ Shows file map
  unscripted : ∀ address, bench.script address = []
  transactions : bench.transactions = map.tried.length
  pinCalls : bench.pinCalls = map.levels.length

/-- A bench that has not been used has the bytes of its memory. -/
theorem refines_ofMemory (memory : Memory) : Refines (ofMemory memory) (.ofMemory memory) where
  device := ⟨.ofMemory memory, rfl, fun _ => rfl, rfl, rfl⟩
  unscripted _ := rfl
  transactions := rfl
  pinCalls := rfl

/-- What a run shows, beginning at a bench that refines the map, is what work on the map has
done. -/
structure Agrees (map : RegisterMap) (run : Run Chip.Reply Bench α) (done : α × RegisterMap) :
    Prop where
  result : run.result = done.1
  state : Refines run.state done.2
  tried : done.2.tried = map.tried ++ (Chip.busTraffic run.exchanges).map Prod.fst
  record : done.2.record = map.record ++ Chip.carried (Chip.busTraffic run.exchanges)
  levels : done.2.levels = map.levels ++ (Chip.pinTraffic run.exchanges).map Prod.fst
  values : ∀ address, done.2.value address =
    (Chip.lastWrite? address (Chip.carried (Chip.busTraffic run.exchanges))).getD
      (map.value address)
  reads : Chip.ReadsBack map.value (Chip.busTraffic run.exchanges)

/-- Nothing done is nothing shown. -/
theorem Refines.agrees (refines : Refines bench map) (result : α) :
    Agrees map ⟨result, [], bench⟩ (result, map) where
  result := rfl
  state := refines
  tried := (List.append_nil _).symm
  record := (List.append_nil _).symm
  levels := (List.append_nil _).symm
  values _ := rfl
  reads := Chip.readsBack_nil map.value

/-- Agreement composes, with any result made of the two. -/
theorem Agrees.append {γ : Type} {first : Run Chip.Reply Bench α} {second : Run Chip.Reply Bench β}
    {done : α × RegisterMap} {later : β × RegisterMap} (begun : Agrees map first done)
    (rest : Agrees done.2 second later) (combine : α → β → γ) :
    Agrees map ⟨combine first.result second.result, first.exchanges ++ second.exchanges,
      second.state⟩ (combine done.1 later.1, later.2) where
  result := by rw [begun.result, rest.result]
  state := rest.state
  tried := by
    rw [rest.tried, begun.tried, Chip.busTraffic_append, List.map_append, List.append_assoc]
  record := by
    rw [rest.record, begun.record, Chip.busTraffic_append, Chip.carried_append, List.append_assoc]
  levels := by
    rw [rest.levels, begun.levels, Chip.pinTraffic, Chip.pinTraffic, Chip.pinTraffic,
      List.filterMap_append, List.map_append, List.append_assoc]
  values address := by
    rw [rest.values, begun.values, Chip.busTraffic_append, Chip.carried_append,
      Chip.getD_lastWrite?_append]
  reads := by
    rw [Chip.busTraffic_append]
    exact begun.reads.append begun.values rest.reads

/-! ## One access and one level -/

/-- A transaction that the plan fails leaves all bytes as they are. -/
theorem Refines.access_failed {plan : Plan} (refines : Refines bench map)
    (fails : plan.busFails map.tried.length = true) (access : Access) :
    Agrees map (Program.run (serve plan) (Driver.access access).run bench)
      (.error (.fault .spi), map.refuse access) := by
  obtain ⟨⟨file, registers, shown⟩, unscripted, transactions, pinCalls⟩ := refines
  rw [← transactions] at fails
  have failed : serve plan (.access access) bench =
      (none, { bench with transactions := bench.transactions + 1 }) :=
    transfer_failed access.frame fails
  have counted : bench.transactions + 1 = (map.tried ++ [access]).length := by
    rw [List.length_append, transactions, List.length_singleton]
  rw [Driver.run_access_unanswered _ _ (congrArg Prod.fst failed), failed]
  exact {
    result := rfl
    state := ⟨⟨file, registers, shown.registers, shown.accesses, shown.transactions⟩, unscripted,
      counted, pinCalls⟩
    tried := rfl
    record := (List.append_nil _).symm
    levels := (List.append_nil _).symm
    values := fun _ => rfl
    reads := Chip.readsBack_unanswered map.value access }

/-- A register file answers an access as the map carries it out, with the byte that is read in the
second place of the response. -/
theorem Shows.answer {file : RegisterFile} (shown : Shows file map) (access : Access) :
    let answered := { file with transactions := file.transactions + 1 }.answer access
    Shows answered.2 (map.carry access) ∧
      ∀ address, access = .read address → answered.1.second = map.value address := by
  intro answered
  have accesses : answered.2.accesses = map.record ++ [access] := by
    rw [RegisterFile.accesses_answer, ← shown.accesses]
    rfl
  have transactions : answered.2.transactions = (map.record ++ [access]).length := by
    rw [List.length_append, List.length_singleton, ← shown.transactions]
    cases access <;> rfl
  cases access with
  | read address =>
    refine ⟨⟨shown.registers, accesses, transactions⟩, ?_⟩
    intro other same
    cases same
    exact shown.registers address
  | write address byte =>
    refine ⟨⟨fun other => ?_, accesses, transactions⟩, fun _ impossible => nomatch impossible⟩
    have stored : answered.2.memory.get other = (file.memory.set address byte).get other := rfl
    rw [stored, Memory.get_set, shown.registers other]
    rfl

/-- A transaction that reaches the register file is carried out, and a byte read is handed over. -/
theorem Refines.access_passed {plan : Plan} (refines : Refines bench map)
    (passes : plan.busFails map.tried.length = false) (access : Access) :
    ∃ byte, (∀ address, access = .read address → byte = map.value address) ∧
      Agrees map (Program.run (serve plan) (Driver.access access).run bench)
        (.ok byte, map.carry access) := by
  obtain ⟨_, script, _, _, sends⟩ := bench
  obtain ⟨⟨file, rfl, shown⟩, unscripted, rfl, rfl⟩ := refines
  obtain ⟨left, handed⟩ := shown.answer access
  have passed : serve plan (.access access)
      ⟨.registers file, script, map.tried.length, map.levels.length, sends⟩ = _ :=
    transfer_unscripted passes unscripted file access map.levels.length sends
  have counted : map.tried.length + 1 = (map.tried ++ [access]).length := by
    rw [List.length_append, List.length_singleton]
  rw [Driver.run_access_answered _ _ (congrArg Prod.fst passed), passed]
  exact ⟨_, handed, {
    result := rfl
    state := ⟨⟨_, rfl, left⟩, unscripted, counted, rfl⟩
    tried := rfl
    record := rfl
    levels := (List.append_nil _).symm
    values := map.value_carry access
    reads := Chip.readsBack_answered handed }⟩

/-! ## The driver -/

/-- On every bench that refines a map, the program shows what the work does on the map. -/
def Mirrors (plan : Plan) (program : Program Chip.Reply α) (work : StateM RegisterMap α) : Prop :=
  ∀ bench map, Refines bench map → Agrees map (program.run (serve plan) bench) (work.run map)

namespace Mirrors

open NfcFrontend.Driver
open RegisterMap (Work)

variable {plan : Plan}

/-- Being done mirrors doing nothing. -/
theorem done (result : α) : Mirrors plan (.done result) (pure result) :=
  fun _ _ refines => refines.agrees result

/-- Programs in sequence mirror work in sequence. -/
theorem bind {program : Program Chip.Reply α} {work : StateM RegisterMap α}
    {next : α → Program Chip.Reply β} {later : α → StateM RegisterMap β}
    (first : Mirrors plan program work)
    (rest : ∀ result, Mirrors plan (next result) (later result)) :
    Mirrors plan (program >>= next) (work >>= later) := by
  intro bench map refines
  have begun := first bench map refines
  have ended := rest (work.run map).1 _ _ begun.state
  have same := begun.result
  rw [Program.run_bind]
  dsimp only
  rw [same]
  exact begun.append ended fun _ result => result

/-- An action in two parts mirrors work in two parts: either skips the second part when the first
one stops. -/
theorem seq {action : Action α} {work : Work α} {next : α → Action β} {later : α → Work β}
    (first : Mirrors plan action.run work.run)
    (rest : ∀ value, Mirrors plan (next value).run (later value).run) :
    Mirrors plan (action >>= next).run (work >>= later).run := by
  rw [ExceptT.run_bind, ExceptT.run_bind]
  refine first.bind ?_
  intro result
  cases result with
  | error stop => exact .done _
  | ok value => exact rest value

/-- A read mirrors getting the byte. -/
theorem read (address : Address) :
    Mirrors plan (Driver.read address).run (RegisterMap.get plan address).run := by
  intro bench map refines
  cases fails : plan.busFails map.tried.length with
  | true =>
    rw [RegisterMap.get_failed fails]
    exact refines.access_failed fails (.read address)
  | false =>
    obtain ⟨byte, handed, agrees⟩ := refines.access_passed fails (.read address)
    rw [RegisterMap.get_passed fails, ← handed address rfl]
    exact agrees

/-- A write mirrors setting the byte, and drops the response. -/
theorem write (address : Address) (byte : UInt8) :
    Mirrors plan (Driver.write address byte).run (RegisterMap.set plan address byte).run := by
  intro bench map refines
  rw [Driver.write, ExceptT.run_bind, Program.run_bind]
  dsimp only
  cases fails : plan.busFails map.tried.length with
  | true =>
    have agrees := refines.access_failed fails (.write address byte)
    rw [RegisterMap.set_failed fails, agrees.result]
    exact agrees.append (agrees.state.agrees _) fun _ result => result
  | false =>
    obtain ⟨_, -, agrees⟩ := refines.access_passed fails (.write address byte)
    rw [RegisterMap.set_passed fails, agrees.result]
    exact agrees.append (agrees.state.agrees _) fun _ result => result

/-- A level on the reset pin touches no byte. -/
theorem drive (level : Level) :
    Mirrors plan (Driver.drive level).run (RegisterMap.drive plan level).run := by
  intro bench map refines
  obtain ⟨⟨file, registers, shown⟩, unscripted, transactions, pinCalls⟩ := refines
  have ran : Program.run (serve plan) (Driver.drive level).run bench =
      ⟨if plan.pinFails bench.pinCalls then .error (.fault .pin) else .ok (),
        [⟨.drive level, !plan.pinFails bench.pinCalls⟩],
        { bench with pinCalls := bench.pinCalls + 1 }⟩ := by
    have served : (serve plan (.drive level) bench).1 = !plan.pinFails bench.pinCalls := rfl
    rw [Driver.drive, ExceptT.run_mk, Program.run_ask, served]
    cases plan.pinFails bench.pinCalls <;> rfl
  have counted : bench.pinCalls + 1 = (map.levels ++ [level]).length := by
    rw [List.length_append, pinCalls, List.length_singleton]
  rw [ran]
  exact {
    result := by rw [pinCalls]; rfl
    state := ⟨⟨file, registers, shown.registers, shown.accesses, shown.transactions⟩, unscripted,
      transactions, counted⟩
    tried := (List.append_nil _).symm
    record := (List.append_nil _).symm
    levels := rfl
    values := fun _ => rfl
    reads := Chip.readsBack_nil map.value }

/-! ## Parts of operations -/

/-- A byte that is no address is refused without an access. -/
theorem named (byte : UInt8) :
    Mirrors plan (Action.ofArgument (Address.ofByte byte)).run (RegisterMap.named byte).run := by
  rcases Address.ofByte_cases byte with ⟨address, rfl, found⟩ | ⟨outside, refused⟩
  · rw [found, RegisterMap.named_byte]
    exact .done _
  · rw [refused, RegisterMap.named, dif_neg (Nat.not_lt.mpr outside)]
    exact .done _

/-- A changed register mirrors a changed byte. -/
theorem modify (register : Register) (changed : UInt8 → UInt8) :
    Mirrors plan (Driver.modify register changed).run
      (RegisterMap.change plan register.address changed).run :=
  seq (read register.address) fun content => write register.address (changed content)

/-- Entries are written one by one. -/
theorem writeEntries (entries : List (Address × UInt8)) :
    Mirrors plan (Driver.writeEntries entries).run (RegisterMap.setEach plan entries).run := by
  induction entries with
  | nil => exact .done _
  | cons entry rest inductionHypothesis =>
    exact seq (write entry.1 entry.2) fun _ => inductionHypothesis

/-- So are the bytes of a block, all at the same address. -/
theorem pushBytes (block : List UInt8) :
    Mirrors plan (Driver.pushBytes block).run (RegisterMap.push plan block).run := by
  induction block with
  | nil => exact .done _
  | cons byte rest inductionHypothesis =>
    exact seq (write .fifoData byte) fun _ => inductionHypothesis

/-- A buffer is filled with the bytes that are got, up to the same place. -/
theorem fillBuffer (buffer : List UInt8) :
    Mirrors plan (Driver.fillBuffer buffer) (RegisterMap.fill plan buffer) := by
  induction buffer with
  | nil => exact .done _
  | cons old rest inductionHypothesis =>
    refine (read .fifoData).bind ?_
    intro result
    cases result with
    | error stop => exact .done _
    | ok byte => exact inductionHypothesis.bind fun _ => .done _

/-- A flush sets bit 4. -/
theorem flushFifo :
    Mirrors plan Driver.flushFifo.run
      (RegisterMap.change plan .fifoControl (· ||| 0x10)).run := by
  have flushed : (Setting.fifoFlush true).apply = (· ||| 0x10) := funext Setting.apply_fifoFlush
  rw [Driver.flushFifo, flushed]
  exact modify .fifoControl (· ||| 0x10)

/-- A change of mode sets bit 4 and then writes bit 7. -/
theorem setFifoMode (mode : FifoMode) :
    Mirrors plan (Driver.setFifoMode mode).run (do
      RegisterMap.change plan .fifoControl (· ||| 0x10)
      RegisterMap.change plan .fifoControl fun control =>
        match mode with
        | .small => control ||| 0x80
        | .large => control &&& 0x7F : Work Unit).run := by
  have selected := funext (Setting.apply_fifoSize mode)
  rw [Driver.setFifoMode, selected]
  exact seq flushFifo fun _ => modify .fifoControl _

/-- A command is started by setting the command register to its code. -/
theorem execute (command : ChipCommand) :
    Mirrors plan (Driver.execute command).run (RegisterMap.set plan .command command.code).run := by
  rw [Driver.execute, Setting.apply_fresh]
  exact write .command command.code

/-- A block is set byte by byte, or refused for its length without an access. -/
theorem writeFifo (block : List UInt8) :
    Mirrors plan (Driver.writeFifo block).run
      (if block.length ≤ 512 then RegisterMap.push plan block
        else throw (.abort .transferTooLong) : Work Unit).run := by
  have limit : FifoMode.large.capacity = 512 := rfl
  rw [Driver.writeFifo, limit]
  by_cases fits : block.length ≤ 512
  · rw [if_pos fits, if_pos fits]
    exact pushBytes block
  · rw [if_neg fits, if_neg fits]
    exact .done _

/-- A command with a payload that fits. -/
theorem payload (block : List UInt8) (fits : block.length ≤ 512) (command : ChipCommand) :
    Mirrors plan (do
      Driver.idle
      Driver.flushFifo
      Driver.writeFifo block
      Driver.execute command : Action Unit).run (RegisterMap.start plan block command).run := by
  have filled : Mirrors plan (Driver.writeFifo block).run (RegisterMap.push plan block).run := by
    have either : Mirrors plan (Driver.writeFifo block).run _ := writeFifo block
    rwa [if_pos fits] at either
  exact seq (execute .idle) fun _ => seq flushFifo fun _ => seq filled fun _ => execute command

/-- Both settings of a protocol have its identifier for a code. -/
theorem loadProtocol (id : UInt8) :
    Mirrors plan (do Driver.loadProtocol (← Action.ofArgument (Protocol.ofId id)) : Action Unit).run
      (if id.toNat ≤ 9 then RegisterMap.start plan [id, id] .loadProtocol
        else throw (.fault (.invalidProtocol id)) : Work Unit).run := by
  rcases Protocol.ofId_cases id with ⟨protocol, rfl, found⟩ | ⟨unknown, refused⟩
  · rw [found, if_pos protocol.code_le]
    exact payload [protocol.code, protocol.code] (by simp) .loadProtocol
  · rw [refused, if_neg (Nat.not_le.mpr unknown)]
    exact .done _

/-- A patch is set at consecutive addresses, or refused for its end without an access. -/
theorem writePatch (patch : Patch) :
    Mirrors plan (Driver.writePatch patch).run
      (if patch.first.index.val + patch.values.length ≤ 0x80 then
        RegisterMap.setEach plan patch.listing
        else throw (.fault (.invalidAddress 0x80)) : Work Unit).run := by
  have bound : patch.Fits ↔ patch.first.index.val + patch.values.length ≤ 0x80 := Iff.rfl
  rw [Driver.writePatch_eq]
  by_cases fits : patch.Fits
  · rw [if_pos fits, if_pos (bound.mp fits)]
    exact writeEntries patch.listing
  · rw [if_neg fits, if_neg (mt bound.mpr fits)]
    exact .done _

/-- Answering with a value renames it. -/
theorem answering {action : Action α} {work : Work α} (first : Mirrors plan action.run work.run)
    (answer : α → Answer) :
    Mirrors plan ((fun verdict => Outcome.bare (verdict.map answer)) <$> action.run)
      (RegisterMap.answering answer work) := by
  rw [← bind_pure_comp]
  exact first.bind fun _ => .done _

/-- A block read hands back the same buffer, and refuses the same ones. -/
theorem readFifo (buffer : List UInt8) :
    Mirrors plan (Op.readFifo buffer).program (RegisterMap.operate plan (.readFifo buffer)) := by
  have limit : FifoMode.large.capacity = 512 := rfl
  rw [Op.program, RegisterMap.operate, ← bind_pure_comp, Driver.readFifo, limit]
  by_cases fits : buffer.length ≤ 512
  · rw [if_pos fits, if_pos fits]
    exact (fillBuffer buffer).bind fun _ => .done _
  · rw [if_neg fits, if_neg fits]
    exact .done _

/-- Every operation of the driver mirrors the operation on the map. -/
theorem operation (plan : Plan) (operation : Op) :
    Mirrors plan operation.program (RegisterMap.operate plan operation) := by
  cases operation with
  | read address => exact answering (seq (named _) fun _ => read _) _
  | write address value => exact answering (seq (named _) fun _ => write _ value) _
  | readRegister register => exact answering (read _) _
  | writeRegister register content => exact answering (write _ content) _
  | modify register change => exact answering (modify register change) _
  | writePatch address values => exact answering (seq (named _) fun _ => writePatch _) _
  | readVersion => exact answering (read _) _
  | enableField => exact answering (write _ _) _
  | disableField => exact answering (write _ _) _
  | powerUp => exact answering (drive .low) _
  | powerDown => exact answering (drive .high) _
  | flushFifo => exact answering flushFifo _
  | setFifoMode mode => exact answering (setFifoMode mode) _
  | writeFifo block => exact answering (writeFifo block) _
  | readFifo buffer => exact readFifo buffer
  | fifoLength => exact answering (seq (read _) fun _ => seq (read _) fun _ => .done _) _
  | execute command => exact answering (execute command) _
  | idle => exact answering (execute .idle) _
  | detectCard => exact answering (seq (execute .idle) fun _ => execute .lpcd) _
  | loadKey key => exact answering (payload _ (by rw [Vector.length_toList]; decide) _) _
  | loadProtocol id => exact answering (loadProtocol id) _
  | loadSettings receiver transmitter => exact answering (payload _ (by simp) _) _

end Mirrors

/-! ## Transparency -/

/-- Operations in order show what they do on the map, one after the other. -/
theorem operateAll_agrees (plan : Plan) (operations : List Driver.Op)
    (refines : Refines bench map) :
    let operated := Driver.operateAll (serve plan) operations bench
    Agrees map ⟨operated.1.map Driver.Record.outcome, operated.1.flatMap Driver.Record.exchanges,
      operated.2⟩ (RegisterMap.operateAll plan operations map) := by
  induction operations generalizing bench map with
  | nil => exact refines.agrees []
  | cons operation rest inductionHypothesis =>
    have first := Mirrors.operation plan operation bench map refines
    exact first.append (inductionHypothesis first.state) List.cons

/-- How an access appears on the bus. -/
structure Framed (access : Access) : Prop where
  /-- The address leaves the top bit of a byte clear, so the shift loses nothing. -/
  address : access.address.byte.toNat ≤ 0x7F
  bytes : access.frame.bytes = match access with
    | .read address => [(address.byte <<< 1) ||| 1, 0xDB]
    | .write address value => [address.byte <<< 1, value]
  /-- A register file takes the frame for this access. -/
  decoded : ∀ file : RegisterFile, file.exchange access.frame.bytes = .ok (file.answer access)

/-- Every access is framed like this. -/
theorem framed (access : Access) : Framed access where
  address := access.address.byte_le
  bytes := by cases access <;> rfl
  decoded file := by
    show Except.ok (file.answer access.frame.access) = _
    rw [access.access_frame]

/-- The driver over frames is the driver over a map. Any operations under any plan end alike on
both and fill the buffers with the same bytes; they try the same accesses, of which the same ones
succeed, and leave the same bytes. The transactions of the device are the accesses that succeeded.
Hence an operation that reads an address returns what was last written to it by then, and so does
every answered read on the bus. Each frame is taken for the access it was made from.

Proof: agreement is followed along the operations. For the verdict of a read, the operations before
it lead bench and map to the same bytes, which are the last ones written. -/
theorem operateAll_refines_map (memory : Memory) (plan : Plan) (operations : List Driver.Op) :
    let bench := Driver.operateAll (serve plan) operations (ofMemory memory)
    let map := RegisterMap.operateAll plan operations (.ofMemory memory)
    let traffic := Driver.traffic bench.1
    bench.1.map Driver.Record.outcome = map.1 ∧
      (traffic.map Prod.fst = map.2.tried ∧ Chip.carried traffic = map.2.record ∧
        (Chip.pinTraffic (bench.1.flatMap Driver.Record.exchanges)).map Prod.fst = map.2.levels) ∧
      (∃ file, bench.2.device = .registers file ∧ Shows file map.2) ∧
      (∀ earlier operation later address, operations = earlier ++ operation :: later →
        operation.Reads address →
          ∃ before record after, bench.1 = before ++ record :: after ∧
            before.length = earlier.length ∧
            record.outcome.verdict =
              if plan.busFails (Driver.traffic before).length then .error (.fault .spi)
              else .ok (.byte ((Chip.lastWrite? address
                (Chip.carried (Driver.traffic before))).getD (memory.get address)))) ∧
      (∀ before address response after,
        traffic = before ++ (.read address, some response) :: after →
          response.second =
            (Chip.lastWrite? address (Chip.carried before)).getD (memory.get address)) ∧
      ∀ entry ∈ traffic, Framed entry.1 := by
  intro bench map traffic
  have agrees := operateAll_agrees plan operations (refines_ofMemory memory)
  have shown : traffic = Chip.busTraffic (bench.1.flatMap Driver.Record.exchanges) :=
    Driver.traffic_eq bench.1
  have tried := agrees.tried
  have record := agrees.record
  have readsBack := agrees.reads
  dsimp only at tried record readsBack
  rw [← shown] at tried record readsBack
  refine ⟨agrees.result, ⟨tried.symm, record.symm, agrees.levels.symm⟩, agrees.state.device, ?_,
    readsBack, fun entry _ => framed entry.1⟩
  rintro earlier operation later address rfl reads
  -- The operation begins where those before it have led bench and map.
  have begun := operateAll_agrees plan earlier (refines_ofMemory memory)
  have here := Mirrors.operation plan operation _ _ begun.state
  have before := begun.tried
  have held := begun.values address
  dsimp only at before held
  rw [← Driver.traffic_eq] at before held
  refine ⟨_, (Driver.operate (serve plan) operation _).1, _,
    congrArg Prod.fst (Driver.operateAll_append (serve plan) earlier (operation :: later) _),
    Driver.length_operateAll _ _ _, ?_⟩
  have verdict : (operation.program.run (serve plan) _).result.verdict = _ :=
    congrArg Driver.Outcome.verdict here.result
  rw [RegisterMap.verdict_operate reads, before, held, RegisterMap.ofMemory, List.nil_append,
    List.length_map] at verdict
  exact verdict

end Bench

end NfcFrontend
