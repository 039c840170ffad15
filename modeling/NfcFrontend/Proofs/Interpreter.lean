import NfcFrontend.Proofs.Completion
import NfcFrontend.Proofs.Cut
import NfcFrontend.Proofs.PlainChip
import NfcFrontend.Proofs.Requests

/-!
# What a host stream means

`interpret` says what a stream of host bytes does, without a session, a driver or a bus:
cut the stream into frames, then run the frames in order on 128 bytes. A frame is told by
the numbers in it. The interpreter has no opcodes, requests or protocols, and no part of it
is a part of the bridge. The bridge on a register file that never fails is that
interpreter, seen from outside.

The host may write the registers that the driver's own sequences use. The interpreter
therefore works on the same 128 bytes for both, and loading a protocol is a
read-modify-write of whatever the host has left in the FIFO control register.
-/

namespace NfcFrontend.Host

/-! ## The interpreter -/

/-- What frames come to: the bytes the host gets, and the registers afterwards. -/
structure Meaning where
  responses : List UInt8
  cells : Vector UInt8 128

/-- What one frame comes to. Its first byte tells what it asks for, and a stream is cut so that
the parameters are as many as that takes. -/
def interpretFrame (cells : Vector UInt8 128) : List UInt8 → Meaning
  | [] => ⟨[], cells⟩
  | code :: parameters =>
    match code with
    | 0x00 =>
      match parameters with
      | [address] =>
        if inside : address.toNat ≤ 0x7F then
          ⟨[cells.get ⟨address.toNat, Nat.lt_succ_of_le inside⟩], cells⟩
        else ⟨[0xFF, 0xAB], cells⟩
      | _ => ⟨[], cells⟩
    | 0x01 =>
      match parameters with
      | [address, value] =>
        if inside : address.toNat ≤ 0x7F then
          ⟨[], cells.set address.toNat value (Nat.lt_succ_of_le inside)⟩
        else ⟨[0xFF, 0xAB], cells⟩
      | _ => ⟨[], cells⟩
    | 0x02 =>
      match parameters with
      | [id] =>
        if id.toNat ≤ 9 then
          -- A flush is requested, the transmitter is sent, and the command is started.
          let flushed := cells.set 0x02 (cells.get ⟨0x02, by decide⟩ ||| 0x10) (by decide)
          let filled := flushed.set 0x05 id (by decide)
          ⟨[0xBB], filled.set 0x00 0x0D (by decide)⟩
        else ⟨[0xFF, 0xAB], cells⟩
      | _ => ⟨[], cells⟩
    | 0x03 => ⟨[0xBB], cells.set 0x28 0x8E (by decide)⟩
    | 0x04 => ⟨[0xBB], cells.set 0x28 0x00 (by decide)⟩
    | _ => ⟨[0xFF, 0xAA], cells⟩

/-- What frames in order come to. -/
def interpretAll (cells : Vector UInt8 128) : List (List UInt8) → Meaning
  | [] => ⟨[], cells⟩
  | frame :: rest =>
    let meaning := interpretFrame cells frame
    let later := interpretAll meaning.cells rest
    ⟨meaning.responses ++ later.responses, later.cells⟩

/-- What a stream comes to: its frames, without the incomplete one at its end. -/
def interpret (cells : Vector UInt8 128) (bytes : List UInt8) : Meaning :=
  interpretAll cells (cut bytes).frames

/-! ## Frames and requests

The bridge looks opcodes up and builds requests of their parameters. Here its reading of a
frame is compared with the numbers of the interpreter, one kind of frame at a time.
-/

/-- The frame of a byte that is no opcode leaves the registers alone. -/
theorem interpretFrame_stray (cells : Vector UInt8 128) {byte : UInt8}
    (foreign : (Coded.ofByte? byte : Option Opcode) = none) :
    interpretFrame cells [byte] = ⟨[0xFF, 0xAA], cells⟩ := by
  have above : 5 ≤ byte.toNat := (Opcode.foreign_iff byte).mp foreign
  have other (number : UInt8) (small : number.toNat < 5) : byte ≠ number := by
    rintro rfl
    exact absurd above (Nat.not_le.mpr small)
  rw [interpretFrame]
  · exact other 0x00 (by decide)
  · exact other 0x01 (by decide)
  · exact other 0x02 (by decide)
  · exact other 0x03 (by decide)
  · exact other 0x04 (by decide)

/-- A request out of range leaves the registers alone. -/
theorem interpretFrame_refused (cells : Vector UInt8 128) {request : Request}
    (outOfRange : request.Refused) :
    interpretFrame cells request.encode = ⟨[0xFF, 0xAB], cells⟩ := by
  cases request with
  | regRead address | regWrite address value =>
    have outside : ¬ address.toNat ≤ 0x7F := Nat.not_le.mpr outOfRange
    exact dif_neg outside
  | protocolSet id =>
    have unknown : ¬ id.toNat ≤ 9 := Nat.not_le.mpr outOfRange
    exact if_neg unknown
  | rfFieldOn | rfFieldOff => exact outOfRange.elim

/-- A read in range gets the byte at its address. -/
theorem interpretFrame_read (memory : Memory) (address : Address) :
    interpretFrame memory.cells (Request.regRead address.byte).encode =
      ⟨[memory.get address], memory.cells⟩ := by
  have inside : address.byte.toNat < 128 := Nat.lt_succ_of_le address.byte_le
  have read : interpretFrame memory.cells (Request.regRead address.byte).encode =
      ⟨[memory.cells[address.byte.toNat]], memory.cells⟩ := dif_pos address.byte_le
  rw [read]
  simp only [address.toNat_byte, Memory.get]

/-- A write in range replaces the byte at its address. -/
theorem interpretFrame_write (memory : Memory) (address : Address) (value : UInt8) :
    interpretFrame memory.cells (Request.regWrite address.byte value).encode =
      ⟨[], (memory.set address value).cells⟩ := by
  have inside : address.byte.toNat < 128 := Nat.lt_succ_of_le address.byte_le
  have written : interpretFrame memory.cells (Request.regWrite address.byte value).encode =
      ⟨[], memory.cells.set address.byte.toNat value⟩ := dif_pos address.byte_le
  rw [written]
  simp only [address.toNat_byte, Memory.set]

/-- What loading a protocol leaves: a flush requested, the transmitter as the last byte in
the FIFO, and the command started. -/
def loaded (memory : Memory) (protocol : Protocol) : Memory :=
  ((memory.set .fifoControl (memory.get .fifoControl ||| 0x10)).set .fifoData
    (Coded.code protocol.transmitter)).set .command 0x0D

/-- A protocol is loaded. The code of its transmitter is its identifier. -/
theorem interpretFrame_load (memory : Memory) (protocol : Protocol) :
    interpretFrame memory.cells (Request.protocolSet protocol.code).encode =
      ⟨[0xBB], (loaded memory protocol).cells⟩ :=
  if_pos protocol.code_le

/-! ## Requests on a plain chip -/

/-- The driver cancels the running command and sends the receiver first; neither can be
seen in the registers afterwards. -/
theorem run_loadProtocol (memory : Memory) (protocol : Protocol) :
    let ran := Program.run Memory.serve (Driver.loadProtocol protocol).run memory
    ran.result = .ok () ∧ ran.state = loaded memory protocol := by
  refine ⟨rfl, ?_⟩
  let cancelled := memory.set .command ((Setting.fresh .idle).apply Register.blank)
  have ran : (Program.run Memory.serve (Driver.loadProtocol protocol).run memory).state =
      (((cancelled.set .fifoControl
        ((Setting.fifoFlush true).apply (cancelled.get .fifoControl))).set .fifoData
          (Coded.code protocol.receiver)).set .fifoData (Coded.code protocol.transmitter)).set
            .command ((Setting.fresh .loadProtocol).apply Register.blank) := rfl
  have kept : cancelled.get .fifoControl = memory.get .fifoControl :=
    Memory.get_set_of_ne memory _ (by decide)
  rw [ran, kept, Setting.apply_fifoFlush, Setting.apply_fresh]
  apply Memory.ext
  intro address
  simp only [loaded, cancelled, Memory.get_set]
  by_cases started : address = .command
  · simp only [started, ↓reduceIte, ChipCommand.code]
  · simp only [started, ↓reduceIte]
    by_cases filled : address = .fifoData
    · simp only [filled, ↓reduceIte]
    · simp only [filled, ↓reduceIte]

/-- On a plain chip a request is concluded as its frame is interpreted, with the same
registers. -/
theorem served_plain {request : Request} {action : Action (Option UInt8)}
    (served : Bridge.Served request action) (memory : Memory) :
    let worked := Program.run Memory.serve action.run memory
    let meaning := interpretFrame memory.cells request.encode
    Bridge.conclude worked.result = ⟨meaning.responses, .ok ()⟩ ∧
      worked.state.cells = meaning.cells := by
  cases served with
  | refused request fault outOfRange blamed =>
    rw [interpretFrame_refused memory.cells outOfRange]
    exact ⟨blamed, rfl⟩
  | read address =>
    rw [interpretFrame_read]
    exact ⟨rfl, rfl⟩
  | write address value =>
    rw [interpretFrame_write]
    exact ⟨rfl, rfl⟩
  | load protocol =>
    obtain ⟨result, state⟩ := run_loadProtocol memory protocol
    rw [interpretFrame_load, ExceptT.run_bind, Program.run_bind]
    dsimp only
    rw [result]
    exact ⟨rfl, congrArg Memory.cells state⟩
  | switchOn => exact ⟨rfl, rfl⟩
  | switchOff => exact ⟨rfl, rfl⟩

/-! ## Bytes on a plain chip -/

namespace Bridge

/-- A byte sent to a host that takes it. -/
def delivery (byte : UInt8) : Exchange Reply := ⟨.send byte, true⟩

/-- Of an exchange in which the host takes every byte, it gets the bytes offered and nothing of
the work on the chip. -/
@[simp] theorem delivered_delivery (worked : List (Exchange Chip.Reply)) (bytes : List UInt8) :
    delivered (worked.map relayed ++ bytes.map delivery) = bytes := by
  rw [delivered, offered_append, offered_relayed, List.nil_append]
  induction bytes with
  | nil => rfl
  | cons byte rest inductionHypothesis => exact congrArg (byte :: ·) inductionHypothesis

/-- A host that takes every byte gets what it is offered, and the registers stay. -/
theorem offerAll_plain (bytes : List UInt8) (queue : Queue) (memory : Memory) :
    (offerAll bytes).run Memory.world.serve (queue, memory) =
      ⟨(), bytes.map delivery, (queue, memory)⟩ := by
  induction bytes with
  | nil => rfl
  | cons byte rest inductionHypothesis =>
    rw [offerAll, respond, Program.ask_bind, Program.run_ask]
    simp only [Memory.world, World.serve, Program.done_bind] at inductionHypothesis ⊢
    rw [inductionHypothesis]
    rfl

/-- A host that takes every byte is offered the whole announcement, and the memory is left as it
is. -/
theorem announce_plain (conclusion : Conclusion) (queue : Queue) (memory : Memory) :
    (announce conclusion).run Memory.world.serve (queue, memory) =
      ⟨conclusion.report, conclusion.offers.map delivery, (queue, memory)⟩ := by
  rw [announce, Program.run_bind, offerAll_plain]
  simp

/-- On a plain chip a request comes to what its frame means. -/
theorem execute_plain (request : Request) (queue : Queue) (memory : Memory) :
    let ran := (execute request).run Memory.world.serve (queue, memory)
    let meaning := interpretFrame memory.cells request.encode
    delivered ran.exchanges = meaning.responses ∧ ran.state = (queue, ⟨meaning.cells⟩) := by
  obtain ⟨concluded, left⟩ := served_plain (work_served request) memory
  have chip : Memory.world.chip = Memory.serve := rfl
  rw [execute_eq, Program.run_bind, run_ofChip, chip]
  dsimp only
  rw [concluded, announce_plain, ← left]
  exact ⟨delivered_delivery _ _, rfl⟩

/-- A step that settles a frame comes to what the frame means. -/
theorem react_plain {byte : UInt8} {session after : Connection} {step : Step}
    (moved : Session.Accepted byte session step after) (settled : step ≠ .pending) (queue : Queue)
    (memory : Memory) :
    let reacted := (react (.ok step)).run Memory.world.serve (queue, memory)
    let meaning := interpretFrame memory.cells step.bytes
    delivered reacted.exchanges = meaning.responses ∧ reacted.state = (queue, ⟨meaning.cells⟩) := by
  have fits : step ≠ .overflow := moved.not_overflow (by decide)
  cases moved with
  | stray foreign =>
    rw [react_unknown, announce_plain, Step.bytes, interpretFrame_stray memory.cells foreign]
    exact ⟨delivered_delivery [] [nak, unknownCommand], rfl⟩
  | completed _ request whole => exact execute_plain request queue memory
  | opened | kept => exact absurd rfl settled
  | overflowed => exact absurd rfl fits

end Bridge

/-- The bytes the host got while records were made. -/
def responses (records : List Record) : List UInt8 :=
  records.flatMap fun
    | .bridge record => Bridge.delivered record.exchanges
    | .restart _ => []

/-- Bytes processed on a plain chip come to the frames that they complete. The induction is
on the bytes; the pending bytes of the session stand in front of them. -/
theorem play_plain (scene : Scene Memory) (sound : scene.session.Sound) (bytes : List UInt8) :
    let played := scene.play Memory.world (bytes.map Event.byte)
    let meaning := interpret scene.state.cells (scene.session.pending ++ bytes)
    responses played.1 = meaning.responses ∧ played.2.state.cells = meaning.cells := by
  induction bytes generalizing scene with
  | nil =>
    have unframed : cut scene.session.pending = ⟨[], scene.session.pending⟩ :=
      scene.session.cut_pending sound
    rw [List.append_nil, interpret, unframed]
    exact ⟨rfl, rfl⟩
  | cons byte rest inductionHypothesis =>
    obtain ⟨session, queue, memory⟩ := scene
    obtain ⟨step, after, accepted, moved⟩ := session.accept_accepted sound byte
    rw [List.map_cons, Scene.play, Bridge.happen_byte, accepted]
    by_cases waiting : step = .pending
    · subst waiting
      rw [moved.cut_pending rest]
      exact inductionHypothesis ⟨after, queue, memory⟩ moved.sound
    · have fits : step ≠ .overflow := moved.not_overflow (by decide)
      obtain ⟨told, left⟩ := Bridge.react_plain moved waiting queue memory
      obtain rfl : after = Session.fresh := moved.after_eq_fresh waiting
      obtain ⟨later, final⟩ := inductionHypothesis
        ⟨Session.fresh, queue, ⟨(interpretFrame memory.cells step.bytes).cells⟩⟩ moved.sound
      rw [interpret, moved.cut_settled fits waiting rest, interpretAll]
      dsimp only
      rw [left]
      refine ⟨?_, final⟩
      rw [responses, List.flatMap_cons]
      dsimp only
      rw [told]
      exact congrArg ((interpretFrame memory.cells step.bytes).responses ++ ·) later

/-- The bridge means what the interpreter says. On a register file that nothing disturbs,
before a host that takes every byte, a stream gets the interpreter's responses and leaves
the interpreter's registers.

Proof: the bench matches a plain memory, where the bytes are taken one by one. A byte that
completes no frame changes nothing but the session. Any other settles the pending bytes as
one frame, which the bridge and the interpreter read alike. -/
theorem play_interpret (cells : Vector UInt8 128) (bytes : List UInt8) :
    let played := (Scene.start (Bench.ofMemory ⟨cells⟩)).play (Bench.world .smooth)
      (bytes.map Event.byte)
    responses played.1 = (interpret cells bytes).responses ∧
      played.2.state.device.memory? = some ⟨(interpret cells bytes).cells⟩ := by
  have start : Scene.Alike Bench.Plain (Scene.start (Bench.ofMemory ⟨cells⟩))
      (Scene.start ⟨cells⟩) := ⟨rfl, rfl, Bench.plain_ofMemory ⟨cells⟩⟩
  obtain ⟨records, final⟩ := Scene.play_alike Bench.world_matching (bytes.map Event.byte) start
  obtain ⟨told, left⟩ := play_plain (Scene.start ⟨cells⟩) Session.sound_fresh bytes
  intro played
  refine ⟨?_, ?_⟩
  · rw [records]
    exact told
  · rw [final.state.memory?]
    exact congrArg (fun cells => some (Memory.mk cells)) left

/-- What the host has set in the FIFO control register is kept when it loads a protocol. -/
example :
    (interpretAll (.replicate 128 0) [[0x01, 0x02, 0x80], [0x02, 0x03], [0x00, 0x02]]).responses =
      [0xBB, 0x90] := by
  decide

end NfcFrontend.Host
