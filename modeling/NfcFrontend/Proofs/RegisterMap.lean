import NfcFrontend.Bench.Basic
import NfcFrontend.Proofs.BusHistory
import NfcFrontend.Proofs.PatchViews

/-!
# The driver over a map

Without a bus the chip is a map from addresses to bytes. To get or to set a byte fails, and then
the map stays as it is, or it acts on the map directly, and a byte that is got is handed over as
it is.

Every operation of the driver is said here a second time, over such a map. There is no frame in it
and no response. Contents of registers are written as numbers, and a block is a list of bytes
that are set one by one.
-/

namespace NfcFrontend

/-- A byte for every address, and what has been asked of it. -/
structure RegisterMap where
  value : Address → UInt8
  /-- The accesses tried, in order. -/
  tried : List Access
  /-- Those among them that succeeded. -/
  record : List Access
  /-- The levels put on the reset pin, in order. -/
  levels : List Level

/-- The operation only reads the address and returns what it got. -/
inductive Driver.Op.Reads : Driver.Op → Address → Prop where
  | byte (address : Address) : Reads (.read address.byte) address
  | register (register : Register) : Reads (.readRegister register) register.address
  | version : Reads .readVersion .version

namespace RegisterMap

open Driver (Op Answer Outcome)

/-- The bytes of a memory, asked nothing yet. -/
def ofMemory (memory : Memory) : RegisterMap := ⟨memory.get, [], [], []⟩

/-- Work on a map returns a value or stops. What it has done by then stays done. -/
abbrev Work (α : Type) := ExceptT (Stop Fault) (StateM RegisterMap) α

/-! ## Getting and setting bytes -/

/-- The map after an access that failed. -/
def refuse (map : RegisterMap) (access : Access) : RegisterMap :=
  { map with tried := map.tried ++ [access] }

/-- The map after an access that succeeded. Only a write replaces a byte. -/
def carry (map : RegisterMap) (access : Access) : RegisterMap where
  value := match access with
    | .read _ => map.value
    | .write address byte => fun other => if other = address then byte else map.value other
  tried := map.tried ++ [access]
  record := map.record ++ [access]
  levels := map.levels

/-- An access that succeeds leaves at every address what was written there last. -/
theorem value_carry (map : RegisterMap) (access : Access) (address : Address) :
    (map.carry access).value address =
      (Chip.lastWrite? address [access]).getD (map.value address) := by
  cases access with
  | read other => rfl
  | write other byte =>
    rw [carry, Chip.lastWrite?_write]
    dsimp only
    split <;> rfl

/-- Get the byte at an address. -/
def get (plan : Plan) (address : Address) : Work UInt8 := fun map =>
  if plan.busFails map.tried.length then (.error (.fault .spi), map.refuse (.read address))
  else (.ok (map.value address), map.carry (.read address))

/-- Set the byte at an address. -/
def set (plan : Plan) (address : Address) (byte : UInt8) : Work Unit := fun map =>
  if plan.busFails map.tried.length then (.error (.fault .spi), map.refuse (.write address byte))
  else (.ok (), map.carry (.write address byte))

/-- A byte that the plan fails to get leaves the map as it is. -/
theorem get_failed {plan : Plan} {map : RegisterMap}
    (fails : plan.busFails map.tried.length = true) (address : Address) :
    (get plan address).run.run map = (.error (.fault .spi), map.refuse (.read address)) :=
  if_pos fails

/-- Any other is handed over. -/
theorem get_passed {plan : Plan} {map : RegisterMap}
    (passes : plan.busFails map.tried.length = false) (address : Address) :
    (get plan address).run.run map = (.ok (map.value address), map.carry (.read address)) :=
  if_neg (by simp [passes])

/-- A byte that the plan fails to set leaves the map as it is. -/
theorem set_failed {plan : Plan} {map : RegisterMap}
    (fails : plan.busFails map.tried.length = true) (address : Address) (byte : UInt8) :
    (set plan address byte).run.run map =
      (.error (.fault .spi), map.refuse (.write address byte)) :=
  if_pos fails

/-- Any other is in its place. -/
theorem set_passed {plan : Plan} {map : RegisterMap}
    (passes : plan.busFails map.tried.length = false) (address : Address) (byte : UInt8) :
    (set plan address byte).run.run map = (.ok (), map.carry (.write address byte)) :=
  if_neg (by simp [passes])

/-- Put a level on the reset pin. No byte depends on it. -/
def drive (plan : Plan) (level : Level) : Work Unit := fun map =>
  (if plan.pinFails map.levels.length then .error (.fault .pin) else .ok (),
    { map with levels := map.levels ++ [level] })

/-- Replace the byte at an address by what it is changed into. -/
def change (plan : Plan) (address : Address) (changed : UInt8 → UInt8) : Work Unit := do
  set plan address (changed (← get plan address))

/-- Set bytes in order. -/
def setEach (plan : Plan) : List (Address × UInt8) → Work Unit
  | [] => pure ()
  | (address, byte) :: rest => do
    set plan address byte
    setEach plan rest

/-- Set the bytes of a block, one after the other, at the address of the FIFO. -/
def push (plan : Plan) (block : List UInt8) : Work Unit :=
  setEach plan (block.map fun byte => (.fifoData, byte))

/-- Get a byte for every place of a buffer. When one fails, the places from there on keep what
they had. -/
def fill (plan : Plan) : List UInt8 → StateM RegisterMap (Except (Stop Fault) Unit × List UInt8)
  | [] => pure (.ok (), [])
  | old :: rest => do
    match ← (get plan .fifoData).run with
    | .error stop => return (.error stop, old :: rest)
    | .ok byte =>
      let (verdict, filled) ← fill plan rest
      return (verdict, byte :: filled)

/-- Cancel the running command, ask for an empty FIFO, fill it, and start a command on it. -/
def start (plan : Plan) (block : List UInt8) (command : ChipCommand) : Work Unit := do
  set plan .command 0x00
  change plan .fifoControl (· ||| 0x10)
  push plan block
  set plan .command command.code

/-! ## Operations -/

/-- The address with the number of a byte. There are no more than `0x80` of them. -/
def named (byte : UInt8) : Work Address :=
  if inside : byte.toNat < 0x80 then pure ⟨⟨byte.toNat, inside⟩⟩
  else throw (.fault (.invalidAddress byte))

/-- An operation that answers with what its work returns. -/
def answering {α : Type} (answer : α → Answer) (work : Work α) : StateM RegisterMap Outcome := do
  return .bare ((← work.run).map answer)

/-- An operation that answers nothing. -/
def silent (work : Work Unit) : StateM RegisterMap Outcome := answering (fun _ => .nothing) work

/-- A driver operation on the map. -/
def operate (plan : Plan) : Op → StateM RegisterMap Outcome
  | .read byte => answering .byte do get plan (← named byte)
  | .write byte value => silent do set plan (← named byte) value
  | .readRegister register => answering .byte (get plan register.address)
  | .writeRegister register content => silent (set plan register.address content)
  | .modify register changed => silent (change plan register.address changed)
  | .writePatch byte values => silent do
    let first ← named byte
    if first.index.val + values.length ≤ 0x80 then setEach plan (Patch.mk first values).listing
    else throw (.fault (.invalidAddress 0x80))
  | .readVersion => answering .byte (get plan .version)
  | .enableField => silent (set plan .drvMode 0x8E)
  | .disableField => silent (set plan .drvMode 0x00)
  | .powerUp => silent (drive plan .low)
  | .powerDown => silent (drive plan .high)
  | .flushFifo => silent (change plan .fifoControl (· ||| 0x10))
  | .setFifoMode mode => silent do
    change plan .fifoControl (· ||| 0x10)
    change plan .fifoControl fun control =>
      match mode with
      | .small => control ||| 0x80
      | .large => control &&& 0x7F
  | .writeFifo block =>
    silent (if block.length ≤ 512 then push plan block else throw (.abort .transferTooLong))
  | .readFifo buffer => do
    if buffer.length ≤ 512 then
      let (verdict, filled) ← fill plan buffer
      return ⟨verdict.map fun _ => .nothing, filled⟩
    else return ⟨.error (.abort .transferTooLong), buffer⟩
  | .fifoLength => answering .count do
    let length ← get plan .fifoLength
    return FifoMode.reportedLength length (← get plan .fifoControl)
  | .execute command => silent (set plan .command command.code)
  | .idle => silent (set plan .command 0x00)
  | .detectCard => silent do
    set plan .command 0x00
    set plan .command 0x01
  | .loadKey key => silent (start plan key.toList .loadKey)
  | .loadProtocol id =>
    silent (if id.toNat ≤ 9 then start plan [id, id] .loadProtocol
      else throw (.fault (.invalidProtocol id)))
  | .loadSettings receiver transmitter =>
    silent (start plan [receiver.standard.code, transmitter.standard.code] .loadProtocol)

/-- Driver operations on the map, in order. -/
def operateAll (plan : Plan) : List Op → RegisterMap → List Outcome × RegisterMap
  | [], map => ([], map)
  | operation :: rest, map =>
    let (outcome, after) := (operate plan operation).run map
    let (outcomes, final) := operateAll plan rest after
    (outcome :: outcomes, final)

/-! ## What a read returns -/

/-- The number of an address names it. -/
theorem named_byte (address : Address) : named address.byte = pure address := by
  have inside : address.byte.toNat < 0x80 := Nat.lt_succ_of_le address.byte_le
  rw [named, dif_pos inside]
  exact congrArg pure (Address.index_injective address.toNat_byte)

/-- An operation that only reads an address returns the byte there, unless that could not be
got. -/
theorem verdict_operate {operation : Op} {address : Address} (reads : operation.Reads address)
    (plan : Plan) (map : RegisterMap) :
    ((operate plan operation).run map).1.verdict =
      if plan.busFails map.tried.length then .error (.fault .spi)
      else .ok (.byte (map.value address)) := by
  -- All of them get one byte and answer with it.
  have got : operate plan operation = answering .byte (get plan address) := by
    cases reads with
    | byte =>
      rw [operate, named_byte]
      rfl
    | register | version => rfl
  have verdict : ((answering .byte (get plan address)).run map).1.verdict =
      ((get plan address).run.run map).1.map .byte := rfl
  rw [got, verdict]
  cases fails : plan.busFails map.tried.length with
  | true =>
    rw [get_failed fails]
    rfl
  | false =>
    rw [get_passed fails]
    rfl

end RegisterMap

end NfcFrontend
