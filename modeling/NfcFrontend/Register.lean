import NfcFrontend.Address.Map
import NfcFrontend.BitField
import NfcFrontend.ChipCommand

/-!
# Registers with named fields

Six registers are read and written by field. A register's content is one byte;
its fields are bit fields of that byte, and bits that belong to no field are
reserved. A setting writes one field, so applying settings in order lets the last
one for a field win and never touches a reserved bit.
-/

namespace NfcFrontend

/-- The registers whose fields are named. -/
inductive Register where
  /-- Starts and stops command execution. -/
  | command
  /-- Capacity mode, flush trigger and the two high bits of the FIFO length. -/
  | fifoControl
  /-- Low byte of the FIFO length. -/
  | fifoLength
  /-- One byte into or out of the FIFO. -/
  | fifoData
  /-- Mode of the two antenna drivers. -/
  | drvMode
  /-- Version and subversion. -/
  | version
deriving DecidableEq

namespace Register

def members : List Register := [command, fifoControl, fifoLength, fifoData, drvMode, version]

def name : Register → String
  | command => "Command"
  | fifoControl => "FifoControl"
  | fifoLength => "FifoLength"
  | fifoData => "FifoData"
  | drvMode => "DrvMode"
  | version => "Version"

def ofName? (text : String) : Option Register :=
  members.find? (fun register => register.name == text)

def address : Register → Address
  | command => Address.command
  | fifoControl => Address.fifoControl
  | fifoLength => Address.fifoLength
  | fifoData => Address.fifoData
  | drvMode => Address.drvMode
  | version => Address.version

/-- The content of a register nothing has been written to. -/
def blank : UInt8 := 0x00

/-- Antenna drivers enabled, the second one inverted, push/pull clock mode. -/
def fieldOn : UInt8 := 0x8E

/-- Antenna drivers disabled. -/
def fieldOff : UInt8 := 0x00

end Register

/-! ## The bit fields -/

namespace Field

/-- Standby mode. -/
def standby : BitField := ⟨7, 1, by decide⟩
/-- Analog receiver and transmitter powered down. -/
def modemOff : BitField := ⟨6, 1, by decide⟩
/-- The code of the running command. -/
def commandCode : BitField := ⟨0, 5, by decide⟩
/-- The command register as a whole. -/
def whole : BitField := ⟨0, 8, by decide⟩

/-- Set for the 255 byte FIFO, clear for the 512 byte one. -/
def fifoSize : BitField := ⟨7, 1, by decide⟩
def hiAlert : BitField := ⟨6, 1, by decide⟩
def loAlert : BitField := ⟨5, 1, by decide⟩
/-- Setting it empties the FIFO. -/
def fifoFlush : BitField := ⟨4, 1, by decide⟩
def waterLevelExt : BitField := ⟨2, 1, by decide⟩
/-- Bits 9 and 8 of the FIFO length, meaningful in the 512 byte mode only. -/
def fifoLengthExt : BitField := ⟨0, 2, by decide⟩

def fifoLength : BitField := ⟨0, 8, by decide⟩
def data : BitField := ⟨0, 8, by decide⟩

def tx2Inv : BitField := ⟨7, 1, by decide⟩
def tx1Inv : BitField := ⟨6, 1, by decide⟩
/-- The antenna drivers, that is the radio field, are on. -/
def txEn : BitField := ⟨3, 1, by decide⟩
def txClkMode : BitField := ⟨0, 3, by decide⟩

def version : BitField := ⟨4, 4, by decide⟩
def subversion : BitField := ⟨0, 4, by decide⟩

end Field

/-! ## Reading a register by field -/

/-- What a field shows. -/
inductive Reading where
  | flag (on : Bool)
  | number (value : UInt8)
  /-- The command with the field's code, if one is assigned to it. -/
  | command (command : Option ChipCommand)
deriving DecidableEq

/-- A field with the name it is read by, and what its value means. -/
structure NamedField where
  name : String
  field : BitField
  decode : UInt8 → Reading

namespace NamedField

/-- What the field shows of a register's content. -/
def read (named : NamedField) (byte : UInt8) : String × Reading :=
  (named.name, named.decode (named.field.get byte))

/-- A field that is on or off. -/
def flag (name : String) (field : BitField) : NamedField :=
  ⟨name, field, fun value => .flag (value != 0)⟩

/-- A field that is a number. -/
def number (name : String) (field : BitField) : NamedField := ⟨name, field, .number⟩

/-- A field that is the code of a command. -/
def command (name : String) (field : BitField) : NamedField :=
  ⟨name, field, fun code => .command (Coded.ofByte? code)⟩

/-- A flag shows whether its bit is set. -/
@[simp] theorem read_flag (name : String) (field : BitField) (byte : UInt8) :
    (flag name field).read byte = (name, .flag (field.test byte)) := rfl

/-- A number shows the value of its field. -/
@[simp] theorem read_number (name : String) (field : BitField) (byte : UInt8) :
    (number name field).read byte = (name, .number (field.get byte)) := rfl

/-- A command shows the one with its code. -/
@[simp] theorem read_command (name : String) (field : BitField) (byte : UInt8) :
    (command name field).read byte = (name, .command (Coded.ofByte? (field.get byte))) := rfl

end NamedField

namespace Register

/-- The fields of a register, from the high bits down. -/
def fields : Register → List NamedField
  | command => [.flag "standby" Field.standby, .flag "modem_off" Field.modemOff,
      .command "command" Field.commandCode]
  | fifoControl => [.flag "fifo_size" Field.fifoSize, .flag "hi_alert" Field.hiAlert,
      .flag "lo_alert" Field.loAlert, .flag "fifo_flush" Field.fifoFlush,
      .flag "water_level_ext" Field.waterLevelExt, .number "fifo_length_ext" Field.fifoLengthExt]
  | fifoLength => [.number "fifo_length" Field.fifoLength]
  | fifoData => [.number "data" Field.data]
  | drvMode => [.flag "tx2_inv" Field.tx2Inv, .flag "tx1_inv" Field.tx1Inv,
      .flag "tx_en" Field.txEn, .number "tx_clk_mode" Field.txClkMode]
  | version => [.number "version" Field.version, .number "subversion" Field.subversion]

/-- What the fields of a register show of its content, by name. -/
def readings (register : Register) (byte : UInt8) : List (String × Reading) :=
  register.fields.map fun named => named.read byte

end Register

/-! ## Writing a register by field -/

/-- A write to one field of a register. A register's read-only fields have none. -/
inductive Setting : Register → Type where
  | standby (on : Bool) : Setting .command
  | modemOff (on : Bool) : Setting .command
  | command (command : ChipCommand) : Setting .command
  /-- Replace the whole register by a command with all flags off. -/
  | fresh (command : ChipCommand) : Setting .command
  | fifoSize (on : Bool) : Setting .fifoControl
  | fifoFlush (on : Bool) : Setting .fifoControl
  | waterLevelExt (on : Bool) : Setting .fifoControl
  | data (value : UInt8) : Setting .fifoData
  | tx2Inv (on : Bool) : Setting .drvMode
  | tx1Inv (on : Bool) : Setting .drvMode
  | txEn (on : Bool) : Setting .drvMode
  /-- Only the low three bits of the value are kept. -/
  | txClkMode (value : UInt8) : Setting .drvMode

namespace Setting

variable {register : Register}

/-- The field a setting writes. -/
def field : Setting register → BitField
  | .standby _ => Field.standby
  | .modemOff _ => Field.modemOff
  | .command _ => Field.commandCode
  | .fresh _ => Field.whole
  | .fifoSize _ => Field.fifoSize
  | .fifoFlush _ => Field.fifoFlush
  | .waterLevelExt _ => Field.waterLevelExt
  | .data _ => Field.data
  | .tx2Inv _ => Field.tx2Inv
  | .tx1Inv _ => Field.tx1Inv
  | .txEn _ => Field.txEn
  | .txClkMode _ => Field.txClkMode

/-- The value a setting gives to its field. -/
def value : Setting register → UInt8
  | .standby on | .modemOff on | .fifoSize on | .fifoFlush on | .waterLevelExt on | .tx2Inv on
  | .tx1Inv on | .txEn on => if on then 1 else 0
  | .command chosen | .fresh chosen => chosen.code
  | .data value | .txClkMode value => value

/-- The register content after the setting. -/
def apply (setting : Setting register) (byte : UInt8) : UInt8 :=
  setting.field.set setting.value byte

/-- The register content after all settings, in order. -/
def applyAll (settings : List (Setting register)) (byte : UInt8) : UInt8 :=
  settings.foldl (fun content setting => setting.apply content) byte

/-- The contents the register passes through, from the first to the last. -/
def history : List (Setting register) → UInt8 → List UInt8
  | [], byte => [byte]
  | setting :: rest, byte => byte :: history rest (setting.apply byte)

end Setting

end NfcFrontend
