import NfcFrontend.Coded

/-!
# Chip commands

A command is started by writing its code to the command register. Codes are five
bits wide; the holes in their range are not assigned.
-/

namespace NfcFrontend

/-- The commands the chip executes. -/
inductive ChipCommand where
  /-- No action; cancels the running command. -/
  | idle
  /-- Low-power card detection. -/
  | lpcd
  /-- Move a six byte key from the FIFO into the key buffer. -/
  | loadKey
  /-- Authenticate with the key in the key buffer. -/
  | mfAuthent
  /-- Query, acknowledge and number request of tag inventory. -/
  | ackReq
  /-- Activate the receiver. -/
  | receive
  /-- Send the FIFO. -/
  | transmit
  /-- Send the FIFO and activate the receiver when done. -/
  | transceive
  /-- Write one byte from the FIFO to the EEPROM. -/
  | writeE2
  /-- Write up to one EEPROM page from the FIFO. -/
  | writeE2Page
  /-- Copy EEPROM contents into the FIFO. -/
  | readE2
  /-- Set registers from the EEPROM. -/
  | loadReg
  /-- Set the registers that a protocol change needs from the EEPROM. -/
  | loadProtocol
  /-- Copy a key from the EEPROM into the key buffer. -/
  | loadKeyE2
  /-- Store a key in the EEPROM. -/
  | storeKeyE2
  /-- Fill the FIFO from the random number generator. -/
  | readRnr
  /-- Reset the chip. -/
  | softReset
deriving DecidableEq

namespace ChipCommand

def code : ChipCommand → UInt8
  | idle => 0x00
  | lpcd => 0x01
  | loadKey => 0x02
  | mfAuthent => 0x03
  | ackReq => 0x04
  | receive => 0x05
  | transmit => 0x06
  | transceive => 0x07
  | writeE2 => 0x08
  | writeE2Page => 0x09
  | readE2 => 0x0A
  | loadReg => 0x0C
  | loadProtocol => 0x0D
  | loadKeyE2 => 0x0E
  | storeKeyE2 => 0x0F
  | readRnr => 0x1C
  | softReset => 0x1F

def name : ChipCommand → String
  | idle => "Idle"
  | lpcd => "Lpcd"
  | loadKey => "LoadKey"
  | mfAuthent => "MfAuthent"
  | ackReq => "AckReq"
  | receive => "Receive"
  | transmit => "Transmit"
  | transceive => "Transceive"
  | writeE2 => "WriteE2"
  | writeE2Page => "WriteE2Page"
  | readE2 => "ReadE2"
  | loadReg => "LoadReg"
  | loadProtocol => "LoadProtocol"
  | loadKeyE2 => "LoadKeyE2"
  | storeKeyE2 => "StoreKeyE2"
  | readRnr => "ReadRnr"
  | softReset => "SoftReset"

/-- The commands, ascending by code. -/
def members : List ChipCommand :=
  [idle, lpcd, loadKey, mfAuthent, ackReq, receive, transmit, transceive, writeE2, writeE2Page,
    readE2, loadReg, loadProtocol, loadKeyE2, storeKeyE2, readRnr, softReset]

instance : Coded ChipCommand where
  members := members
  name := name
  code := code
  complete command := by cases command <;> decide
  distinct := by decide

end ChipCommand

end NfcFrontend
