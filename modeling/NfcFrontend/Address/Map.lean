import NfcFrontend.Address

/-!
# The register map

Names of the registers in use, by address. Two ranges are filled without holes,
`0x00` to `0x48` and `0x4A` to `0x5F`; the version register is the last one of
the address space. `Address.named` lists every name with its address.
-/

namespace NfcFrontend.Address

/-! ## Commands, FIFO, interrupts and status -/

def command : Address := ⟨0x00⟩
def hostCtrl : Address := ⟨0x01⟩
def fifoControl : Address := ⟨0x02⟩
def waterLevel : Address := ⟨0x03⟩
def fifoLength : Address := ⟨0x04⟩
def fifoData : Address := ⟨0x05⟩
def irq0 : Address := ⟨0x06⟩
def irq1 : Address := ⟨0x07⟩
def irq0En : Address := ⟨0x08⟩
def irq1En : Address := ⟨0x09⟩
def error : Address := ⟨0x0A⟩
def status : Address := ⟨0x0B⟩
def rxBitCtrl : Address := ⟨0x0C⟩
def rxColl : Address := ⟨0x0D⟩

/-! ## Timers -/

def tControl : Address := ⟨0x0E⟩
def t0Control : Address := ⟨0x0F⟩
def t0ReloadHi : Address := ⟨0x10⟩
def t0ReloadLo : Address := ⟨0x11⟩
def t0CounterValHi : Address := ⟨0x12⟩
def t0CounterValLo : Address := ⟨0x13⟩
def t1Control : Address := ⟨0x14⟩
def t1ReloadHi : Address := ⟨0x15⟩
def t1ReloadLo : Address := ⟨0x16⟩
def t1CounterValHi : Address := ⟨0x17⟩
def t1CounterValLo : Address := ⟨0x18⟩
def t2Control : Address := ⟨0x19⟩
def t2ReloadHi : Address := ⟨0x1A⟩
def t2ReloadLo : Address := ⟨0x1B⟩
def t2CounterValHi : Address := ⟨0x1C⟩
def t2CounterValLo : Address := ⟨0x1D⟩
def t3Control : Address := ⟨0x1E⟩
def t3ReloadHi : Address := ⟨0x1F⟩
def t3ReloadLo : Address := ⟨0x20⟩
def t3CounterValHi : Address := ⟨0x21⟩
def t3CounterValLo : Address := ⟨0x22⟩
def t4Control : Address := ⟨0x23⟩
def t4ReloadHi : Address := ⟨0x24⟩
def t4ReloadLo : Address := ⟨0x25⟩
def t4CounterValHi : Address := ⟨0x26⟩
def t4CounterValLo : Address := ⟨0x27⟩

/-! ## Antenna driver and transmitter -/

def drvMode : Address := ⟨0x28⟩
def txAmp : Address := ⟨0x29⟩
def drvCon : Address := ⟨0x2A⟩
def txl : Address := ⟨0x2B⟩
def txCrcPreset : Address := ⟨0x2C⟩
def rxCrcPreset : Address := ⟨0x2D⟩
def txDataNum : Address := ⟨0x2E⟩
def txModWidth : Address := ⟨0x2F⟩
def txSym10BurstLen : Address := ⟨0x30⟩
def txWaitCtrl : Address := ⟨0x31⟩
def txWaitLo : Address := ⟨0x32⟩
def frameCon : Address := ⟨0x33⟩

/-! ## Receiver -/

def rxSofD : Address := ⟨0x34⟩
def rxCtrl : Address := ⟨0x35⟩
def rxWait : Address := ⟨0x36⟩
def rxThreshold : Address := ⟨0x37⟩
def rcv : Address := ⟨0x38⟩
def rxAna : Address := ⟨0x39⟩

/-! ## Card detection, clocks and serial speed -/

def lpcdOptions : Address := ⟨0x3A⟩
def serialSpeed : Address := ⟨0x3B⟩
def lfoTrimm : Address := ⟨0x3C⟩
def pllCtrl : Address := ⟨0x3D⟩
def pllDivOut : Address := ⟨0x3E⟩
def lpcdQMin : Address := ⟨0x3F⟩
def lpcdQMax : Address := ⟨0x40⟩
def lpcdIMin : Address := ⟨0x41⟩
def lpcdIResult : Address := ⟨0x42⟩
def lpcdQResult : Address := ⟨0x43⟩

/-! ## Pads and signals -/

def padEn : Address := ⟨0x44⟩
def padOut : Address := ⟨0x45⟩
def padIn : Address := ⟨0x46⟩
def sigOut : Address := ⟨0x47⟩
def txBitMod : Address := ⟨0x48⟩

/-! ## Transmitter data and symbols -/

def txDataCon : Address := ⟨0x4A⟩
def txDataMod : Address := ⟨0x4B⟩
def txSymFreq : Address := ⟨0x4C⟩
def txSym0H : Address := ⟨0x4D⟩
def txSym0L : Address := ⟨0x4E⟩
def txSym1H : Address := ⟨0x4F⟩
def txSym1L : Address := ⟨0x50⟩
def txSym2 : Address := ⟨0x51⟩
def txSym3 : Address := ⟨0x52⟩
def txSym10Len : Address := ⟨0x53⟩
def txSym32Len : Address := ⟨0x54⟩
def txSym10BurstCtrl : Address := ⟨0x55⟩
def txSym10Mod : Address := ⟨0x56⟩
def txSym32Mod : Address := ⟨0x57⟩

/-! ## Receiver symbols and calibration -/

def rxBitMod : Address := ⟨0x58⟩
def rxEofSym : Address := ⟨0x59⟩
def rxSyncValH : Address := ⟨0x5A⟩
def rxSyncValL : Address := ⟨0x5B⟩
def rxSyncMod : Address := ⟨0x5C⟩
def rxMod : Address := ⟨0x5D⟩
def rxCorr : Address := ⟨0x5E⟩
def fabCal : Address := ⟨0x5F⟩

/-! ## Identification -/

def version : Address := ⟨0x7F⟩

/-! ## The table -/

/-- The register names, ascending by address. -/
def named : List (String × Address) := [
  ("COMMAND", command), ("HOST_CTRL", hostCtrl), ("FIFO_CONTROL", fifoControl),
  ("WATER_LEVEL", waterLevel), ("FIFO_LENGTH", fifoLength), ("FIFO_DATA", fifoData),
  ("IRQ0", irq0), ("IRQ1", irq1), ("IRQ0_EN", irq0En), ("IRQ1_EN", irq1En), ("ERROR", error),
  ("STATUS", status), ("RX_BIT_CTRL", rxBitCtrl), ("RX_COLL", rxColl), ("T_CONTROL", tControl),
  ("T0_CONTROL", t0Control), ("T0_RELOAD_HI", t0ReloadHi), ("T0_RELOAD_LO", t0ReloadLo),
  ("T0_COUNTER_VAL_HI", t0CounterValHi), ("T0_COUNTER_VAL_LO", t0CounterValLo),
  ("T1_CONTROL", t1Control), ("T1_RELOAD_HI", t1ReloadHi), ("T1_RELOAD_LO", t1ReloadLo),
  ("T1_COUNTER_VAL_HI", t1CounterValHi), ("T1_COUNTER_VAL_LO", t1CounterValLo),
  ("T2_CONTROL", t2Control), ("T2_RELOAD_HI", t2ReloadHi), ("T2_RELOAD_LO", t2ReloadLo),
  ("T2_COUNTER_VAL_HI", t2CounterValHi), ("T2_COUNTER_VAL_LO", t2CounterValLo),
  ("T3_CONTROL", t3Control), ("T3_RELOAD_HI", t3ReloadHi), ("T3_RELOAD_LO", t3ReloadLo),
  ("T3_COUNTER_VAL_HI", t3CounterValHi), ("T3_COUNTER_VAL_LO", t3CounterValLo),
  ("T4_CONTROL", t4Control), ("T4_RELOAD_HI", t4ReloadHi), ("T4_RELOAD_LO", t4ReloadLo),
  ("T4_COUNTER_VAL_HI", t4CounterValHi), ("T4_COUNTER_VAL_LO", t4CounterValLo),
  ("DRV_MODE", drvMode), ("TX_AMP", txAmp), ("DRV_CON", drvCon), ("TXL", txl),
  ("TX_CRC_PRESET", txCrcPreset), ("RX_CRC_PRESET", rxCrcPreset), ("TX_DATA_NUM", txDataNum),
  ("TX_MOD_WIDTH", txModWidth), ("TX_SYM10_BURST_LEN", txSym10BurstLen),
  ("TX_WAIT_CTRL", txWaitCtrl), ("TX_WAIT_LO", txWaitLo), ("FRAME_CON", frameCon),
  ("RX_SOF_D", rxSofD), ("RX_CTRL", rxCtrl), ("RX_WAIT", rxWait), ("RX_THRESHOLD", rxThreshold),
  ("RCV", rcv), ("RX_ANA", rxAna), ("LPCD_OPTIONS", lpcdOptions), ("SERIAL_SPEED", serialSpeed),
  ("LFO_TRIMM", lfoTrimm), ("PLL_CTRL", pllCtrl), ("PLL_DIV_OUT", pllDivOut),
  ("LPCD_Q_MIN", lpcdQMin), ("LPCD_Q_MAX", lpcdQMax), ("LPCD_I_MIN", lpcdIMin),
  ("LPCD_I_RESULT", lpcdIResult), ("LPCD_Q_RESULT", lpcdQResult), ("PAD_EN", padEn),
  ("PAD_OUT", padOut), ("PAD_IN", padIn), ("SIG_OUT", sigOut), ("TX_BIT_MOD", txBitMod),
  ("TX_DATA_CON", txDataCon), ("TX_DATA_MOD", txDataMod), ("TX_SYM_FREQ", txSymFreq),
  ("TX_SYM0_H", txSym0H), ("TX_SYM0_L", txSym0L), ("TX_SYM1_H", txSym1H), ("TX_SYM1_L", txSym1L),
  ("TX_SYM2", txSym2), ("TX_SYM3", txSym3), ("TX_SYM10_LEN", txSym10Len),
  ("TX_SYM32_LEN", txSym32Len), ("TX_SYM10_BURST_CTRL", txSym10BurstCtrl),
  ("TX_SYM10_MOD", txSym10Mod), ("TX_SYM32_MOD", txSym32Mod), ("RX_BIT_MOD", rxBitMod),
  ("RX_EOF_SYM", rxEofSym), ("RX_SYNC_VAL_H", rxSyncValH), ("RX_SYNC_VAL_L", rxSyncValL),
  ("RX_SYNC_MOD", rxSyncMod), ("RX_MOD", rxMod), ("RX_CORR", rxCorr), ("FAB_CAL", fabCal),
  ("VERSION", version)]

/-- The address of a register name. -/
def ofName? (name : String) : Option Address :=
  (named.find? (fun entry => entry.1 == name)).map Prod.snd

end NfcFrontend.Address
