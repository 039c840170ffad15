import NfcFrontend.Proofs.RegisterChange

/-!
# The last setting of a field wins

Settings are applied in order, each to the content that the ones before it have left. A setting
owns the bits of its field, so a bit has the value that the last setting of it gives, and a bit of
no setting keeps its value. That determines the byte.

A reader does not see bits but fields by name. `Setting.shows` tells what a setting makes them
show, and the layout of the registers, checked once for every pair of a field and a setting, makes
all other fields keep what they show. Hence settings that name different fields can be exchanged.
-/

namespace NfcFrontend

namespace Setting

variable {register : Register}

/-- What the fields that a setting writes show afterwards. -/
def shows : Setting register → List (String × Reading)
  | .standby on => [("standby", .flag on)]
  | .modemOff on => [("modem_off", .flag on)]
  | .command chosen => [("command", .command (some chosen))]
  | .fresh chosen =>
    [("standby", .flag false), ("modem_off", .flag false), ("command", .command (some chosen))]
  | .fifoSize on => [("fifo_size", .flag on)]
  | .fifoFlush on => [("fifo_flush", .flag on)]
  | .waterLevelExt on => [("water_level_ext", .flag on)]
  | .data value => [("data", .number value)]
  | .tx2Inv on => [("tx2_inv", .flag on)]
  | .tx1Inv on => [("tx1_inv", .flag on)]
  | .txEn on => [("tx_en", .flag on)]
  | .txClkMode value => [("tx_clk_mode", .number (value &&& 7))]

/-- The fields that a setting writes. -/
def names (setting : Setting register) : List String := setting.shows.map Prod.fst

/-! ## One setting -/

/-- A setting is shown. -/
theorem shows_apply (setting : Setting register) (byte : UInt8) :
    ∀ entry ∈ setting.shows, entry ∈ register.readings (setting.apply byte) := by
  have flag (field : BitField) (single : field.width = 1) (on : Bool) :
      field.test (field.set (if on then 1 else 0) byte) = on := field.test_put single on byte
  cases setting with
  | standby on =>
    simp [shows, Register.readings, Register.fields, apply, field, value, flag Field.standby rfl]
  | modemOff on =>
    simp [shows, Register.readings, Register.fields, apply, field, value, flag Field.modemOff rfl]
  | command chosen =>
    have fits : Field.commandCode.get (Field.commandCode.set chosen.code byte) = chosen.code := by
      rw [BitField.get_set_self]
      cases chosen <;> rfl
    have found : Coded.ofByte? chosen.code = some chosen := Coded.ofByte?_code chosen
    simp [shows, Register.readings, Register.fields, apply, field, value, fits, found]
  | fresh chosen =>
    have replaced : Field.whole.set chosen.code byte = chosen.code :=
      BitField.set_whole Field.whole rfl _ _
    have standby : Field.standby.test chosen.code = false := by cases chosen <;> rfl
    have modemOff : Field.modemOff.test chosen.code = false := by cases chosen <;> rfl
    have code : Field.commandCode.get chosen.code = chosen.code := by cases chosen <;> rfl
    have found : Coded.ofByte? chosen.code = some chosen := Coded.ofByte?_code chosen
    simp [shows, Register.readings, Register.fields, apply, field, value, replaced, standby,
      modemOff, code, found]
  | fifoSize on =>
    simp [shows, Register.readings, Register.fields, apply, field, value, flag Field.fifoSize rfl]
  | fifoFlush on =>
    simp [shows, Register.readings, Register.fields, apply, field, value, flag Field.fifoFlush rfl]
  | waterLevelExt on =>
    simp [shows, Register.readings, Register.fields, apply, field, value,
      flag Field.waterLevelExt rfl]
  | data given =>
    have replaced : Field.data.get (Field.data.set given byte) = given := by
      rw [BitField.set_whole Field.data rfl, BitField.get_whole Field.data rfl]
    simp [shows, Register.readings, Register.fields, apply, field, value, replaced]
  | tx2Inv on =>
    simp [shows, Register.readings, Register.fields, apply, field, value, flag Field.tx2Inv rfl]
  | tx1Inv on =>
    simp [shows, Register.readings, Register.fields, apply, field, value, flag Field.tx1Inv rfl]
  | txEn on =>
    simp [shows, Register.readings, Register.fields, apply, field, value, flag Field.txEn rfl]
  | txClkMode mode =>
    have low : Field.txClkMode.get (Field.txClkMode.set mode byte) = mode &&& 7 :=
      BitField.get_set_self Field.txClkMode mode byte
    simp [shows, Register.readings, Register.fields, apply, field, value, low]

/-- A field that a setting does not name has no bit in common with it. This is the layout of the
registers: each field in turn. -/
theorem apart_of_unnamed (setting : Setting register) :
    ∀ named ∈ register.fields, named.name ∉ setting.names → named.field.Apart setting.field := by
  cases setting <;>
    simp [Register.fields, names, shows, field, NamedField.flag, NamedField.number,
      NamedField.command, BitField.Apart, Field.standby, Field.modemOff, Field.commandCode,
      Field.whole, Field.fifoSize, Field.hiAlert, Field.loAlert, Field.fifoFlush,
      Field.waterLevelExt, Field.fifoLengthExt, Field.data, Field.tx2Inv, Field.tx1Inv, Field.txEn,
      Field.txClkMode]

/-- A setting leaves alone what the fields that it does not name show. -/
theorem reading_apply {setting : Setting register} {byte : UInt8} {entry : String × Reading}
    (shown : entry ∈ register.readings byte) (unnamed : entry.1 ∉ setting.names) :
    entry ∈ register.readings (setting.apply byte) := by
  rw [Register.readings, List.mem_map] at shown ⊢
  obtain ⟨named, among, rfl⟩ := shown
  have apart := setting.apart_of_unnamed named among unnamed
  have same : named.read (setting.apply byte) = named.read byte := by
    rw [NamedField.read, NamedField.read, apply, BitField.get_set_of_apart apart]
  exact ⟨named, among, same⟩

/-- Settings of different fields have no bit in common. -/
theorem apart_of_disjoint {first second : Setting register}
    (disjoint : ∀ name ∈ first.names, name ∉ second.names) :
    first.field.Apart second.field := by
  cases first <;> cases second <;>
    simp [names, shows, field, BitField.Apart, Field.standby, Field.modemOff, Field.commandCode,
      Field.fifoSize, Field.fifoFlush, Field.waterLevelExt, Field.tx2Inv, Field.tx1Inv, Field.txEn,
      Field.txClkMode] at disjoint ⊢

/-- Such settings can be exchanged. -/
theorem apply_comm {first second : Setting register}
    (disjoint : ∀ name ∈ first.names, name ∉ second.names) (byte : UInt8) :
    second.apply (first.apply byte) = first.apply (second.apply byte) :=
  (BitField.set_comm _ _ _ _ _ (apart_of_disjoint disjoint).covers).symm

/-! ## Settings in order -/

/-- The first setting is applied first. -/
theorem applyAll_cons (setting : Setting register) (rest : List (Setting register))
    (byte : UInt8) : applyAll (setting :: rest) byte = applyAll rest (setting.apply byte) := rfl

/-- Settings in two parts are applied part by part. -/
theorem applyAll_append (first second : List (Setting register)) (byte : UInt8) :
    applyAll (first ++ second) byte = applyAll second (applyAll first byte) :=
  List.foldl_append

/-- A bit of no setting keeps its value. -/
theorem getLsbD_applyAll {settings : List (Setting register)} {position : Nat}
    (inside : position < 8)
    (free : ∀ setting ∈ settings, setting.field.covers position = false) (byte : UInt8) :
    (applyAll settings byte).toBitVec.getLsbD position = byte.toBitVec.getLsbD position := by
  induction settings generalizing byte with
  | nil => rfl
  | cons setting rest inductionHypothesis =>
    rw [List.forall_mem_cons] at free
    rw [applyAll_cons, inductionHypothesis free.2, apply,
      BitField.getLsbD_set _ _ _ _ inside, free.1]
    rfl

/-- What a field shows is kept by settings that do not name it. By induction on the settings, one
`reading_apply` for each. -/
theorem reading_applyAll {settings : List (Setting register)} {byte : UInt8}
    {entry : String × Reading} (shown : entry ∈ register.readings byte)
    (unnamed : ∀ setting ∈ settings, entry.1 ∉ setting.names) :
    entry ∈ register.readings (applyAll settings byte) := by
  induction settings generalizing byte with
  | nil => exact shown
  | cons setting rest inductionHypothesis =>
    rw [List.forall_mem_cons] at unnamed
    exact inductionHypothesis (reading_apply shown unnamed.1) unnamed.2

/-- A content in which each field holds the last value that the settings give it, and all other
bits are old. -/
structure LastWins (settings : List (Setting register)) (old new : UInt8) : Prop where
  /-- A bit of a setting's field that no later setting has. -/
  given : ∀ earlier setting later position, settings = earlier ++ setting :: later →
    setting.field.covers position = true →
    (∀ other ∈ later, other.field.covers position = false) →
      new.toBitVec.getLsbD position =
        setting.value.toBitVec.getLsbD (position - setting.field.low)
  /-- A bit of no setting's field. -/
  kept : ∀ position < 8, (∀ setting ∈ settings, setting.field.covers position = false) →
    new.toBitVec.getLsbD position = old.toBitVec.getLsbD position
  /-- A field that a setting names and no later one does, as it is read. -/
  shown : ∀ earlier setting later entry, settings = earlier ++ setting :: later →
    entry ∈ setting.shows → (∀ other ∈ later, entry.1 ∉ other.names) →
      entry ∈ register.readings new

/-- The last setting of a field wins. Each part splits the settings at the one that it is about:
whatever came before is overwritten, and nothing after it touches the same bits. -/
theorem lastWins_applyAll (settings : List (Setting register)) (byte : UInt8) :
    LastWins settings byte (applyAll settings byte) where
  given earlier setting later position split covered free := by
    have inside := BitField.lt_of_covers covered
    rw [split, applyAll_append, applyAll_cons, getLsbD_applyAll inside free, apply,
      BitField.getLsbD_set _ _ _ _ inside, if_pos covered]
  kept position inside free := getLsbD_applyAll inside free byte
  shown earlier setting later entry split among unnamed := by
    rw [split, applyAll_append, applyAll_cons]
    exact reading_applyAll (setting.shows_apply _ entry among) unnamed

/-- The clock mode is cut to three bits and does not reach the driver bits above it. -/
example : applyAll [.txEn true, .txClkMode 0xFF, .txEn false] 0x30 = 0x37 := by decide

end Setting

/-! ## On the chip -/

/-- The memory with a register changed by settings. -/
def Memory.settle {register : Register} (memory : Memory) (settings : List (Setting register)) :
    Memory :=
  memory.set register.address (Setting.applyAll settings (memory.get register.address))

namespace Driver

open Bench (serve Plain)

/-- A register is changed by settings. Whatever the chip, it is read, and if that was answered it is
written with the settings applied to the answer. In the byte written each field holds the last value
given for it and shows it, and every other bit is as it was read, so neighbours of different fields
may change places. On plain registers a failed access leaves everything unchanged. Two changes in
a row, of which none fails, amount to one with all settings.

Proof: a setting replaces the bits of its fields and keeps the others, so by induction over the
settings the last one of a field decides. On plain registers the two accesses are planned, so the
first that fails decides. -/
theorem modify_settings_exact {register : Register} (settings : List (Setting register)) :
    (∀ {σ : Type} (chip : Server Chip.Reply σ) (state : σ),
      Revised register.address (Setting.applyAll settings)
        (Program.run chip (modify register (Setting.applyAll settings)).run state)) ∧
    (∀ content, Setting.LastWins settings content (Setting.applyAll settings content)) ∧
    (∀ earlier first second later, settings = earlier ++ first :: second :: later →
      (∀ name ∈ first.names, name ∉ second.names) → ∀ content,
        Setting.applyAll (earlier ++ second :: first :: later) content =
          Setting.applyAll settings content) ∧
    ∀ (plan : Plan) (file : RegisterFile) (transactions pinCalls sends : Nat),
      let bench : Bench := ⟨.registers file, fun _ => [], transactions, pinCalls, sends⟩
      let run := Program.run (serve plan) (modify register (Setting.applyAll settings)).run bench
      (match plan.firstFault transactions 2 with
        | none => run.result = .ok () ∧
            run.state.device.memory? = some (file.memory.settle settings)
        | some _ => run.result = .error (.fault .spi) ∧
            run.state.device.memory? = some file.memory) ∧
      ∀ later : List (Setting register),
        let both := Program.run (serve plan)
          (do
            modify register (Setting.applyAll settings)
            modify register (Setting.applyAll later) : Action Unit).run bench
        match plan.firstFault transactions 4 with
        | none => both.result = .ok () ∧
            both.state.device.memory? = some (file.memory.settle (settings ++ later))
        | some position => both.result = .error (.fault .spi) ∧
            both.state.device.memory? =
              some (if position < 2 then file.memory else file.memory.settle settings) := by
  refine ⟨?_, Setting.lastWins_applyAll settings, ?_, ?_⟩
  · intro σ chip state
    exact revised_modify chip state register (Setting.applyAll settings)
  · intro earlier first second later split disjoint content
    rw [split, Setting.applyAll_append, Setting.applyAll_append]
    simp only [Setting.applyAll_cons, Setting.apply_comm disjoint]
  · intro plan file transactions pinCalls sends bench run
    have plain : Plain bench file.memory := Bench.plain_registers file transactions pinCalls sends
    refine ⟨?_, ?_⟩
    · have ended := plain.run_modify plan register (Setting.applyAll settings)
      dsimp only [bench] at ended
      cases found : plan.firstFault transactions 2 with
      | none =>
        rw [found] at ended
        exact ⟨ended.1, ended.2.memory?⟩
      | some position =>
        rw [found] at ended
        exact ⟨ended.1, ended.2.memory?⟩
    · intro later both
      have ended := plain.run_modify_modify plan register (Setting.applyAll settings)
        (Setting.applyAll later)
      dsimp only [bench] at ended
      rw [← Setting.applyAll_append] at ended
      cases found : plan.firstFault transactions 4 with
      | none =>
        rw [found] at ended
        exact ⟨ended.1, ended.2.memory?⟩
      | some position =>
        rw [found] at ended
        exact ⟨ended.1, ended.2.memory?⟩

end Driver

end NfcFrontend
