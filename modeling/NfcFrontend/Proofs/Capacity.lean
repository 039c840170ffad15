import NfcFrontend.Host.Bridge
import NfcFrontend.Proofs.Cut
import NfcFrontend.Proofs.SessionHistory

/-!
# What the capacity of a session decides

A session drops a command whose parameters it cannot hold at the first byte that does not
fit. A small session therefore takes fewer bytes for such a command than a large one does,
and everything after it is read at another offset. What it reads there is still simple to
say: the stream is cut after the byte that did not fit, and each piece stands for itself.

The measure is an `Unbounded` session, which is never full. Short of overflow a session of
any capacity moves as this one does. No command takes more than two parameters, so all
sessions with two places are alike.
-/

namespace NfcFrontend.Host

/-- A session that holds any number of parameters. -/
structure Unbounded where
  state : SessionState
  held : List UInt8
deriving DecidableEq

namespace Unbounded

def fresh : Unbounded := ⟨.waitingForCommand, []⟩

/-- Feed one byte from the host. Every parameter fits. -/
def accept (session : Unbounded) (byte : UInt8) : Except Violation Step × Unbounded :=
  match session.state with
  | .waitingForCommand =>
    match (Coded.ofByte? byte : Option Opcode) with
    | none => (.ok (.unknown byte), session)
    | some opcode =>
      if opcode.parameterCount = 0 then ((Request.ofParameters opcode []).map .ready, session)
      else (.ok .pending, ⟨.waitingForParams opcode, []⟩)
  | .waitingForParams opcode =>
    let held := session.held ++ [byte]
    if held.length < opcode.parameterCount then (.ok .pending, ⟨session.state, held⟩)
    else
      match Request.ofParameters opcode held with
      | .ok request => (.ok (.ready request), fresh)
      | .error violation => (.error violation, ⟨session.state, held⟩)

/-- Feed bytes in order. -/
def feed (session : Unbounded) : List UInt8 → List (Except Violation Step) × Unbounded
  | [] => ([], session)
  | byte :: rest =>
    let (step, after) := session.accept byte
    let (steps, last) := after.feed rest
    (step :: steps, last)

end Unbounded

/-! ## Cutting at the capacity -/

/-- The number of bytes that follow the first byte of a frame. A command that does not fit
ends with the byte after the last place. -/
def reach (capacity : Nat) (byte : UInt8) : Nat := min (trailing byte) (capacity + 1)

/-- Cut a stream into the frames that a session takes it for. -/
def cutWithin (capacity : Nat) : List UInt8 → Cut
  | [] => ⟨[], []⟩
  | byte :: later =>
    if reach capacity byte ≤ later.length then
      let others := cutWithin capacity (later.drop (reach capacity byte))
      ⟨(byte :: later.take (reach capacity byte)) :: others.frames, others.rest⟩
    else ⟨[], byte :: later⟩
termination_by bytes => bytes.length
decreasing_by
  rw [List.length_drop, List.length_cons]
  omega

/-- The steps of one frame: those of an unbounded session, unless the command does not fit. -/
def frameSteps (capacity : Nat) : List UInt8 → List (Except Violation Step)
  | [] => []
  | byte :: parameters =>
    if trailing byte ≤ capacity then (Unbounded.fresh.feed (byte :: parameters)).1
    else List.replicate (capacity + 1) (.ok .pending) ++ [.ok .overflow]

/-- Pieces of a stream, each as long as a session takes it for. -/
structure CutAt (capacity : Nat) (bytes : List UInt8) (pieces : Cut) : Prop where
  covers : pieces.frames.flatten ++ pieces.rest = bytes
  frames : ∀ frame ∈ pieces.frames, ∃ byte parameters,
    frame = byte :: parameters ∧ parameters.length = reach capacity byte
  /-- What is left lacks a byte. -/
  rest : ∀ byte parameters, pieces.rest = byte :: parameters →
    parameters.length < reach capacity byte

/-- Cutting neither loses nor moves a byte. -/
theorem cutWithin_cutAt (capacity : Nat) (bytes : List UInt8) :
    CutAt capacity bytes (cutWithin capacity bytes) := by
  induction bytes using cutWithin.induct capacity with
  | case1 =>
    rw [cutWithin]
    exact ⟨rfl, by simp, by simp⟩
  | case2 byte later enough inductionHypothesis =>
    rw [cutWithin, if_pos enough]
    refine ⟨by simp [inductionHypothesis.covers], ?_, inductionHypothesis.rest⟩
    intro frame member
    obtain rfl | among := List.mem_cons.mp member
    · exact ⟨byte, _, rfl, by rw [List.length_take, Nat.min_eq_left enough]⟩
    · exact inductionHypothesis.frames frame among
  | case3 byte later short =>
    rw [cutWithin, if_neg short]
    refine ⟨rfl, by simp, ?_⟩
    rintro first parameters ⟨rfl, rfl⟩
    exact Nat.not_le.mp short

/-- Every frame fits from two places upwards, and is cut as it stands. -/
theorem cutWithin_eq_cut {capacity : Nat} (roomy : 2 ≤ capacity) (bytes : List UInt8) :
    cutWithin capacity bytes = cut bytes := by
  have whole (byte : UInt8) : reach capacity byte = trailing byte := by
    have few : trailing byte ≤ 2 := trailing_le byte
    exact Nat.min_eq_left (by omega)
  induction bytes using cut.induct with
  | case1 => simp [cutWithin]
  | case2 byte later enough inductionHypothesis =>
    rw [cutWithin, cut, whole, if_pos enough, if_pos enough, inductionHypothesis]
  | case3 byte later short =>
    rw [cutWithin, cut, whole, if_neg short, if_neg short]

/-- A frame that fits is whole. -/
theorem whole_of_reach {capacity : Nat} {byte : UInt8} {parameters : List UInt8}
    (counted : parameters.length = reach capacity byte) (fits : trailing byte ≤ capacity) :
    Whole (byte :: parameters) ∧ (byte :: parameters).length ≤ capacity + 1 := by
  have whole : parameters.length = trailing byte := counted.trans (Nat.min_eq_left (by omega))
  refine ⟨⟨byte, parameters, rfl, whole⟩, ?_⟩
  rw [List.length_cons]
  omega

namespace Session

variable {capacity : Nat}

/-! ## Short of overflow -/

/-- A session without its bound. -/
def free (session : Session capacity) : Unbounded := ⟨session.state, session.held⟩

/-- A byte overflows exactly the sessions that have no place for it. -/
theorem accept_overflow_iff (session : Session capacity) (byte : UInt8) :
    (session.accept byte).1 = .ok .overflow ↔
      ∃ opcode, session.state = .waitingForParams opcode ∧ capacity ≤ session.held.length := by
  obtain ⟨state, held⟩ := session
  cases state with
  | waitingForCommand =>
    cases found : (Coded.ofByte? byte : Option Opcode) with
    | none => simp [accept, found]
    | some opcode =>
      by_cases bare : opcode.parameterCount = 0
      · cases built : Request.ofParameters opcode [] <;>
          simp [accept, found, bare, built, Except.map]
      · simp [accept, found, bare]
  | waitingForParams opcode =>
    by_cases room : held.length < capacity
    · by_cases more : held.length + 1 < opcode.parameterCount
      · simp [accept, room, more]
      · cases built : Request.ofParameters opcode (held ++ [byte]) <;>
          simp [accept, room, more, built]
    · simp [accept, room, Nat.not_lt.mp room]

/-- A byte that does not overflow a session moves it as if it had no bound. -/
theorem accept_free (session : Session capacity) (byte : UInt8)
    (fits : (session.accept byte).1 ≠ .ok .overflow) :
    session.free.accept byte = ((session.accept byte).1, (session.accept byte).2.free) := by
  obtain ⟨state, held⟩ := session
  cases state with
  | waitingForCommand =>
    cases found : (Coded.ofByte? byte : Option Opcode) with
    | none => simp [free, Unbounded.accept, accept, found]
    | some opcode =>
      by_cases bare : opcode.parameterCount = 0 <;>
        simp [free, Unbounded.accept, accept, found, bare]
  | waitingForParams opcode =>
    have room : held.length < capacity := by
      by_contra full
      exact fits (by simp [accept, full])
    by_cases more : held.length + 1 < opcode.parameterCount
    · simp [free, Unbounded.accept, accept, room, more]
    · cases built : Request.ofParameters opcode (held ++ [byte]) <;>
        simp [free, Unbounded.accept, Unbounded.fresh, fresh, accept, room, more, built]

/-- So does a stream. -/
theorem feed_free (session : Session capacity) (bytes : List UInt8)
    (fits : .ok .overflow ∉ (session.feed bytes).1) :
    session.free.feed bytes = ((session.feed bytes).1, (session.feed bytes).2.free) := by
  induction bytes generalizing session with
  | nil => rfl
  | cons byte rest inductionHypothesis =>
    have now : (session.accept byte).1 ≠ .ok .overflow := by
      intro overflowed
      exact fits (by simp [feed, overflowed])
    have later : .ok .overflow ∉ ((session.accept byte).2.feed rest).1 := by
      intro member
      exact fits (by simp [feed, member])
    rw [Unbounded.feed, accept_free session byte now]
    simp [feed, inductionHypothesis (session.accept byte).2 later]

/-- From two places upwards no stream overflows. -/
theorem not_overflow_feed (roomy : 2 ≤ capacity) (session : Session capacity)
    (sound : session.Sound) (bytes : List UInt8) :
    .ok .overflow ∉ (session.feed bytes).1 := by
  induction bytes generalizing session with
  | nil => simp [feed]
  | cons byte rest inductionHypothesis =>
    obtain ⟨step, after, accepted, moved⟩ := session.accept_accepted sound byte
    have now : step ≠ .overflow := moved.not_overflow roomy
    have later := inductionHypothesis after moved.sound
    simp [feed, accepted, later, now.symm]

/-! ## Frame by frame -/

/-- An opcode and parameters short of what it takes are pending. -/
theorem feed_opcode (capacity : Nat) (opcode : Opcode) (taken : List UInt8)
    (wanting : taken.length < opcode.parameterCount) (fits : taken.length ≤ capacity) :
    (fresh : Session capacity).feed (opcode.code :: taken) =
      (List.replicate (taken.length + 1) (.ok .pending), ⟨.waitingForParams opcode, taken⟩) := by
  have found : (Coded.ofByte? opcode.code : Option Opcode) = some opcode :=
    Coded.ofByte?_code opcode
  have takes : opcode.parameterCount ≠ 0 := by omega
  have opened : (fresh : Session capacity).accept opcode.code =
      (.ok .pending, ⟨.waitingForParams opcode, []⟩) := by
    simp [accept, fresh, found, takes]
  have waited : (⟨.waitingForParams opcode, []⟩ : Session capacity).feed taken = _ :=
    feed_wanting opcode [] taken (by simpa using wanting) (by simpa using fits)
  rw [feed, opened]
  simp [waited, List.replicate_succ]

/-- The opcode of a byte that bytes follow. -/
theorem opcode_of_trailing {byte : UInt8} (follows : 0 < trailing byte) :
    ∃ opcode : Opcode, opcode.code = byte ∧ opcode.parameterCount = trailing byte := by
  cases found : (Coded.ofByte? byte : Option Opcode) with
  | none => exact absurd (trailing_of_foreign found) (Nat.ne_of_gt follows)
  | some opcode =>
    obtain rfl : opcode.code = byte := Coded.ofByte?_eq_some_iff.mp found
    exact ⟨opcode, rfl, (trailing_code opcode).symm⟩

/-- A whole frame that fits is settled without overflow. -/
theorem feed_fitting {frame : List UInt8} (whole : Whole frame)
    (fits : frame.length ≤ capacity + 1) :
    .ok .overflow ∉ ((fresh : Session capacity).feed frame).1 ∧
      ((fresh : Session capacity).feed frame).2 = fresh := by
  obtain ⟨byte, parameters, rfl, counted⟩ := whole
  cases found : (Coded.ofByte? byte : Option Opcode) with
  | none =>
    rw [trailing_of_foreign found] at counted
    obtain rfl := List.length_eq_zero_iff.mp counted
    simp [feed, accept, fresh, found]
  | some opcode =>
    obtain rfl : opcode.code = byte := Coded.ofByte?_eq_some_iff.mp found
    rw [trailing_code] at counted
    obtain ⟨request, built⟩ := Request.ofParameters_of_count opcode parameters counted
    obtain ⟨rfl, rfl⟩ := Request.ofParameters_eq_ok_iff.mp built
    obtain ⟨waits, pending, fed⟩ :=
      feed_request capacity request (by simpa using fits)
    have quiet : (.ok .overflow : Except Violation Step) ∉ waits := by
      intro member
      cases pending _ member
    have encoded : request.opcode.code :: request.parameters = request.encode := rfl
    rw [encoded, fed]
    simp [quiet]

/-- An unbounded session takes such a frame the same way. -/
theorem feed_whole {frame : List UInt8} (whole : Whole frame) (fits : frame.length ≤ capacity + 1) :
    (fresh : Session capacity).feed frame = ((Unbounded.fresh.feed frame).1, fresh) ∧
      (Unbounded.fresh.feed frame).2 = Unbounded.fresh := by
  obtain ⟨quiet, done⟩ := feed_fitting whole fits
  have unbounded : Unbounded.fresh.feed frame =
      (((fresh : Session capacity).feed frame).1, ((fresh : Session capacity).feed frame).2.free) :=
    feed_free fresh frame quiet
  rw [unbounded, done]
  exact ⟨Prod.ext rfl done, rfl⟩

/-- A frame makes its steps, and leaves a fresh session. -/
theorem feed_frame (byte : UInt8) (parameters : List UInt8)
    (counted : parameters.length = reach capacity byte) :
    (fresh : Session capacity).feed (byte :: parameters) =
      (frameSteps capacity (byte :: parameters), fresh) := by
  by_cases fits : trailing byte ≤ capacity
  · obtain ⟨whole, short⟩ := whole_of_reach counted fits
    rw [frameSteps, if_pos fits]
    exact (feed_whole whole short).1
  · obtain ⟨opcode, rfl, takes⟩ := opcode_of_trailing (show 0 < trailing byte by omega)
    have length : parameters.length = capacity + 1 :=
      counted.trans (Nat.min_eq_right (by omega))
    obtain ⟨taken, last, rfl⟩ : ∃ taken last, parameters = taken ++ [last] :=
      ⟨_, _, (List.dropLast_concat_getLast (List.ne_nil_of_length_eq_add_one length)).symm⟩
    have full : taken.length = capacity := by simpa using length
    have opened := feed_opcode capacity opcode taken (by omega) (by omega)
    have steps : frameSteps capacity (opcode.code :: (taken ++ [last])) =
        List.replicate (capacity + 1) (.ok .pending) ++ [.ok .overflow] :=
      if_neg fits
    rw [steps, ← List.cons_append, feed_append, opened]
    simp [feed, accept, full]

/-- An incomplete frame is pending, as in an unbounded session. -/
theorem feed_incomplete (byte : UInt8) (parameters : List UInt8)
    (short : parameters.length < reach capacity byte) :
    .ok .overflow ∉ ((fresh : Session capacity).feed (byte :: parameters)).1 := by
  have wanting : parameters.length < trailing byte := Nat.lt_of_lt_of_le short (Nat.min_le_left _ _)
  have fits : parameters.length < capacity + 1 := Nat.lt_of_lt_of_le short (Nat.min_le_right _ _)
  obtain ⟨opcode, rfl, takes⟩ := opcode_of_trailing (show 0 < trailing byte by omega)
  rw [feed_opcode capacity opcode parameters (by omega) (by omega)]
  simp

/-- A session takes a stream frame by frame, and what is left as an unbounded session. -/
theorem feed_cutWithin (capacity : Nat) (bytes : List UInt8) :
    ((fresh : Session capacity).feed bytes).1 =
        (cutWithin capacity bytes).frames.flatMap (frameSteps capacity) ++
          (Unbounded.fresh.feed (cutWithin capacity bytes).rest).1 ∧
      ((fresh : Session capacity).feed bytes).2.free =
        (Unbounded.fresh.feed (cutWithin capacity bytes).rest).2 := by
  induction bytes using cutWithin.induct capacity with
  | case1 => simp [cutWithin, feed, Unbounded.feed, free, fresh, Unbounded.fresh]
  | case2 byte later enough inductionHypothesis =>
    have counted : (later.take (reach capacity byte)).length = reach capacity byte := by
      rw [List.length_take, Nat.min_eq_left enough]
    have split : byte :: later =
        (byte :: later.take (reach capacity byte)) ++ later.drop (reach capacity byte) := by
      rw [List.cons_append, List.take_append_drop]
    have fed := feed_append (fresh : Session capacity)
      (byte :: later.take (reach capacity byte)) (later.drop (reach capacity byte))
    rw [← split, feed_frame byte _ counted] at fed
    rw [cutWithin, if_pos enough, fed]
    simpa using inductionHypothesis
  | case3 byte later short =>
    have quiet := feed_incomplete byte later (Nat.not_le.mp short)
    have fed := feed_free (fresh : Session capacity) (byte :: later) quiet
    have start : (fresh : Session capacity).free = Unbounded.fresh := rfl
    rw [start] at fed
    simp [cutWithin, short, fed]

/-! ## Overflow -/

/-- The stream ends with an opcode that takes more parameters than the session holds, and
with as many parameters as it does hold. -/
structure Full (capacity : Nat) (bytes before : List UInt8) (opcode : Opcode)
    (taken : List UInt8) : Prop where
  split : bytes = before ++ opcode.code :: taken
  due : ((fresh : Session capacity).feed before).2.state = .waitingForCommand
  filled : taken.length = capacity
  outgrown : capacity < opcode.parameterCount

/-- A sound session that waits for an opcode is fresh. -/
theorem Sound.eq_fresh {session : Session capacity} (sound : session.Sound)
    (due : session.state = .waitingForCommand) : session = fresh := by
  obtain ⟨state, held⟩ := session
  obtain rfl : state = .waitingForCommand := due
  obtain rfl : held = [] := sound
  rfl

/-- A full session has only waited since the opcode. -/
theorem Full.feed {bytes before taken : List UInt8} {opcode : Opcode}
    (full : Full capacity bytes before opcode taken) :
    (fresh : Session capacity).feed bytes =
      (((fresh : Session capacity).feed before).1 ++ List.replicate (capacity + 1) (.ok .pending),
        ⟨.waitingForParams opcode, taken⟩) := by
  have due : ((fresh : Session capacity).feed before).2 = fresh :=
    (sound_feed fresh sound_fresh before).eq_fresh full.due
  have length := full.filled
  have outgrown := full.outgrown
  have opened := feed_opcode capacity opcode taken (by omega) (by omega)
  rw [full.split, feed_append]
  simp only [due, opened, length]

/-- The bytes of a stream are inputs. -/
theorem afterAll_bytes (session : Session capacity) (bytes : List UInt8) :
    session.afterAll (bytes.map .byte) = (session.feed bytes).2 := by
  induction bytes generalizing session with
  | nil => rfl
  | cons byte rest inductionHypothesis => exact inductionHypothesis (session.accept byte).2

/-- What the history of a stream says is pending stands at its end. -/
theorem Pending.split {bytes held : List UInt8} {opcode : Opcode}
    (pending : Pending capacity (bytes.map .byte) opcode held) :
    ∃ before, bytes = before ++ opcode.code :: held ∧
      ((fresh : Session capacity).feed before).2.state = .waitingForCommand := by
  obtain ⟨earlier, split, due⟩ := pending.since
  obtain ⟨before, inside, rfl, rfl, ends⟩ := List.map_eq_append_iff.mp split
  obtain ⟨code, taken, rfl, coded, kept⟩ := List.map_eq_cons_iff.mp ends
  obtain rfl : code = opcode.code := Input.byte.inj coded
  obtain rfl : taken = held := (List.map_inj_right fun _ _ => Input.byte.inj).mp kept
  rw [afterAll_bytes] at due
  exact ⟨before, rfl, due⟩

/-- A byte overflows the session exactly when the stream has filled it. The history of the
buffer says what the stream was. -/
theorem overflow_iff_full (bytes : List UInt8) (byte : UInt8) :
    (((fresh : Session capacity).feed bytes).2.accept byte).1 = .ok .overflow ↔
      ∃ before opcode taken, Full capacity bytes before opcode taken := by
  rw [accept_overflow_iff]
  constructor
  · rintro ⟨opcode, waiting, full⟩
    have holds : ((fresh : Session capacity).afterAll (bytes.map .byte)).Holds _ :=
      holds_afterAll (bytes.map .byte)
    rw [afterAll_bytes, Holds, waiting] at holds
    obtain ⟨before, split, due⟩ := holds.split
    have length := Nat.le_antisymm holds.fits full
    exact ⟨before, opcode, _, split, due, length, length ▸ holds.wanting⟩
  · rintro ⟨before, opcode, taken, full⟩
    rw [full.feed]
    exact ⟨opcode, rfl, Nat.le_of_eq full.filled.symm⟩

/-- What the capacity decides about a stream. -/
structure Limits (capacity : Nat) (bytes : List UInt8) : Prop where
  /-- The next byte overflows exactly when the stream has filled the session. -/
  overflows : ∀ byte,
    (((fresh : Session capacity).feed bytes).2.accept byte).1 = .ok .overflow ↔
      ∃ before opcode taken, Full capacity bytes before opcode taken
  /-- It makes the session as it was before the opcode, and all its bytes report nothing. -/
  discards : ∀ before opcode taken, Full capacity bytes before opcode taken → ∀ byte,
    ((fresh : Session capacity).feed (bytes ++ [byte])).2 = ⟨.waitingForCommand, []⟩ ∧
      ∀ later, (fresh : Session capacity).feed (bytes ++ byte :: later) =
        (((fresh : Session capacity).feed before).1 ++
            List.replicate (capacity + 1) (.ok .pending) ++
            .ok .overflow :: ((fresh : Session capacity).feed later).1,
          ((fresh : Session capacity).feed later).2)
  /-- The stream is its frames and what is left. -/
  cuts : CutAt capacity bytes (cutWithin capacity bytes)
  /-- The steps are those of an unbounded session for every frame that fits, and for what
  is left. -/
  steps : ((fresh : Session capacity).feed bytes).1 =
    (cutWithin capacity bytes).frames.flatMap (frameSteps capacity) ++
      (Unbounded.fresh.feed (cutWithin capacity bytes).rest).1
  /-- A frame that fits is settled in an unbounded session too. -/
  settles : ∀ byte parameters, byte :: parameters ∈ (cutWithin capacity bytes).frames →
    trailing byte ≤ capacity →
      (Unbounded.fresh.feed (byte :: parameters)).2 = Unbounded.fresh
  /-- The session holds what an unbounded session holds of what is left. -/
  leaves : ((fresh : Session capacity).feed bytes).2.free =
    (Unbounded.fresh.feed (cutWithin capacity bytes).rest).2
  /-- From two places upwards the frames are those of the stream itself. -/
  roomy : 2 ≤ capacity → cutWithin capacity bytes = cut bytes

/-- One more byte ends a full session's command, and a fresh session goes on. -/
theorem Full.discards {bytes before taken : List UInt8} {opcode : Opcode}
    (full : Full capacity bytes before opcode taken) (byte : UInt8) (later : List UInt8) :
    (fresh : Session capacity).feed (bytes ++ byte :: later) =
      (((fresh : Session capacity).feed before).1 ++
          List.replicate (capacity + 1) (.ok .pending) ++
          .ok .overflow :: ((fresh : Session capacity).feed later).1,
        ((fresh : Session capacity).feed later).2) := by
  have length := full.filled
  have overflowed : (⟨.waitingForParams opcode, taken⟩ : Session capacity).accept byte =
      (.ok .overflow, fresh) := by
    simp [accept, length]
  rw [feed_append, full.feed]
  simp [Session.feed, overflowed]

/-- Sessions of any two capacities from two upwards do the same, byte for byte. -/
theorem feed_alike {other : Nat} (roomy : 2 ≤ capacity) (ample : 2 ≤ other)
    (bytes : List UInt8) :
    ((fresh : Session capacity).feed bytes).1 = ((fresh : Session other).feed bytes).1 ∧
      ((fresh : Session capacity).feed bytes).2.free =
        ((fresh : Session other).feed bytes).2.free := by
  have here := feed_free (fresh : Session capacity) bytes
    (not_overflow_feed roomy fresh sound_fresh bytes)
  have there := feed_free (fresh : Session other) bytes
    (not_overflow_feed ample fresh sound_fresh bytes)
  have start : (fresh : Session capacity).free = (fresh : Session other).free := rfl
  rw [start, there] at here
  exact ⟨(congrArg Prod.fst here).symm, (congrArg Prod.snd here).symm⟩

/-- Every capacity decides only where commands that do not fit are cut off, and from two
places upwards it decides nothing.

Proof: along the bytes, the session steps as the cutting within its capacity says. Two places hold
the parameters of every opcode, so no cut is ever made for lack of room. -/
theorem capacity_exact (capacity : Nat) (bytes : List UInt8) :
    Limits capacity bytes ∧
      ∀ other, 2 ≤ capacity → 2 ≤ other →
        ((fresh : Session capacity).feed bytes).1 = ((fresh : Session other).feed bytes).1 ∧
        ((fresh : Session capacity).feed bytes).2.state =
          ((fresh : Session other).feed bytes).2.state ∧
        ((fresh : Session capacity).feed bytes).2.held =
          ((fresh : Session other).feed bytes).2.held ∧
        .ok .overflow ∉ ((fresh : Session capacity).feed bytes).1 := by
  obtain ⟨steps, leaves⟩ := feed_cutWithin capacity bytes
  have cuts := cutWithin_cutAt capacity bytes
  refine ⟨⟨overflow_iff_full bytes, ?discards, cuts, steps, ?settles, leaves, ?roomy⟩,
    ?alike⟩
  case discards =>
    intro before opcode taken full byte
    have ended := full.discards byte []
    exact ⟨congrArg Prod.snd ended, full.discards byte⟩
  case settles =>
    intro byte parameters member fits
    obtain ⟨_, _, ⟨rfl, rfl⟩, counted⟩ := cuts.frames _ member
    obtain ⟨whole, short⟩ := whole_of_reach counted fits
    exact (feed_whole whole short).2
  case roomy =>
    intro roomy
    exact cutWithin_eq_cut roomy bytes
  case alike =>
    intro other roomy ample
    obtain ⟨same, free⟩ := feed_alike roomy ample bytes
    exact ⟨same, congrArg Unbounded.state free, congrArg Unbounded.held free,
      not_overflow_feed roomy fresh sound_fresh bytes⟩

/-- Two places are as good as the bridge's own number. One place is too few for a write, whose
last parameter overflows. -/
theorem capacity_exact_write :
    2 ≤ 2 ∧ 2 ≤ paramsMax ∧
      ((fresh : Session 2).feed [0x01, 0x28, 0x8E]).1 =
        ((fresh : Session paramsMax).feed [0x01, 0x28, 0x8E]).1 ∧
      .ok .overflow ∉ ((fresh : Session 2).feed [0x01, 0x28, 0x8E]).1 ∧
      (((fresh : Session 1).feed [0x01, 0x28]).2.accept 0x8E).1 = .ok .overflow := by
  have places : 2 ≤ paramsMax := by decide
  have alike := (capacity_exact 2 [0x01, 0x28, 0x8E]).2 paramsMax (Nat.le_refl 2) places
  have full : Full 1 [0x01, 0x28] [] .regWrite [0x28] := ⟨rfl, rfl, rfl, by decide⟩
  have overflowed := ((capacity_exact 1 [0x01, 0x28]).1.overflows 0x8E).mpr ⟨[], _, _, full⟩
  exact ⟨Nat.le_refl 2, places, alike.1, alike.2.2.2, overflowed⟩

end Session

end NfcFrontend.Host
