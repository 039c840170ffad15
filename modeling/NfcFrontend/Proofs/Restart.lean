import NfcFrontend.Proofs.Capacity
import NfcFrontend.Proofs.SceneTraffic

/-!
# A restart discards the incomplete request

A bridge may be dropped while a request is only partly received. Its bytes so far have waited
in the session and nowhere else: nothing was asked of the chip, and nothing was told to the
host. Dropping the bridge therefore drops exactly these bytes. Had the host never sent them,
everything before and after the restart would have been the same.

Between requests a session is fresh. A restart at that point changes nothing at all, and a new
bridge goes on where the old one stopped.
-/

namespace NfcFrontend.Host

/-- The frames of a stream are cut off as they stand, and what is left of it holds none. -/
theorem cut_parts (bytes : List UInt8) :
    (cut bytes).frames.flatten ++ (cut bytes).rest = bytes ∧
      cut (cut bytes).frames.flatten = ⟨(cut bytes).frames, []⟩ ∧
      cut (cut bytes).rest = ⟨[], (cut bytes).rest⟩ := by
  induction bytes using cut.induct with
  | case1 => simp
  | case2 byte later enough inductionHypothesis =>
    obtain ⟨covers, framed, left⟩ := inductionHypothesis
    have counted : (later.take (trailing byte)).length = trailing byte := by
      rw [List.length_take, Nat.min_eq_left enough]
    have whole : Whole (byte :: later.take (trailing byte)) := ⟨byte, _, rfl, counted⟩
    rw [cut, if_pos enough]
    refine ⟨?_, ?_, left⟩
    · rw [List.flatten_cons, List.append_assoc, covers, List.cons_append, List.take_append_drop]
    · rw [List.flatten_cons, cut_whole whole, framed]
  | case3 byte later short =>
    have lacking := cut_short byte later (Nat.not_le.mp short)
    rw [lacking]
    exact ⟨rfl, cut_nil, lacking⟩

namespace Session

variable {capacity : Nat}

/-- A sound session with nothing pending is fresh. -/
theorem Sound.fresh_of_pending {session : Session capacity} (sound : session.Sound)
    (nothing : session.pending = []) : session = fresh := by
  obtain ⟨state, held⟩ := session
  cases state with
  | waitingForCommand => exact sound.eq_fresh rfl
  | waitingForParams opcode => cases nothing

/-- Whole frames leave a fresh session. -/
theorem feed_frames (roomy : 2 ≤ capacity) {bytes : List UInt8} (framed : (cut bytes).rest = []) :
    ((fresh : Session capacity).feed bytes).2 = fresh := by
  have parts := cut_feed roomy fresh sound_fresh bytes
  rw [pending_fresh, List.nil_append] at parts
  rw [parts] at framed
  exact (sound_feed fresh sound_fresh bytes).fresh_of_pending framed

/-- Nothing is pending exactly between requests. -/
theorem pending_eq_nil_iff (session : Session capacity) :
    session.pending = [] ↔ session.state = .waitingForCommand := by
  obtain ⟨state, held⟩ := session
  cases state with
  | waitingForCommand => simp [pending]
  | waitingForParams opcode => simp [pending]

/-- Bytes without a whole frame only wait, and are pending. -/
theorem feed_rest (roomy : 2 ≤ capacity) {bytes : List UInt8} (unframed : cut bytes = ⟨[], bytes⟩) :
    (∀ step ∈ ((fresh : Session capacity).feed bytes).1, step = .ok .pending) ∧
      ((fresh : Session capacity).feed bytes).2.pending = bytes := by
  have parts := cut_feed roomy fresh sound_fresh bytes
  rw [pending_fresh, List.nil_append, unframed, Cut.mk.injEq] at parts
  obtain ⟨none, pending⟩ := parts
  refine ⟨?_, pending.symm⟩
  intro step member
  have unsettled : settles step = false := by
    have quiet := List.filter_eq_nil_iff.mp (List.map_eq_nil_iff.mp none.symm) step member
    simpa using quiet
  match step with
  | .ok .pending => rfl

end Session

namespace Scene

variable {σ : Type}

/-- A stream is played as its whole frames, with silent records for what is left. -/
theorem play_received (world : World σ) (queue : Queue) (state : σ) (received : List UInt8) :
    let start : Scene σ := ⟨Session.fresh, queue, state⟩
    let played := start.play world ((cut received).frames.flatten.map Event.byte)
    played.2.session = Session.fresh ∧
      ∃ waited : List Record, waited.length = (cut received).rest.length ∧
        (∀ record ∈ waited, record.Silent) ∧
        start.play world (received.map Event.byte) =
          (played.1 ++ waited,
            { played.2 with session := (Session.fresh.feed (cut received).rest).2 }) := by
  intro start played
  obtain ⟨covers, framed, unframed⟩ := cut_parts received
  have between : played.2.session = Session.fresh := by
    rw [Bridge.session_play]
    exact Session.feed_frames (by decide) (congrArg Cut.rest framed)
  obtain ⟨waits, -⟩ := Session.feed_rest (by decide : 2 ≤ paramsMax) unframed
  rw [← between] at waits
  obtain ⟨waited, length, silent, rest⟩ := play_waiting world (cut received).rest played.2 waits
  refine ⟨between, waited, length, silent, ?_⟩
  have joined : received.map Event.byte =
      (cut received).frames.flatten.map Event.byte ++ (cut received).rest.map Event.byte := by
    rw [← List.map_append, covers]
  rw [between] at rest
  rw [joined, play_append]
  dsimp only
  rw [rest]

/-- What comes after a restart does not depend on the session before it. -/
theorem play_restart (world : World σ) (operations : List Driver.Op) (later : List Event)
    (scene : Scene σ) (session : Bridge.Connection) :
    ({ scene with session := session } : Scene σ).play world (.restart operations :: later) =
      scene.play world (.restart operations :: later) := rfl

/-- A restart between requests, with nothing done in between, changes nothing. -/
theorem play_restart_nil (world : World σ) (later : List Event) {scene : Scene σ}
    (between : scene.session = Session.fresh) :
    scene.play world (.restart [] :: later) =
      (.restart [] :: (scene.play world later).1, (scene.play world later).2) := by
  obtain ⟨session, queue, state⟩ := scene
  obtain rfl : session = Session.fresh := between
  rfl

/-- The one run is the other with records added after the first `count`. The added records make no
difference: the traffic on both sides is the same, and so is the scene left. -/
structure Padded (count : Nat) (added : List Record) (run other : List Record × Scene σ) :
    Prop where
  scene : run.2 = other.2
  chip : chipLog run.1 = chipLog other.1
  host : hostLog run.1 = hostLog other.1
  records : ∃ before after, before.length = count ∧
    run.1 = before ++ added ++ after ∧ other.1 = before ++ after

/-- Records that show nothing to either side may be put between two parts of a scenario. -/
theorem Padded.of_quiet {added before after : List Record} {run other : List Record × Scene σ}
    (chip : chipLog added = []) (host : hostLog added = []) (scene : run.2 = other.2)
    (ran : run.1 = before ++ added ++ after) (beside : other.1 = before ++ after) :
    Padded before.length added run other where
  scene := scene
  chip := by simp [ran, beside, chip]
  host := by simp [ran, beside, host]
  records := ⟨before, after, rfl, ran, beside⟩

/-- A dropped bridge leaves what its whole requests did, and silent records for the rest. -/
theorem play_dropped (world : World σ) (queue : Queue) (state : σ) (received : List UInt8) :
    let start : Scene σ := ⟨Session.fresh, queue, state⟩
    let pending := (start.play world (received.map Event.byte)).2.session.pending
    let whole := (cut received).frames.flatten
    let played := start.play world (whole.map Event.byte)
    received = whole ++ pending ∧
      ∃ waited : List Record, waited.length = pending.length ∧
        (∀ record ∈ waited, record.Silent) ∧
        ∀ operations later,
          start.play world (received.map Event.byte ++ .restart operations :: later) =
            (played.1 ++ waited ++ (played.2.play world (.restart operations :: later)).1,
              (played.2.play world (.restart operations :: later)).2) := by
  intro start pending whole played
  obtain ⟨covers, -, unframed⟩ := cut_parts received
  obtain ⟨-, waited, length, silent, ran⟩ := play_received world queue state received
  have left : pending = (cut received).rest := by
    have fed := (Session.feed_rest (by decide : 2 ≤ paramsMax) unframed).2
    exact (congrArg (fun run => run.2.session.pending) ran).trans fed
  rw [left]
  refine ⟨covers.symm, waited, length, silent, ?_⟩
  intro operations later
  rw [play_append, ran]
  dsimp only
  rw [play_restart]

/-- Dropping a bridge discards the bytes of the incomplete request and nothing else, whatever
the driver does in between and whatever comes afterwards. When the driver does nothing, it is as
if one bridge had been sent the whole requests and what comes afterwards.

Proof: the stream is cut into whole frames and what is pending. Bytes that are pending wait without
an access or an offer, and a restart forgets them. -/
theorem restart_discards_pending (world : World σ) (queue : Queue) (state : σ)
    (received : List UInt8) (operations : List Driver.Op) (later : List Event) :
    let start : Scene σ := ⟨Session.fresh, queue, state⟩
    let session := (start.play world (received.map Event.byte)).2.session
    let whole := (cut received).frames.flatten
    let dropped := start.play world (received.map Event.byte ++ .restart operations :: later)
    let trimmed := start.play world (whole.map Event.byte ++ .restart operations :: later)
    let replaced := start.play world (received.map Event.byte ++ .restart [] :: later)
    let single := start.play world (whole.map Event.byte ++ later)
    received = whole ++ session.pending ∧
      (session.pending = [] ↔ session.state = .waitingForCommand) ∧
      ∃ waited : List Record, waited.length = session.pending.length ∧
        (∀ record ∈ waited, record.Silent) ∧
        Padded whole.length waited dropped trimmed ∧
        Padded whole.length (waited ++ [.restart []]) replaced single := by
  intro start session whole dropped trimmed replaced single
  obtain ⟨covers, waited, length, silent, drops⟩ := play_dropped world queue state received
  obtain ⟨noExchange, noOffer⟩ := logs_silent silent
  have between : (start.play world (whole.map Event.byte)).2.session = Session.fresh :=
    (play_received world queue state received).1
  have counted : (start.play world (whole.map Event.byte)).1.length = whole.length := by
    rw [length_play, List.length_map]
  refine ⟨covers, session.pending_eq_nil_iff, waited, length, silent, ?dropping, ?replacing⟩
  case dropping =>
    simp only [dropped, trimmed, start, whole, drops, play_append, ← counted]
    exact .of_quiet noExchange noOffer rfl rfl rfl
  case replacing =>
    simp only [replaced, single, start, whole, drops, play_append, ← counted]
    rw [play_restart_nil world later between]
    refine .of_quiet ?_ ?_ rfl ?_ rfl
    · rw [chipLog_append, noExchange]
      rfl
    · rw [hostLog_append, noOffer]
      rfl
    · simp only [List.append_assoc, List.singleton_append]
      rfl

end Scene

end NfcFrontend.Host
