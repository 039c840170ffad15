import NfcFrontend.Proofs.Framing

/-!
# Cutting a whole stream into frames

`cut` looks at a complete stream at once, where a session sees one byte at a time. It
takes an opcode with as many bytes as the opcode takes parameters for one frame, a
byte that is no opcode for a frame of its own, and leaves an incomplete frame at the
end alone. How many bytes belong to a frame is said by the number of its first byte
alone, so `cut` knows neither the opcodes nor how they are looked up.

A session agrees with it: the packets it reports are the frames, and what it has
pending is the incomplete one. Statements about a bridge can therefore be made about
the bytes it was sent, without a word about sessions.
-/

namespace NfcFrontend.Host

/-- The number of bytes that follow the first byte of a frame: an address to read, an address
and a value to write, or a protocol. Any other byte is a frame of its own. -/
def trailing (byte : UInt8) : Nat :=
  match byte with
  | 0x00 => 1
  | 0x01 => 2
  | 0x02 => 1
  | _ => 0

/-- The frames of a stream, and the incomplete frame at its end. -/
structure Cut where
  frames : List (List UInt8)
  rest : List UInt8
deriving DecidableEq

/-- Cut a stream into frames. -/
def cut : List UInt8 → Cut
  | [] => ⟨[], []⟩
  | byte :: later =>
    if trailing byte ≤ later.length then
      let others := cut (later.drop (trailing byte))
      ⟨(byte :: later.take (trailing byte)) :: others.frames, others.rest⟩
    else ⟨[], byte :: later⟩
termination_by bytes => bytes.length
decreasing_by
  rw [List.length_drop, List.length_cons]
  omega

/-- A first byte with exactly the bytes that follow it. -/
def Whole (frame : List UInt8) : Prop :=
  ∃ byte parameters, frame = byte :: parameters ∧ parameters.length = trailing byte

/-- There is nothing to cut in an empty stream. -/
@[simp] theorem cut_nil : cut [] = ⟨[], []⟩ := by
  rw [cut]

/-- A whole frame at the front is cut off as it stands. -/
theorem cut_whole {frame : List UInt8} (whole : Whole frame) (later : List UInt8) :
    cut (frame ++ later) = ⟨frame :: (cut later).frames, (cut later).rest⟩ := by
  obtain ⟨byte, parameters, rfl, counted⟩ := whole
  have enough : trailing byte ≤ (parameters ++ later).length := by
    rw [List.length_append, counted]
    exact Nat.le_add_right _ _
  rw [List.cons_append, cut, if_pos enough, ← counted, List.drop_left, List.take_left]

/-- Too few bytes make no frame. -/
theorem cut_short (byte : UInt8) (parameters : List UInt8)
    (short : parameters.length < trailing byte) :
    cut (byte :: parameters) = ⟨[], byte :: parameters⟩ := by
  rw [cut, if_neg (Nat.not_le.mpr short)]

/-- A stream that yields no frame is not a whole frame. -/
theorem not_whole_of_cut {bytes : List UInt8} (unframed : (cut bytes).frames = []) :
    ¬ Whole bytes := by
  intro whole
  have framed := cut_whole whole []
  rw [List.append_nil] at framed
  rw [framed] at unframed
  cases unframed

/-- The parameters of an opcode follow it in a frame. -/
@[simp] theorem trailing_code (opcode : Opcode) : trailing opcode.code = opcode.parameterCount := by
  cases opcode <;> rfl

/-- A byte that names no opcode is a frame of its own. -/
theorem trailing_of_foreign {byte : UInt8}
    (foreign : (Coded.ofByte? byte : Option Opcode) = none) : trailing byte = 0 := by
  have above : 5 ≤ byte.toNat := (Opcode.foreign_iff byte).mp foreign
  unfold trailing
  split
  · exact absurd above (by decide)
  · exact absurd above (by decide)
  · exact absurd above (by decide)
  · rfl

/-- No frame is longer than three bytes. -/
theorem trailing_le (byte : UInt8) : trailing byte ≤ 2 := by
  unfold trailing
  split
  · decide
  · decide
  · decide
  · exact Nat.zero_le 2

/-- A request is a whole frame on the wire. -/
theorem Request.whole_encode (request : Request) : Whole request.encode :=
  ⟨request.opcode.code, request.parameters, rfl, by
    rw [trailing_code, request.length_parameters]⟩

namespace Session

variable {capacity : Nat} {byte : UInt8} {session after : Session capacity} {step : Step}

/-- What a sound session has pending is not yet a frame. -/
theorem cut_pending (session : Session capacity) (sound : session.Sound) :
    cut session.pending = ⟨[], session.pending⟩ := by
  obtain ⟨state, held⟩ := session
  cases state with
  | waitingForCommand => exact cut_nil
  | waitingForParams opcode =>
    have short : held.length < trailing opcode.code := by
      rw [trailing_code]
      exact sound.1
    exact cut_short opcode.code held short

/-- Bytes that a step accounts for are a whole frame. -/
theorem Accepted.whole (moved : Accepted byte session step after) (fits : step ≠ .overflow)
    (done : step ≠ .pending) : Whole step.bytes := by
  cases moved with
  | stray foreign => exact ⟨byte, [], rfl, (trailing_of_foreign foreign).symm⟩
  | completed _ request whole => exact request.whole_encode
  | opened | kept => exact absurd rfl done
  | overflowed => exact absurd rfl fits

/-- A pending step only moves a byte from the stream into the session. -/
theorem Accepted.cut_pending (moved : Accepted byte session .pending after)
    (later : List UInt8) : session.pending ++ byte :: later = after.pending ++ later := by
  have conserved : session.pending ++ [byte] = after.pending :=
    moved.conserves (by simp)
  rw [← conserved, List.append_assoc, List.singleton_append]

/-- Any other step has cut off its frame, and the rest is cut from the next opcode on. -/
theorem Accepted.cut_settled (moved : Accepted byte session step after)
    (fits : step ≠ .overflow) (done : step ≠ .pending) (later : List UInt8) :
    cut (session.pending ++ byte :: later) =
      ⟨step.bytes :: (cut later).frames, (cut later).rest⟩ := by
  have conserved : session.pending ++ [byte] = step.bytes := by
    simpa [moved.after_eq_fresh done] using moved.conserves fits
  rw [← cut_whole (moved.whole fits done) later, ← conserved, List.append_assoc,
    List.singleton_append]

/-- Only a pending step settles nothing. -/
theorem settles_of_ne (done : step ≠ .pending) : settles (.ok step) = true := by
  cases step with
  | pending => exact absurd rfl done
  | unknown | ready | overflow => rfl

/-- A session with two places reports the frames of a stream in order, and has the
incomplete one pending. -/
theorem cut_feed (roomy : 2 ≤ capacity) (session : Session capacity) (sound : session.Sound)
    (bytes : List UInt8) :
    cut (session.pending ++ bytes) =
      ⟨((session.feed bytes).1.filter settles).map accounted, (session.feed bytes).2.pending⟩ := by
  induction bytes generalizing session with
  | nil => simpa [feed] using session.cut_pending sound
  | cons byte rest inductionHypothesis =>
    obtain ⟨step, after, accepted, moved⟩ := session.accept_accepted sound byte
    have fits : step ≠ .overflow := moved.not_overflow roomy
    have later := inductionHypothesis after moved.sound
    by_cases waiting : step = .pending
    · subst waiting
      rw [moved.cut_pending rest, later]
      simp [feed, accepted, settles]
    · have settled : settles (.ok step) = true := settles_of_ne waiting
      obtain rfl : after = fresh := moved.after_eq_fresh waiting
      rw [pending_fresh, List.nil_append] at later
      rw [moved.cut_settled fits waiting rest, later]
      simp [feed, accepted, settled, accounted]

end Session

end NfcFrontend.Host
