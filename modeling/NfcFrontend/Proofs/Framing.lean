import NfcFrontend.Host.Session

/-!
# Framing keeps every byte

A host stream is a sequence of packets: requests, and stray bytes that stand where
an opcode is due but name none. Packets have different lengths and no delimiter, and
a parameter may look like an opcode, so a session that slipped by one byte would
misread everything after it.

`accept_accepted` says once what a byte can do to a session that satisfies `Sound`.
The laws below only use that list of moves. A move that does not overflow conserves
bytes: those held before, with the new one, are those the step reports, followed by
those held after. Overflow needs a command with more parameters than the session can
hold, so it cannot happen from two places upwards.
-/

namespace NfcFrontend.Host

namespace Opcode

/-- No opcode takes more than two parameters. -/
theorem parameterCount_le (opcode : Opcode) : opcode.parameterCount ≤ 2 := by
  cases opcode <;> decide

end Opcode

/-- A request carries as many parameters as its opcode takes. -/
theorem Request.length_parameters (request : Request) :
    request.parameters.length = request.opcode.parameterCount := by
  cases request <;> rfl

/-- A unit of the host's byte stream. -/
inductive Packet where
  | command (request : Request)
  /-- A byte in the place of an opcode that names none. -/
  | stray (byte : UInt8) (foreign : (Coded.ofByte? byte : Option Opcode) = none)

namespace Packet

/-- The bytes of a packet on the wire. -/
def encode : Packet → List UInt8
  | .command request => request.encode
  | .stray byte _ => [byte]

/-- What a session reports when a packet is complete. -/
def step : Packet → Step
  | .command request => .ready request
  | .stray byte _ => .unknown byte

end Packet

/-- The bytes a step accounts for. -/
def Step.bytes : Step → List UInt8
  | .ready request => request.encode
  | .unknown byte => [byte]
  | .pending | .overflow => []

namespace Session

variable {capacity : Nat}

/-- The bytes of the packet a session is in the middle of. -/
def pending (session : Session capacity) : List UInt8 :=
  match session.state with
  | .waitingForCommand => []
  | .waitingForParams opcode => opcode.code :: session.held

/-- Between packets nothing is held; within one, fewer parameters than the pending
opcode takes, and no more than fit. -/
def Sound (session : Session capacity) : Prop :=
  match session.state with
  | .waitingForCommand => session.held = []
  | .waitingForParams opcode =>
    session.held.length < opcode.parameterCount ∧ session.held.length ≤ capacity

/-- A fresh session is in the middle of nothing. -/
@[simp] theorem pending_fresh : (fresh : Session capacity).pending = [] := rfl

/-- A session that waits for parameters has the opcode behind it and what it holds. -/
@[simp] theorem pending_parameters (opcode : Opcode) (held : List UInt8) :
    (⟨.waitingForParams opcode, held⟩ : Session capacity).pending = opcode.code :: held := rfl

/-- A fresh session is sound. -/
theorem sound_fresh : (fresh : Session capacity).Sound := rfl

/-- What one byte can do to a session. -/
inductive Accepted (byte : UInt8) : Session capacity → Step → Session capacity → Prop where
  | stray (foreign : (Coded.ofByte? byte : Option Opcode) = none) :
      Accepted byte fresh (.unknown byte) fresh
  | opened (opcode : Opcode) (coded : opcode.code = byte) (wanting : 0 < opcode.parameterCount) :
      Accepted byte fresh .pending ⟨.waitingForParams opcode, []⟩
  | kept (opcode : Opcode) (held : List UInt8) (room : held.length < capacity)
      (wanting : held.length + 1 < opcode.parameterCount) :
      Accepted byte ⟨.waitingForParams opcode, held⟩ .pending
        ⟨.waitingForParams opcode, held ++ [byte]⟩
  /-- The byte is the last of a request. -/
  | completed (session : Session capacity) (request : Request)
      (whole : request.encode = session.pending ++ [byte]) :
      Accepted byte session (.ready request) fresh
  | overflowed (opcode : Opcode) (held : List UInt8) (full : held.length = capacity)
      (wanting : held.length < opcode.parameterCount) :
      Accepted byte ⟨.waitingForParams opcode, held⟩ .overflow fresh

/-- An opcode is looked up between packets. One that takes no parameters is a whole
request by itself. -/
theorem accept_fresh (byte : UInt8) :
    ∃ step after, (fresh : Session capacity).accept byte = (.ok step, after) ∧
      Accepted byte fresh step after := by
  cases found : (Coded.ofByte? byte : Option Opcode) with
  | none => exact ⟨.unknown byte, fresh, by simp [accept, fresh, found], .stray found⟩
  | some opcode =>
    have coded : opcode.code = byte := Coded.ofByte?_eq_some_iff.mp found
    by_cases bare : opcode.parameterCount = 0
    · obtain ⟨request, built⟩ := Request.ofParameters_of_count opcode [] bare.symm
      obtain ⟨rfl, none⟩ := Request.ofParameters_eq_ok_iff.mp built
      have whole : request.encode = (fresh : Session capacity).pending ++ [byte] := by
        simp [Request.encode, coded, none]
      exact ⟨.ready request, fresh, by simp [accept, fresh, found, bare, built, Except.map],
        .completed fresh request whole⟩
    · exact ⟨.pending, ⟨.waitingForParams opcode, []⟩, by simp [accept, fresh, found, bare],
        .opened opcode coded (Nat.pos_of_ne_zero bare)⟩

/-- Within a packet every byte is a parameter. The invariant makes the buffer hold
exactly as many as the opcode takes when it no longer holds fewer, so the request can
be built. -/
theorem accept_parameter (opcode : Opcode) (held : List UInt8) (byte : UInt8)
    (wanting : held.length < opcode.parameterCount) (fits : held.length ≤ capacity) :
    ∃ step after,
      (⟨.waitingForParams opcode, held⟩ : Session capacity).accept byte = (.ok step, after) ∧
        Accepted byte ⟨.waitingForParams opcode, held⟩ step after := by
  by_cases room : held.length < capacity
  · by_cases more : held.length + 1 < opcode.parameterCount
    · exact ⟨.pending, ⟨.waitingForParams opcode, held ++ [byte]⟩, by simp [accept, room, more],
        .kept opcode held room more⟩
    · have counted : (held ++ [byte]).length = opcode.parameterCount := by
        rw [List.length_append, List.length_singleton]
        omega
      obtain ⟨request, built⟩ := Request.ofParameters_of_count opcode (held ++ [byte]) counted
      obtain ⟨rfl, parameters⟩ := Request.ofParameters_eq_ok_iff.mp built
      exact ⟨.ready request, fresh, by simp [accept, room, more, built],
        .completed _ request (by simp [Request.encode, parameters])⟩
  · exact ⟨.overflow, fresh, by simp [accept, room],
      .overflowed opcode held (by omega) wanting⟩

/-- Accepting a byte never breaks the contract of building a request, and moves the
session as listed. -/
theorem accept_accepted (session : Session capacity) (sound : session.Sound) (byte : UInt8) :
    ∃ step after, session.accept byte = (.ok step, after) ∧ Accepted byte session step after := by
  obtain ⟨state, held⟩ := session
  cases state with
  | waitingForCommand =>
    obtain rfl : held = [] := sound
    exact accept_fresh byte
  | waitingForParams opcode => exact accept_parameter opcode held byte sound.1 sound.2

namespace Accepted

variable {byte : UInt8} {session after : Session capacity} {step : Step}

/-- Every move leaves a sound session. -/
theorem sound (moved : Accepted byte session step after) : after.Sound := by
  cases moved with
  | stray | completed | overflowed => exact sound_fresh
  | opened opcode coded wanting => exact ⟨wanting, Nat.zero_le capacity⟩
  | kept opcode held room wanting =>
    have length : (held ++ [byte]).length = held.length + 1 := by simp
    exact ⟨length ▸ wanting, length ▸ room⟩

/-- No command overflows a session with at least two places. -/
theorem not_overflow (moved : Accepted byte session step after) (roomy : 2 ≤ capacity) :
    step ≠ .overflow := by
  rintro rfl
  cases moved with
  | overflowed opcode held full wanting =>
    have few : opcode.parameterCount ≤ 2 := opcode.parameterCount_le
    omega

/-- Short of overflow, no byte is lost, made up or moved. -/
theorem conserves (moved : Accepted byte session step after) (fits : step ≠ .overflow) :
    session.pending ++ [byte] = step.bytes ++ after.pending := by
  cases moved with
  | stray => rfl
  | opened opcode coded => simp [Step.bytes, coded]
  | kept => simp [Step.bytes]
  | completed _ request whole => simp [Step.bytes, whole]
  | overflowed => exact absurd rfl fits

/-- Once a step accounts for bytes, none are left over. -/
theorem after_eq_fresh (moved : Accepted byte session step after) (done : step ≠ .pending) :
    after = fresh := by
  cases moved with
  | stray | completed | overflowed => rfl
  | opened | kept => exact absurd rfl done

end Accepted

/-! ## Streams -/

/-- Feed bytes in order: the steps they led to, and the session they leave. -/
def feed (session : Session capacity) :
    List UInt8 → List (Except Violation Step) × Session capacity
  | [] => ([], session)
  | byte :: rest =>
    let (step, after) := session.accept byte
    let (steps, last) := after.feed rest
    (step :: steps, last)

/-- A stream in two parts feeds the second part to what the first leaves. -/
theorem feed_append (session : Session capacity) (first second : List UInt8) :
    session.feed (first ++ second) =
      let (steps, between) := session.feed first
      let (others, last) := between.feed second
      (steps ++ others, last) := by
  induction first generalizing session with
  | nil => rfl
  | cons byte rest inductionHypothesis =>
    simp only [List.cons_append, feed, inductionHypothesis]

/-- Whether a byte led to more than waiting for the next one. -/
def settles : Except Violation Step → Bool
  | .ok .pending => false
  | _ => true

/-- The bytes accounted for by what a byte led to; a violation accounts for none. -/
def accounted : Except Violation Step → List UInt8
  | .ok step => step.bytes
  | .error _ => []

/-- A stream leaves a sound session. -/
theorem sound_feed (session : Session capacity) (sound : session.Sound) (bytes : List UInt8) :
    (session.feed bytes).2.Sound := by
  induction bytes generalizing session with
  | nil => exact sound
  | cons byte rest inductionHypothesis =>
    obtain ⟨step, after, accepted, moved⟩ := session.accept_accepted sound byte
    simpa [feed, accepted] using inductionHypothesis after moved.sound

/-- A session with two places accounts for every byte of a stream, in order. The
induction carries the bytes held before the stream, which come first. -/
theorem feed_conserves (roomy : 2 ≤ capacity) (session : Session capacity)
    (sound : session.Sound) (bytes : List UInt8) :
    (session.feed bytes).1.flatMap accounted ++ (session.feed bytes).2.pending =
      session.pending ++ bytes := by
  induction bytes generalizing session with
  | nil => simp [feed]
  | cons byte rest inductionHypothesis =>
    obtain ⟨step, after, accepted, moved⟩ := session.accept_accepted sound byte
    have conserved : session.pending ++ [byte] = step.bytes ++ after.pending :=
      moved.conserves (moved.not_overflow roomy)
    have later := inductionHypothesis after moved.sound
    calc (session.feed (byte :: rest)).1.flatMap accounted ++
          (session.feed (byte :: rest)).2.pending
        = step.bytes ++ ((after.feed rest).1.flatMap accounted ++
            (after.feed rest).2.pending) := by simp [feed, accepted, accounted]
      _ = (step.bytes ++ after.pending) ++ rest := by rw [later, List.append_assoc]
      _ = session.pending ++ byte :: rest := by simp [← conserved]

/-- Parameters short of what the opcode takes are only held. -/
theorem feed_wanting (opcode : Opcode) (held bytes : List UInt8)
    (wanting : held.length + bytes.length < opcode.parameterCount)
    (fits : held.length + bytes.length ≤ capacity) :
    (⟨.waitingForParams opcode, held⟩ : Session capacity).feed bytes =
      (List.replicate bytes.length (.ok .pending), ⟨.waitingForParams opcode, held ++ bytes⟩) := by
  induction bytes generalizing held with
  | nil => simp [feed]
  | cons byte rest inductionHypothesis =>
    rw [List.length_cons] at wanting fits
    have length : (held ++ [byte]).length = held.length + 1 := by simp
    have room : held.length < capacity := by omega
    have more : held.length + 1 < opcode.parameterCount := by omega
    have accepted : (⟨.waitingForParams opcode, held⟩ : Session capacity).accept byte =
        (.ok .pending, ⟨.waitingForParams opcode, held ++ [byte]⟩) := by
      simp [accept, room, more]
    rw [feed, accepted]
    simp [inductionHypothesis (held ++ [byte]) (by omega) (by omega), List.replicate_succ]

/-- The missing parameters of a request make all steps but the last pending, and the
last one ready. -/
theorem feed_parameters (request : Request) (held missing : List UInt8)
    (fits : request.parameters.length ≤ capacity) (nonempty : missing ≠ [])
    (split : request.parameters = held ++ missing) :
    ∃ waits, (∀ wait ∈ waits, wait = .ok .pending) ∧
      (⟨.waitingForParams request.opcode, held⟩ : Session capacity).feed missing =
        (waits ++ [.ok (.ready request)], fresh) := by
  obtain ⟨earlier, last, rfl⟩ : ∃ earlier last, missing = earlier ++ [last] :=
    ⟨_, _, (List.dropLast_concat_getLast nonempty).symm⟩
  have counted : request.parameters.length = request.opcode.parameterCount :=
    request.length_parameters
  have length : request.parameters.length = held.length + earlier.length + 1 := by
    rw [split]
    simp [Nat.add_assoc]
  have waited : (⟨.waitingForParams request.opcode, held⟩ : Session capacity).feed earlier =
      (List.replicate earlier.length (.ok .pending),
        ⟨.waitingForParams request.opcode, held ++ earlier⟩) :=
    feed_wanting request.opcode held earlier (by omega) (by omega)
  have room : held.length + earlier.length < capacity := by omega
  have enough : ¬ held.length + (earlier.length + 1) < request.opcode.parameterCount := by omega
  have built : Request.ofParameters request.opcode (held ++ (earlier ++ [last])) = .ok request := by
    rw [← split]
    exact Request.ofParameters_parameters request
  refine ⟨List.replicate earlier.length (.ok .pending),
    fun wait member => List.eq_of_mem_replicate member, ?_⟩
  rw [feed_append, waited]
  simp [feed, accept, room, enough, built]

/-- A request that fits makes all steps but the last pending, and leaves the session as it
was. -/
theorem feed_request (capacity : Nat) (request : Request)
    (fits : request.parameters.length ≤ capacity) :
    ∃ waits, (∀ wait ∈ waits, wait = .ok .pending) ∧
      (fresh : Session capacity).feed request.encode =
        (waits ++ [.ok (.ready request)], fresh) := by
  have found : (Coded.ofByte? request.opcode.code : Option Opcode) = some request.opcode :=
    Coded.ofByte?_code request.opcode
  have length := request.length_parameters
  cases parameters : request.parameters with
  | nil =>
    have bare : request.opcode.parameterCount = 0 := by
      rw [← length, parameters, List.length_nil]
    have built : Request.ofParameters request.opcode [] = .ok request := by
      rw [← parameters]
      exact Request.ofParameters_parameters request
    refine ⟨[], by simp, ?_⟩
    simp [Request.encode, parameters, feed, accept, fresh, found, bare, built, Except.map]
  | cons byte rest =>
    have wanting : request.opcode.parameterCount ≠ 0 := by
      rw [← length, parameters]
      simp
    obtain ⟨waits, pending, fed⟩ :=
      feed_parameters request [] request.parameters fits (by simp [parameters]) rfl
    refine ⟨.ok .pending :: waits, by simpa using pending, ?_⟩
    simp [Request.encode, feed, accept, fresh, found, wanting, fed]

/-- A whole packet makes all steps but the last pending, and leaves the session as it
was. -/
theorem feed_packet (roomy : 2 ≤ capacity) (packet : Packet) :
    ∃ waits, (∀ wait ∈ waits, wait = .ok .pending) ∧
      (fresh : Session capacity).feed packet.encode = (waits ++ [.ok packet.step], fresh) := by
  cases packet with
  | stray byte foreign =>
    exact ⟨[], by simp, by simp [Packet.encode, Packet.step, feed, accept, fresh, foreign]⟩
  | command request =>
    have fits : request.parameters.length ≤ capacity := by
      have length := request.length_parameters
      have few : request.opcode.parameterCount ≤ 2 := request.opcode.parameterCount_le
      omega
    exact feed_request capacity request fits

/-- Packets are read back in order. -/
theorem feed_packets (roomy : 2 ≤ capacity) (packets : List Packet) :
    ((fresh : Session capacity).feed (packets.flatMap Packet.encode)).1.filter
        settles = packets.map (fun packet => .ok packet.step) ∧
      ((fresh : Session capacity).feed (packets.flatMap Packet.encode)).2 = fresh := by
  induction packets with
  | nil => exact ⟨rfl, rfl⟩
  | cons packet rest inductionHypothesis =>
    obtain ⟨waits, pending, fed⟩ := feed_packet roomy packet
    have quiet : waits.filter settles = [] := by
      rw [List.filter_eq_nil_iff]
      intro wait member
      simp [pending wait member, settles]
    have shown : settles (.ok packet.step) = true := by
      cases packet <;> rfl
    rw [List.flatMap_cons, feed_append, fed]
    refine ⟨?_, inductionHypothesis.2⟩
    simp only [List.filter_append, quiet, List.map_cons, List.nil_append, ← inductionHypothesis.1]
    simp [shown]

/-- A session that can hold two parameters frames losslessly in both directions. What
packets encode to is read as those packets, and leaves a session waiting for an
opcode. Any stream at all is the packets reported, followed by what is pending.

Proof: an induction over the packets, each of which leaves the session fresh, and one over the
bytes, where a step accounts for the bytes that it settles. -/
theorem framing_round_trip (roomy : 2 ≤ capacity) :
    (∀ packets : List Packet,
      ((fresh : Session capacity).feed (packets.flatMap Packet.encode)).1.filter
          settles = packets.map (fun packet => .ok packet.step) ∧
        ((fresh : Session capacity).feed (packets.flatMap Packet.encode)).2 =
          ⟨.waitingForCommand, []⟩) ∧
    ∀ bytes : List UInt8,
      ((fresh : Session capacity).feed bytes).1.flatMap accounted ++
        ((fresh : Session capacity).feed bytes).2.pending = bytes :=
  ⟨feed_packets roomy, fun bytes => feed_conserves roomy fresh sound_fresh bytes⟩

/-- Two places suffice: a parameter that looks like an opcode, a stray byte and a
request without parameters are read back, and so is a request that is cut short. -/
theorem framing_round_trip_two_places :
    2 ≤ 2 ∧
      ((fresh : Session 2).feed [0x01, 0x03, 0x04, 0xFF, 0x03]).1.filter settles =
        [.ok (.ready (.regWrite 0x03 0x04)), .ok (.unknown 0xFF), .ok (.ready .rfFieldOn)] ∧
      ((fresh : Session 2).feed [0x05, 0x01, 0x03]).1.flatMap accounted ++
        ((fresh : Session 2).feed [0x05, 0x01, 0x03]).2.pending = [0x05, 0x01, 0x03] := by
  have enough : 2 ≤ 2 := Nat.le_refl 2
  have packets := (framing_round_trip enough).1
    [.command (.regWrite 0x03 0x04), .stray 0xFF (by decide), .command .rfFieldOn]
  exact ⟨enough, packets.1, (framing_round_trip enough).2 [0x05, 0x01, 0x03]⟩

end Session

end NfcFrontend.Host
