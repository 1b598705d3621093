import StationRelay.Frame

/-!
# Streams of frames

A frame is read exactly where it was written, so a stream of frames has one
reading.  `encodeAll` writes payloads one behind the other, and `readAll` reads
frames until the reader has something else to say.  `readAll_exact` says that
what was written is what is read, up to the first payload that is too long for
the reader, and that the rest of the bytes is left as it is.
-/

namespace StationRelay

namespace Frame

/-! ## One frame -/

theorem declared_le (low high : UInt8) : Bytes.ofLittleEndian [low, high] ≤ maxPayload := by
  have lowSmall := low.toNat_lt
  have highSmall := high.toNat_lt
  simp only [Bytes.ofLittleEndian, maxPayload]
  omega

section Header

variable {limit : Nat} {low high : UInt8} {rest : Bytes}

theorem decode_of_tooLong (tooLong : limit < Bytes.ofLittleEndian [low, high]) :
    decode limit (low :: high :: rest) =
      .error (.oversize (Bytes.ofLittleEndian [low, high]) limit) := by
  simp only [decode]
  rw [if_pos tooLong]

theorem decode_of_short (allowed : Bytes.ofLittleEndian [low, high] ≤ limit)
    (short : rest.length < Bytes.ofLittleEndian [low, high]) :
    decode limit (low :: high :: rest) =
      .error (.incomplete (headerSize + Bytes.ofLittleEndian [low, high])
        (low :: high :: rest).length) := by
  simp only [decode]
  rw [if_neg (Nat.not_lt_of_le allowed), if_pos short]

theorem decode_of_fits (allowed : Bytes.ofLittleEndian [low, high] ≤ limit)
    (fits : Bytes.ofLittleEndian [low, high] ≤ rest.length) :
    decode limit (low :: high :: rest) =
      .ok (rest.take (Bytes.ofLittleEndian [low, high]),
        headerSize + Bytes.ofLittleEndian [low, high]) := by
  simp only [decode]
  rw [if_neg (Nat.not_lt_of_le allowed), if_neg (Nat.not_lt_of_le fits)]

end Header

/-- Bytes that end before a frame does, with the size that is known so far. -/
inductive Awaits (limit : Nat) : Bytes → Nat → Prop where
  | header {bytes : Bytes} (short : bytes.length < headerSize) : Awaits limit bytes headerSize
  | payload {low high : UInt8} {rest : Bytes}
      (allowed : Bytes.ofLittleEndian [low, high] ≤ limit)
      (short : rest.length < Bytes.ofLittleEndian [low, high]) :
      Awaits limit (low :: high :: rest) (headerSize + Bytes.ofLittleEndian [low, high])

/-- Everything that reading can lead to. -/
inductive Finds (limit : Nat) : Bytes → Except WireError (Bytes × Nat) → Prop where
  | short {bytes : Bytes} {needed : Nat} (awaits : Awaits limit bytes needed) :
      Finds limit bytes (.error (.incomplete needed bytes.length))
  | oversize {low high : UInt8} {rest : Bytes}
      (tooLong : limit < Bytes.ofLittleEndian [low, high]) :
      Finds limit (low :: high :: rest)
        (.error (.oversize (Bytes.ofLittleEndian [low, high]) limit))
  | frame {low high : UInt8} {rest : Bytes}
      (allowed : Bytes.ofLittleEndian [low, high] ≤ limit)
      (fits : Bytes.ofLittleEndian [low, high] ≤ rest.length) :
      Finds limit (low :: high :: rest)
        (.ok (rest.take (Bytes.ofLittleEndian [low, high]),
          headerSize + Bytes.ofLittleEndian [low, high]))

theorem finds_decode (limit : Nat) (bytes : Bytes) : Finds limit bytes (decode limit bytes) := by
  match bytes with
  | [] => exact .short (.header (by decide))
  | [_] => exact .short (.header (Nat.lt_succ_self 1))
  | low :: high :: rest =>
      rcases Nat.lt_or_ge limit (Bytes.ofLittleEndian [low, high]) with tooLong | allowed
      · rw [decode_of_tooLong tooLong]
        exact .oversize tooLong
      · rcases Nat.lt_or_ge rest.length (Bytes.ofLittleEndian [low, high]) with short | fits
        · rw [decode_of_short allowed short]
          exact .short (.payload allowed short)
        · rw [decode_of_fits allowed fits]
          exact .frame allowed fits

theorem Awaits.lt {limit needed : Nat} {bytes : Bytes} (awaits : Awaits limit bytes needed) :
    bytes.length < needed := by
  cases awaits with
  | header short => exact short
  | payload allowed short =>
      simp only [List.length_cons, headerSize]
      omega

theorem Awaits.append {limit needed : Nat} {bytes more : Bytes}
    (awaits : Awaits limit bytes needed) (short : (bytes ++ more).length < needed) :
    Awaits limit (bytes ++ more) needed := by
  cases awaits with
  | header => exact .header short
  | @payload low high rest allowed =>
      refine .payload allowed (show (rest ++ more).length < _ from ?_)
      simp only [List.length_append, List.length_cons, headerSize] at short ⊢
      omega

theorem decode_of_awaits {limit needed : Nat} {bytes : Bytes} (awaits : Awaits limit bytes needed) :
    decode limit bytes = .error (.incomplete needed bytes.length) := by
  cases awaits with
  | header short =>
      match bytes with
      | [] | [_] => rfl
      | _ :: _ :: rest => exact absurd short (by simp [headerSize])
  | payload allowed short => exact decode_of_short allowed short

theorem decode_eq_incomplete_iff {limit needed available : Nat} {bytes : Bytes} :
    decode limit bytes = .error (.incomplete needed available) ↔
      Awaits limit bytes needed ∧ available = bytes.length := by
  constructor
  · intro incomplete
    have found := finds_decode limit bytes
    rw [incomplete] at found
    cases found with
    | short awaits => exact ⟨awaits, rfl⟩
  · rintro ⟨awaits, rfl⟩
    exact decode_of_awaits awaits

/-- A frame that can be read, or whose length is too large, is the same with more bytes behind
it. -/
theorem decode_append {limit : Nat} {bytes : Bytes} (more : Bytes)
    (settled : ∀ needed available, decode limit bytes ≠ .error (.incomplete needed available)) :
    decode limit (bytes ++ more) = decode limit bytes := by
  have found := finds_decode limit bytes
  generalize result : decode limit bytes = answer at found settled ⊢
  cases found with
  | short => exact absurd rfl (settled _ _)
  | oversize tooLong => exact decode_of_tooLong tooLong
  | @frame low high rest allowed fits =>
      have fitsAll : Bytes.ofLittleEndian [low, high] ≤ (rest ++ more).length := by
        rw [List.length_append]
        omega
      rw [List.cons_append, List.cons_append, decode_of_fits allowed fitsAll,
        List.take_append_of_le_length fits]

theorem encode_eq_ok_iff {payload frame : Bytes} :
    encode payload = .ok frame ↔
      payload.length ≤ maxPayload ∧
        frame = Bytes.littleEndian headerSize payload.length ++ payload := by
  unfold encode
  by_cases short : payload.length ≤ maxPayload
  · rw [if_pos short]
    simp [short, eq_comm]
  · rw [if_neg short]
    simp [short]

theorem exists_header {payload frame : Bytes} (written : encode payload = .ok frame) :
    ∃ low high, frame = low :: high :: payload ∧
      Bytes.ofLittleEndian [low, high] = payload.length := by
  obtain ⟨short, rfl⟩ := encode_eq_ok_iff.mp written
  have bound : payload.length < Nat.pow 256 headerSize := Nat.lt_succ_of_le short
  exact ⟨_, _, rfl, Bytes.ofLittleEndian_littleEndian bound⟩

/-- A frame is read where it was written. -/
theorem decode_frame {limit : Nat} {payload frame : Bytes} (rest : Bytes)
    (written : encode payload = .ok frame) (allowed : payload.length ≤ limit) :
    decode limit (frame ++ rest) = .ok (payload, frame.length) := by
  obtain ⟨low, high, rfl, declared⟩ := exists_header written
  have fits : payload.length ≤ (payload ++ rest).length := by simp
  rw [List.cons_append, List.cons_append, decode_of_fits (declared ▸ allowed) (declared ▸ fits),
    declared, List.take_left, Nat.add_comm]
  rfl

theorem decode_oversize {limit : Nat} {payload frame : Bytes} (rest : Bytes)
    (written : encode payload = .ok frame) (tooLong : limit < payload.length) :
    decode limit (frame ++ rest) = .error (.oversize payload.length limit) := by
  obtain ⟨low, high, rfl, declared⟩ := exists_header written
  rw [List.cons_append, List.cons_append, decode_of_tooLong (declared ▸ tooLong), declared]

/-- What was read is what would be written. -/
theorem encode_of_decode {limit : Nat} {bytes payload : Bytes} {consumed : Nat}
    (decoded : decode limit bytes = .ok (payload, consumed)) :
    encode payload = .ok (bytes.take consumed) ∧ consumed ≤ bytes.length ∧
      payload.length ≤ limit := by
  have found := finds_decode limit bytes
  rw [decoded] at found
  cases found with
  | @frame low high rest allowed fits =>
      have bound := declared_le low high
      have header := Bytes.littleEndian_ofLittleEndian [low, high]
      generalize Bytes.ofLittleEndian [low, high] = declared at *
      have size : (rest.take declared).length = declared := List.length_take_of_le fits
      refine ⟨encode_eq_ok_iff.mpr ⟨?_, ?_⟩, ?_, ?_⟩
      · rw [size]
        exact bound
      · rw [size, Nat.add_comm]
        exact congrArg (· ++ rest.take declared) header.symm
      · simp only [headerSize, List.length_cons]
        omega
      · rw [size]
        exact allowed

/-! ## Many frames -/

/-- Writes payloads one behind the other. -/
def encodeAll : List Bytes → Except WireError Bytes
  | [] => .ok []
  | payload :: payloads => do
    let frame ← encode payload
    let frames ← encodeAll payloads
    return frame ++ frames

/-- What reading a stream leads to. -/
structure Unframed where
  payloads : List Bytes
  /-- What the reader has to say instead of another payload. -/
  stop : WireError
  /-- The bytes it says it of. -/
  rest : Bytes
  deriving DecidableEq

def Unframed.behind (later : Unframed) (payloads : List Bytes) : Unframed :=
  { later with payloads := payloads ++ later.payloads }

theorem length_drop_lt {limit : Nat} {bytes payload : Bytes} {consumed : Nat}
    (read : decode limit bytes = .ok (payload, consumed)) :
    (bytes.drop consumed).length < bytes.length := by
  have size := consumed_of_decode read
  simp only [List.length_drop, headerSize] at size ⊢
  omega

/-- Reads frames, each behind the one before it, until there is none. -/
def readAll (limit : Nat) (bytes : Bytes) : Unframed :=
  match decoded : decode limit bytes with
  | .ok (payload, consumed) =>
    have _shorter := length_drop_lt decoded
    (readAll limit (bytes.drop consumed)).behind [payload]
  | .error error => ⟨[], error, bytes⟩
termination_by bytes.length
decreasing_by exact _shorter

theorem readAll_of_error {limit : Nat} {bytes : Bytes} {error : WireError}
    (stopped : decode limit bytes = .error error) : readAll limit bytes = ⟨[], error, bytes⟩ := by
  rw [readAll]
  split
  · rename_i decoded
    rw [stopped] at decoded
    cases decoded
  · rename_i decoded
    rw [stopped] at decoded
    cases decoded
    rfl

theorem readAll_of_ok {limit : Nat} {bytes payload : Bytes} {consumed : Nat}
    (read : decode limit bytes = .ok (payload, consumed)) :
    readAll limit bytes = (readAll limit (bytes.drop consumed)).behind [payload] := by
  rw [readAll]
  split
  · rename_i decoded
    rw [read] at decoded
    cases decoded
    rfl
  · rename_i decoded
    rw [read] at decoded
    cases decoded

theorem encodeAll_cons_eq_ok_iff {payload stream : Bytes} {payloads : List Bytes} :
    encodeAll (payload :: payloads) = .ok stream ↔
      ∃ frame frames, encode payload = .ok frame ∧ encodeAll payloads = .ok frames ∧
        stream = frame ++ frames := by
  constructor
  · intro written
    cases first : encode payload with
    | error error =>
        rw [encodeAll, first] at written
        cases written
    | ok frame =>
        cases others : encodeAll payloads with
        | error error =>
            rw [encodeAll, first, others] at written
            cases written
        | ok frames =>
            rw [encodeAll, first, others] at written
            cases written
            exact ⟨frame, frames, rfl, rfl, rfl⟩
  · rintro ⟨frame, frames, first, others, rfl⟩
    rw [encodeAll, first, others]
    rfl

/-- Payloads can be written exactly if the length of each fits two bytes. -/
theorem exists_encodeAll_iff {payloads : List Bytes} :
    (∃ stream, encodeAll payloads = .ok stream) ↔
      ∀ payload ∈ payloads, payload.length ≤ maxPayload := by
  induction payloads with
  | nil => exact ⟨fun _ _ member => absurd member List.not_mem_nil, fun _ => ⟨[], rfl⟩⟩
  | cons payload payloads ih =>
      rw [List.forall_mem_cons, ← ih]
      constructor
      · rintro ⟨stream, written⟩
        obtain ⟨frame, frames, first, others, -⟩ := encodeAll_cons_eq_ok_iff.mp written
        exact ⟨(encode_eq_ok_iff.mp first).1, frames, others⟩
      · rintro ⟨short, frames, others⟩
        have first := encode_eq_ok_iff.mpr ⟨short, rfl⟩
        exact ⟨_, encodeAll_cons_eq_ok_iff.mpr ⟨_, _, first, others, rfl⟩⟩

theorem encodeAll_append {first second : List Bytes} {left right : Bytes}
    (before : encodeAll first = .ok left) (after : encodeAll second = .ok right) :
    encodeAll (first ++ second) = .ok (left ++ right) := by
  induction first generalizing left with
  | nil =>
      cases before
      exact after
  | cons payload payloads ih =>
      obtain ⟨frame, frames, written, others, rfl⟩ := encodeAll_cons_eq_ok_iff.mp before
      rw [List.append_assoc]
      exact encodeAll_cons_eq_ok_iff.mpr ⟨frame, _, written, ih others, rfl⟩

/-- Payloads that the reader takes are read as they were written. -/
theorem readAll_encodeAll {limit : Nat} {payloads : List Bytes} {stream : Bytes}
    (written : encodeAll payloads = .ok stream)
    (allowed : ∀ payload ∈ payloads, payload.length ≤ limit) (rest : Bytes) :
    readAll limit (stream ++ rest) = (readAll limit rest).behind payloads := by
  induction payloads generalizing stream with
  | nil =>
      cases written
      rfl
  | cons payload payloads ih =>
      obtain ⟨frame, frames, first, others, rfl⟩ := encodeAll_cons_eq_ok_iff.mp written
      obtain ⟨allowedFirst, allowedOthers⟩ := List.forall_mem_cons.mp allowed
      rw [List.append_assoc, readAll_of_ok (decode_frame _ first allowedFirst), List.drop_left,
        ih others allowedOthers]
      rfl

/-- A stream without a rest has one reading. -/
theorem encodeAll_injective {first second : List Bytes} {stream : Bytes}
    (left : encodeAll first = .ok stream) (right : encodeAll second = .ok stream) :
    first = second := by
  have once := readAll_encodeAll left (exists_encodeAll_iff.mp ⟨stream, left⟩) []
  have again := readAll_encodeAll right (exists_encodeAll_iff.mp ⟨stream, right⟩) []
  have nothing : (readAll maxPayload []).payloads = [] := by rw [readAll_of_error rfl]
  have same := congrArg Unframed.payloads (once.symm.trans again)
  simpa only [Unframed.behind, nothing, List.append_nil] using same

/-- A payload can be written exactly if its length fits two bytes.  What was written one behind
the other is read in that order, up to the first payload that is too long for the reader, and
nothing is taken off the bytes that follow. -/
theorem readAll_exact (limit : Nat) :
    (∀ payload, (∃ frame, encode payload = .ok frame) ↔ payload.length ≤ 65535) ∧
    (∀ payloads trailing needed available,
      (∀ payload ∈ payloads, payload.length ≤ min limit 65535) →
      decode limit trailing = .error (.incomplete needed available) →
      ∃ stream, encodeAll payloads = .ok stream ∧
        readAll limit (stream ++ trailing) =
          ⟨payloads, .incomplete needed available, trailing⟩) ∧
    (∀ bytes payload consumed, decode limit bytes = .ok (payload, consumed) →
      encode payload = .ok (bytes.take consumed) ∧ consumed ≤ bytes.length ∧
        payload.length ≤ limit) ∧
    (∀ before big after trailing,
      (∀ payload ∈ before, payload.length ≤ limit) → limit < big.length →
      (∀ payload ∈ before ++ big :: after, payload.length ≤ 65535) →
      ∃ earlier later, encodeAll before = .ok earlier ∧ encodeAll (big :: after) = .ok later ∧
        encodeAll (before ++ big :: after) = .ok (earlier ++ later) ∧
        readAll limit (earlier ++ later ++ trailing) =
          ⟨before, .oversize big.length limit, later ++ trailing⟩) ∧
    (∀ first second stream, encodeAll first = .ok stream → encodeAll second = .ok stream →
      first = second) := by
  refine ⟨fun payload => ?_, fun payloads trailing needed available allowed stopped => ?_,
    fun bytes payload consumed decoded => encode_of_decode decoded,
    fun before big after trailing allowed tooLong short => ?_,
    fun first second stream left right => encodeAll_injective left right⟩
  · constructor
    · rintro ⟨frame, written⟩
      exact (encode_eq_ok_iff.mp written).1
    · exact fun short => ⟨_, encode_eq_ok_iff.mpr ⟨short, rfl⟩⟩
  · have short : ∀ payload ∈ payloads, payload.length ≤ maxPayload := fun payload member =>
      Nat.le_trans (allowed payload member) (Nat.min_le_right limit 65535)
    obtain ⟨stream, written⟩ := exists_encodeAll_iff.mpr short
    have taken : ∀ payload ∈ payloads, payload.length ≤ limit := fun payload member =>
      Nat.le_trans (allowed payload member) (Nat.min_le_left limit 65535)
    refine ⟨stream, written, ?_⟩
    rw [readAll_encodeAll written taken, readAll_of_error stopped]
    simp only [Unframed.behind, List.append_nil]
  · obtain ⟨shortBefore, shortAfter⟩ := List.forall_mem_append.mp short
    obtain ⟨earlier, writtenBefore⟩ := exists_encodeAll_iff.mpr shortBefore
    obtain ⟨later, writtenAfter⟩ := exists_encodeAll_iff.mpr shortAfter
    obtain ⟨frame, frames, first, -, rfl⟩ := encodeAll_cons_eq_ok_iff.mp writtenAfter
    refine ⟨earlier, _, writtenBefore, writtenAfter,
      encodeAll_append writtenBefore writtenAfter, ?_⟩
    have stopped := decode_oversize (frames ++ trailing) first tooLong
    rw [← List.append_assoc] at stopped
    rw [List.append_assoc, readAll_encodeAll writtenBefore allowed, readAll_of_error stopped]
    simp only [Unframed.behind, List.append_nil]

/-- An empty payload and one of the greatest length that is allowed, before a part of a frame; and
one of that length before one that is a byte longer. -/
theorem readAll_exact_limit_four :
    let empty : Bytes := []
    let longest : Bytes := [1, 2, 3, 4]
    let tooLong : Bytes := [1, 2, 3, 4, 5]
    let part : Bytes := [3, 0, 9]
    decode 4 part = .error (.incomplete 5 3) ∧
      (∃ stream, encodeAll [empty, longest] = .ok stream ∧
        readAll 4 (stream ++ part) = ⟨[empty, longest], .incomplete 5 3, part⟩) ∧
      decode 4 [0, 0, 7] = .ok (empty, 2) ∧ encode empty = .ok [0, 0] ∧
      (∃ earlier later, encodeAll [longest] = .ok earlier ∧
        encodeAll [tooLong, empty] = .ok later ∧
        readAll 4 (earlier ++ later ++ part) = ⟨[longest], .oversize 5 4, later ++ part⟩) := by
  intro empty longest tooLong part
  obtain ⟨-, written, read, refused, -⟩ := readAll_exact 4
  obtain ⟨earlier, later, before, after, -, stopped⟩ :=
    refused [longest] tooLong [empty] part (by decide) (by decide) (by decide)
  exact ⟨rfl, written [empty, longest] part 5 3 (by decide) rfl, rfl,
    (read [0, 0, 7] empty 2 rfl).1, earlier, later, before, after, stopped⟩

end Frame

end StationRelay
