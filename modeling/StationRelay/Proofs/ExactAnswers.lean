import StationRelay.Guarded
import StationRelay.Proofs.FrameStream
import StationRelay.Proofs.PrefixStability

/-!
# When bytes are missing, and when they are wrong

A reader asks for more bytes exactly where the item at the front is not all
there, and says how many it takes; every other answer stands whatever follows. A
packet is malformed only for a flag or a reason that has no meaning.
`decode_error_iff_and_guarded_eq` says so of the three readers, and that with a
check at every access they would answer the same: no field is ever cut off and
no byte is looked for outside the bytes.
-/

namespace StationRelay

/-! ## Readers that can be asked again -/

/-- The reader asks for more bytes exactly where some are awaited, asks for the same until they
are there, and does not go back on any other answer. -/
structure Exact {α : Type} (read : Bytes → Except WireError α) (Awaits : Bytes → Nat → Prop) :
    Prop where
  incomplete_iff : ∀ {bytes needed available},
    read bytes = .error (.incomplete needed available) ↔
      Awaits bytes needed ∧ available = bytes.length
  awaited : ∀ {bytes needed available}, read bytes = .error (.incomplete needed available) →
    available < needed ∧ ∀ more, (bytes ++ more).length < needed →
      read (bytes ++ more) = .error (.incomplete needed (bytes ++ more).length)
  settled : ∀ {bytes},
    (∀ needed available, read bytes ≠ .error (.incomplete needed available)) →
      ∀ more, read (bytes ++ more) = read bytes

theorem Exact.of_awaits {α : Type} {read : Bytes → Except WireError α}
    {Awaits : Bytes → Nat → Prop}
    (incomplete_iff : ∀ {bytes needed available},
      read bytes = .error (.incomplete needed available) ↔
        Awaits bytes needed ∧ available = bytes.length)
    (lt : ∀ {bytes needed}, Awaits bytes needed → bytes.length < needed)
    (append : ∀ {bytes needed more}, Awaits bytes needed → (bytes ++ more).length < needed →
      Awaits (bytes ++ more) needed)
    (settled : ∀ {bytes} more,
      (∀ needed available, read bytes ≠ .error (.incomplete needed available)) →
        read (bytes ++ more) = read bytes) : Exact read Awaits where
  incomplete_iff := incomplete_iff
  awaited incomplete := by
    obtain ⟨awaits, rfl⟩ := incomplete_iff.mp incomplete
    exact ⟨lt awaits, fun more short => incomplete_iff.mpr ⟨append awaits short, rfl⟩⟩
  settled same more := settled more same

theorem Format.Lawful.exact {κ π : Type} {format : Format κ π} (lawful : format.Lawful) :
    Exact format.decode format.Awaits :=
  .of_awaits lawful.decode_eq_incomplete_iff Awaits.lt Awaits.append lawful.decode_append

theorem Frame.exact (limit : Nat) : Exact (decode limit) (Awaits limit) :=
  .of_awaits decode_eq_incomplete_iff Awaits.lt Awaits.append decode_append

theorem Uplink.exact : Exact decode format.Awaits :=
  funext decode_format ▸ lawful.exact

theorem Downlink.exact : Exact decode format.Awaits :=
  funext decode_format ▸ lawful.exact

/-! ## Bytes without a meaning -/

/-- The packet from a device is whole, and this field of it has no meaning. -/
inductive Uplink.Malformed (bytes : Bytes) : BadField → Prop where
  | flag {raw : UInt8} (kind : bytes.head? = some Kind.report.tag)
      (whole : Kind.report.size ≤ bytes.length) (found : bytes[29]? = some raw)
      (unknown : raw ≠ 1 ∧ raw ≠ 2) : Malformed bytes (.flag raw)

inductive Downlink.Malformed (bytes : Bytes) : BadField → Prop where
  | refusal {raw : UInt8} (kind : bytes.head? = some Kind.refusal.tag)
      (whole : Kind.refusal.size ≤ bytes.length) (found : bytes[1]? = some raw)
      (unknown : raw ≠ 1 ∧ raw ≠ 2 ∧ raw ≠ 4 ∧ raw ≠ 8) : Malformed bytes (.refusal raw)
  | flag {raw : UInt8} (kind : bytes.head? = some Kind.request.tag)
      (whole : Kind.request.size ≤ bytes.length) (found : bytes[17]? = some raw)
      (unknown : raw ≠ 1 ∧ raw ≠ 2) : Malformed bytes (.flag raw)

theorem Uplink.decode_eq_malformed_iff {bytes : Bytes} {field : BadField} :
    decode bytes = .error (.malformed field) ↔ Malformed bytes field := by
  rw [← decode_format, lawful.decode_eq_malformed_iff]
  constructor
  · rintro ⟨kind, fits, front, read⟩
    obtain ⟨rfl, raw, found, unknown, same⟩ := ofBytes_eq_error_iff.mp read
    cases same
    exact .flag front fits found unknown
  · rintro ⟨front, whole, found, unknown⟩
    exact ⟨.report, whole, front,
      ofBytes_eq_error_iff.mpr ⟨rfl, _, found, unknown, rfl⟩⟩

theorem Downlink.decode_eq_malformed_iff {bytes : Bytes} {field : BadField} :
    decode bytes = .error (.malformed field) ↔ Malformed bytes field := by
  rw [← decode_format, lawful.decode_eq_malformed_iff]
  constructor
  · rintro ⟨kind, fits, front, read⟩
    rcases ofBytes_eq_error_iff.mp read with
      ⟨rfl, raw, found, unknown, same⟩ | ⟨rfl, raw, found, unknown, same⟩
    · cases same
      exact .refusal front fits found unknown
    · cases same
      exact .flag front fits found unknown
  · intro malformed
    cases malformed with
    | refusal front whole found unknown =>
        exact ⟨.refusal, whole, front,
          ofBytes_eq_error_iff.mpr (Or.inl ⟨rfl, _, found, unknown, rfl⟩)⟩
    | flag front whole found unknown =>
        exact ⟨.request, whole, front,
          ofBytes_eq_error_iff.mpr (Or.inr ⟨rfl, _, found, unknown, rfl⟩)⟩

theorem Frame.decode_ne_malformed (limit : Nat) (bytes : Bytes) (field : BadField) :
    decode limit bytes ≠ .error (.malformed field) := by
  intro malformed
  have found := finds_decode limit bytes
  rw [malformed] at found
  cases found

/-! ## Reading with a check at every access -/

namespace Bytes

theorem slice_slice (bytes : Bytes) {start count offset width : Nat}
    (inside : offset + width ≤ count) :
    (bytes.slice start count).slice offset width = bytes.slice (start + offset) width := by
  unfold slice
  rw [List.drop_take, List.take_take, List.drop_drop, Nat.min_eq_left (by omega)]

theorem getElem?_slice (bytes : Bytes) {start count offset : Nat} (inside : offset < count) :
    (bytes.slice start count)[offset]? = bytes[start + offset]? := by
  unfold slice
  rw [List.getElem?_take_of_lt inside, List.getElem?_drop]

theorem word32_slice (bytes : Bytes) {start count offset : Nat} (inside : offset + 4 ≤ count) :
    (bytes.slice start count).word32 offset = bytes.word32 (start + offset) :=
  congrArg (fun field => UInt32.ofNat (ofLittleEndian field)) (bytes.slice_slice inside)

end Bytes

namespace Guarded

section Accesses

variable {bytes : Bytes} {start count offset : Nat}

theorem between_of_le {stop : Nat} (ordered : start ≤ stop) (inside : stop ≤ bytes.length) :
    between bytes start stop = .ok (bytes.slice start (stop - start)) :=
  if_pos ⟨ordered, inside⟩

theorem uuidAt_slice (inside : offset + 16 ≤ count) (whole : start + count ≤ bytes.length) :
    uuidAt (bytes.slice start count) offset =
      .ok (Uuid.ofSlice bytes (start + offset) (by omega)) := by
  have size := Bytes.length_slice whole
  rw [uuidAt, dif_pos (by omega)]
  exact congrArg _ (Uuid.ofSlice_eq _ (Bytes.slice_slice bytes inside))

theorem wordAt_slice (inside : offset + 4 ≤ count) (whole : start + count ≤ bytes.length) :
    wordAt (bytes.slice start count) offset = .ok (bytes.word32 (start + offset)) := by
  have size := Bytes.length_slice whole
  rw [wordAt, if_pos (by omega), Bytes.word32_slice bytes inside]

theorem byteAt_slice (inside : offset < count) (whole : start + count ≤ bytes.length) :
    byteAt (bytes.slice start count) offset = .ok bytes[start + offset] := by
  rw [byteAt, Bytes.getElem?_slice bytes inside, List.getElem?_eq_getElem (by omega)]

theorem flagAt_slice (inside : offset < count) (whole : start + count ≤ bytes.length) :
    flagAt (bytes.slice start count) offset = flagOf bytes[start + offset] := by
  rw [flagAt, Bytes.getElem?_slice bytes inside, List.getElem?_eq_getElem (by omega)]

theorem refusalAt_slice (inside : offset < count) (whole : start + count ≤ bytes.length) :
    refusalAt (bytes.slice start count) offset = refusalOf bytes[start + offset] :=
  congrArg (· >>= refusalOf) (byteAt_slice inside whole)

end Accesses

theorem uplinkOfBody_slice {kind : Uplink.Kind} {bytes : Bytes} (fits : kind.size ≤ bytes.length) :
    uplinkOfBody kind (bytes.slice 1 (kind.size - 1)) =
      (Uplink.ofBytes kind bytes fits).mapError .wire := by
  cases kind with
  | hello =>
      have whole : 1 + 17 ≤ bytes.length := fits
      simp only [uplinkOfBody, Uplink.Kind.size, Nat.reduceSub]
      rw [uuidAt_slice (by decide) whole, byteAt_slice (by decide) whole]
      rfl
  | pong => rfl
  | report =>
      have whole : 1 + 29 ≤ bytes.length := fits
      simp only [uplinkOfBody, Uplink.Kind.size, Nat.reduceSub]
      rw [uuidAt_slice (by decide) whole, wordAt_slice (by decide) whole,
        wordAt_slice (by decide) whole, wordAt_slice (by decide) whole,
        flagAt_slice (by decide) whole]
      simp only [Uplink.ofBytes, flagOf]
      cases TransportFlag.ofByte? bytes[29] <;> rfl

theorem downlinkOfBody_slice {kind : Downlink.Kind} {bytes : Bytes}
    (fits : kind.size ≤ bytes.length) :
    downlinkOfBody kind (bytes.slice 1 (kind.size - 1)) =
      (Downlink.ofBytes kind bytes fits).mapError .wire := by
  cases kind with
  | greeting | welcome | ping => rfl
  | refusal =>
      have whole : 1 + 1 ≤ bytes.length := fits
      simp only [downlinkOfBody, Downlink.Kind.size, Nat.reduceSub]
      rw [refusalAt_slice (by decide) whole]
      simp only [Downlink.ofBytes, refusalOf]
      cases Refusal.ofByte? bytes[1] <;> rfl
  | request =>
      have whole : 1 + 17 ≤ bytes.length := fits
      simp only [downlinkOfBody, Downlink.Kind.size, Nat.reduceSub]
      rw [uuidAt_slice (by decide) whole, flagAt_slice (by decide) whole]
      simp only [Downlink.ofBytes, flagOf]
      cases TransportFlag.ofByte? bytes[17] <;> rfl

/-- A body that is read alike makes the whole reading alike. -/
theorem decode_eq {κ π : Type} (format : Format κ π) {ofBody : κ → Bytes → Except Fault π}
    (size_pos : ∀ kind, 0 < format.size kind)
    (same : ∀ {kind bytes} fits, ofBody kind (bytes.slice 1 (format.size kind - 1)) =
      (format.ofBytes kind bytes fits).mapError .wire) (bytes : Bytes) :
    decode format.ofTag? format.size ofBody bytes = (format.decode bytes).mapError .wire := by
  cases bytes with
  | nil => rfl
  | cons tag rest =>
      simp only [decode, List.head?_cons]
      cases known : format.ofTag? tag with
      | none =>
          rw [Format.decode_of_unknown known]
          rfl
      | some kind =>
          dsimp only
          rcases Nat.lt_or_ge (tag :: rest).length (format.size kind) with short | fits
          · rw [if_pos short, Format.decode_of_short known short]
            rfl
          · rw [if_neg (Nat.not_lt_of_le fits), Format.decode_of_fits known fits,
              between_of_le (size_pos kind) fits]
            change (do let packet ← ofBody kind _; return (packet, format.size kind)) = _
            rw [same fits]
            cases format.ofBytes kind (tag :: rest) fits <;> rfl

theorem decodeUplink_eq (bytes : Bytes) :
    decodeUplink bytes = (Uplink.decode bytes).mapError .wire := by
  rw [← Uplink.decode_format]
  exact decode_eq Uplink.format Uplink.Kind.size_pos uplinkOfBody_slice bytes

theorem decodeDownlink_eq (bytes : Bytes) :
    decodeDownlink bytes = (Downlink.decode bytes).mapError .wire := by
  rw [← Downlink.decode_format]
  exact decode_eq Downlink.format Downlink.Kind.size_pos downlinkOfBody_slice bytes

theorem decodeFrame_eq (limit : Nat) (bytes : Bytes) :
    decodeFrame limit bytes = (Frame.decode limit bytes).mapError .wire := by
  match bytes with
  | [] | [_] => rfl
  | low :: high :: rest =>
      have header : Frame.headerSize ≤ (low :: high :: rest).length := Nat.le_add_left _ _
      have first : byteAt (low :: high :: rest) 0 = .ok low := rfl
      have second : byteAt (low :: high :: rest) 1 = .ok high := rfl
      rw [decodeFrame, if_neg (Nat.not_lt_of_le header), first, second, Frame.decode]
      dsimp only [bind, Except.bind]
      generalize Bytes.ofLittleEndian [low, high] = declared
      have size : (low :: high :: rest).length = rest.length + Frame.headerSize := rfl
      by_cases tooLong : limit < declared
      · rw [if_pos tooLong, if_pos tooLong]
        rfl
      · rw [if_neg tooLong, if_neg tooLong]
        by_cases short : rest.length < declared
        · rw [if_pos short, if_pos (by omega)]
          rfl
        · rw [if_neg short, if_neg (by omega), between_of_le (Nat.le_add_right _ _) (by omega),
            Nat.add_sub_cancel_left]
          rfl

end Guarded

/-! ## The three readers -/

/-- Each reader asks for more bytes exactly where an item may still grow out of those it has, and
any other answer stands whatever follows.  A packet is malformed exactly if it is whole and its
flag or its reason has no meaning.  Checks at every access would change nothing. -/
theorem decode_error_iff_and_guarded_eq :
    (Exact Uplink.decode Uplink.format.Awaits ∧ Exact Downlink.decode Downlink.format.Awaits ∧
      ∀ limit, Exact (Frame.decode limit) (Frame.Awaits limit)) ∧
    ((∀ bytes field,
        Uplink.decode bytes = .error (.malformed field) ↔ Uplink.Malformed bytes field) ∧
      (∀ bytes field,
        Downlink.decode bytes = .error (.malformed field) ↔ Downlink.Malformed bytes field) ∧
      ∀ limit bytes field, Frame.decode limit bytes ≠ .error (.malformed field)) ∧
    ((∀ bytes, Guarded.decodeUplink bytes = (Uplink.decode bytes).mapError .wire) ∧
      (∀ bytes, Guarded.decodeDownlink bytes = (Downlink.decode bytes).mapError .wire) ∧
      ∀ limit bytes,
        Guarded.decodeFrame limit bytes = (Frame.decode limit bytes).mapError .wire) :=
  ⟨⟨Uplink.exact, Downlink.exact, Frame.exact⟩,
    ⟨fun _ _ => Uplink.decode_eq_malformed_iff, fun _ _ => Downlink.decode_eq_malformed_iff,
      Frame.decode_ne_malformed⟩,
    ⟨Guarded.decodeUplink_eq, Guarded.decodeDownlink_eq, Guarded.decodeFrame_eq⟩⟩

/-- Of a report nineteen bytes are there, and then twenty-nine; a refusal whose reason has no
meaning, and what follows it. -/
theorem decode_error_iff_and_guarded_eq_cut_report :
    let part : Bytes := 2 :: List.replicate 18 0
    Uplink.decode part = .error (.incomplete 30 19) ∧
      Uplink.decode (part ++ List.replicate 10 2) = .error (.incomplete 30 29) ∧
      Downlink.decode [2, 3] = .error (.malformed (.refusal 3)) ∧
      Downlink.decode ([2, 3] ++ [1]) = .error (.malformed (.refusal 3)) := by
  intro part
  have cut : Uplink.decode part = .error (.incomplete 30 19) := rfl
  have refused : Downlink.decode [2, 3] = .error (.malformed (.refusal 3)) := rfl
  have more := (decode_error_iff_and_guarded_eq.1.1.awaited cut).2 (List.replicate 10 2) (by decide)
  have same := decode_error_iff_and_guarded_eq.1.2.1.settled
    (fun needed available => by rw [refused]; exact nofun) [1]
  exact ⟨cut, more, refused, same.trans refused⟩

end StationRelay
