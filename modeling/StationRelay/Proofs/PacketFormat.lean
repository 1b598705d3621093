import StationRelay.Packet.Codec

/-!
# Packets are read exactly as they are written

The two directions of traffic are made alike: a tag tells the kind of a packet,
and the kind tells its size.  `Format` is what sets a direction apart, and
`Format.Lawful` is what its parts owe to one another.  All else is proved once:
`Lawful.decode_eq_ok_iff` says that a packet is read exactly where it was
written, `decode_eq_incomplete_iff` when bytes are missing, and `decode_append`
that no other answer depends on what follows.
-/

namespace StationRelay

/-! ## Fields of a byte string -/

namespace Bytes

theorem slice_append {bytes : Bytes} {offset count : Nat} (more : Bytes)
    (inside : offset + count ≤ bytes.length) :
    slice (bytes ++ more) offset count = bytes.slice offset count := by
  unfold slice
  rw [List.drop_append_of_le_length (by omega), List.take_append_of_le_length]
  rw [List.length_drop]
  omega

theorem word32_append {bytes : Bytes} {offset : Nat} (more : Bytes)
    (inside : offset + 4 ≤ bytes.length) :
    word32 (bytes ++ more) offset = bytes.word32 offset := by
  rw [word32, word32, slice_append more inside]

theorem slice_field (before after : Bytes) {field : Bytes} {offset count : Nat}
    (start : before.length = offset) (size : field.length = count) :
    slice (before ++ (field ++ after)) offset count = field := by
  unfold slice
  rw [List.drop_left' start, List.take_left' size]

theorem word32_field (before after : Bytes) {offset : Nat} (word : UInt32)
    (start : before.length = offset) :
    word32 (before ++ (littleEndian 4 word.toNat ++ after)) offset = word := by
  rw [word32, slice_field before after start (length_littleEndian 4 _),
    ofLittleEndian_littleEndian (show word.toNat < Nat.pow 256 4 from word.toNat_lt),
    UInt32.ofNat_toNat]

/-- The bytes of a word are the ones it was read from. -/
theorem littleEndian_word32 {bytes : Bytes} (offset : Nat) (inside : offset + 4 ≤ bytes.length) :
    littleEndian 4 (bytes.word32 offset).toNat = bytes.slice offset 4 := by
  have four : (bytes.slice offset 4).length = 4 := length_slice inside
  have small : ofLittleEndian (bytes.slice offset 4) < UInt32.size := by
    have bound := ofLittleEndian_lt (bytes.slice offset 4)
    rwa [four] at bound
  have same := littleEndian_ofLittleEndian (bytes.slice offset 4)
  rwa [four, ← UInt32.toNat_ofNat_of_lt small] at same

theorem take_add_slice (bytes : Bytes) (offset count : Nat) :
    bytes.take (offset + count) = bytes.take offset ++ bytes.slice offset count :=
  List.take_add

theorem slice_one {bytes : Bytes} {offset : Nat} (inside : offset < bytes.length) :
    bytes.slice offset 1 = [bytes[offset]] := by
  rw [slice, List.drop_eq_getElem_cons inside, List.take_succ_cons, List.take_zero]

end Bytes

namespace Uuid

theorem ofSlice_append {bytes : Bytes} (more : Bytes) (offset : Nat)
    (inside : offset + 16 ≤ bytes.length) (insideAll : offset + 16 ≤ (bytes ++ more).length) :
    ofSlice (bytes ++ more) offset insideAll = ofSlice bytes offset inside := by
  simp only [ofSlice, Bytes.slice_append more inside]

theorem ofSlice_eq {bytes : Bytes} {offset : Nat} {uuid : Uuid}
    (inside : offset + 16 ≤ bytes.length) (same : bytes.slice offset 16 = uuid.bytes) :
    ofSlice bytes offset inside = uuid := by
  cases uuid
  simp only [ofSlice, mk.injEq]
  exact same

end Uuid

/-! ## One format for both directions -/

/-- What sets one direction of traffic apart. -/
structure Format (κ π : Type) where
  ofTag? : UInt8 → Option κ
  tag : κ → UInt8
  /-- The size of a whole packet, tag included. -/
  size : κ → Nat
  kind : π → κ
  encode : π → Bytes
  /-- The packet of a kind whose bytes are all there. -/
  ofBytes (kind : κ) (bytes : Bytes) : size kind ≤ bytes.length → Except WireError π

namespace Format

variable {κ π : Type}

def decode (format : Format κ π) (bytes : Bytes) : Except WireError (π × Nat) :=
  match bytes.head? with
  | none => .error (.incomplete 1 0)
  | some tag =>
    match format.ofTag? tag with
    | none => .error (.unknownTag tag)
    | some kind =>
      if h : format.size kind ≤ bytes.length then
        match format.ofBytes kind bytes h with
        | .ok packet => .ok (packet, format.size kind)
        | .error error => .error error
      else .error (.incomplete (format.size kind) bytes.length)

/-- Kinds and tags are the same, a packet is as long as its kind says, and its bytes are the only
ones it is read from; what follows them is not looked at. -/
structure Lawful (format : Format κ π) : Prop where
  ofTag?_eq_some_iff : ∀ {raw kind}, format.ofTag? raw = some kind ↔ raw = format.tag kind
  head?_encode : ∀ packet,
    (format.encode packet).head? = some (format.tag (format.kind packet))
  length_encode : ∀ packet, (format.encode packet).length = format.size (format.kind packet)
  ofBytes_encode : ∀ {packet bytes} fits, format.encode packet = bytes →
    format.ofBytes (format.kind packet) bytes fits = .ok packet
  kind_of_ofBytes : ∀ {kind bytes fits packet},
    format.ofBytes kind bytes fits = .ok packet → format.kind packet = kind
  encode_of_ofBytes : ∀ {kind bytes fits packet}, bytes.head? = some (format.tag kind) →
    format.ofBytes kind bytes fits = .ok packet →
      format.encode packet = bytes.take (format.size kind)
  malformed_of_ofBytes : ∀ {kind bytes fits error},
    format.ofBytes kind bytes fits = .error error → ∃ field, error = .malformed field
  ofBytes_append : ∀ kind {bytes} more fits fitsAll,
    format.ofBytes kind (bytes ++ more) fitsAll = format.ofBytes kind bytes fits

/-- Bytes that end before a packet does, with the size that is known so far. -/
inductive Awaits (format : Format κ π) : Bytes → Nat → Prop where
  | tag : Awaits format [] 1
  | body {kind : κ} {rest : Bytes}
      (short : (format.tag kind :: rest).length < format.size kind) :
      Awaits format (format.tag kind :: rest) (format.size kind)

section Reading

variable {format : Format κ π} {tag : UInt8} {rest : Bytes} {kind : κ}

theorem decode_of_unknown (unknown : format.ofTag? tag = none) :
    format.decode (tag :: rest) = .error (.unknownTag tag) := by
  simp only [decode, List.head?_cons, unknown]

theorem decode_of_short (known : format.ofTag? tag = some kind)
    (short : (tag :: rest).length < format.size kind) :
    format.decode (tag :: rest) = .error (.incomplete (format.size kind) (tag :: rest).length) := by
  simp only [decode, List.head?_cons, known]
  exact dif_neg (Nat.not_le_of_lt short)

theorem decode_of_fits (known : format.ofTag? tag = some kind)
    (fits : format.size kind ≤ (tag :: rest).length) :
    format.decode (tag :: rest) =
      (format.ofBytes kind (tag :: rest) fits).map (·, format.size kind) := by
  simp only [decode, List.head?_cons, known]
  rw [dif_pos fits]
  cases format.ofBytes kind (tag :: rest) fits <;> rfl

end Reading

/-- Everything that reading can lead to. -/
inductive Finds (format : Format κ π) : Bytes → Except WireError (π × Nat) → Prop where
  | short {bytes : Bytes} {needed : Nat} (awaits : format.Awaits bytes needed) :
      Finds format bytes (.error (.incomplete needed bytes.length))
  | unknown {tag : UInt8} {rest : Bytes} (unknown : format.ofTag? tag = none) :
      Finds format (tag :: rest) (.error (.unknownTag tag))
  | packet {kind : κ} {rest : Bytes} {packet : π}
      (fits : format.size kind ≤ (format.tag kind :: rest).length)
      (read : format.ofBytes kind (format.tag kind :: rest) fits = .ok packet) :
      Finds format (format.tag kind :: rest) (.ok (packet, format.size kind))
  | malformed {kind : κ} {rest : Bytes} {field : BadField}
      (fits : format.size kind ≤ (format.tag kind :: rest).length)
      (read : format.ofBytes kind (format.tag kind :: rest) fits = .error (.malformed field)) :
      Finds format (format.tag kind :: rest) (.error (.malformed field))

theorem Awaits.lt {format : Format κ π} {bytes : Bytes} {needed : Nat}
    (awaits : format.Awaits bytes needed) : bytes.length < needed := by
  cases awaits with
  | tag => exact Nat.zero_lt_one
  | body short => exact short

theorem Awaits.append {format : Format κ π} {bytes more : Bytes} {needed : Nat}
    (awaits : format.Awaits bytes needed) (short : (bytes ++ more).length < needed) :
    format.Awaits (bytes ++ more) needed := by
  cases awaits with
  | tag =>
      have nothing : more = [] := List.length_eq_zero_iff.mp (Nat.lt_one_iff.mp short)
      subst nothing
      exact .tag
  | body => exact .body short

namespace Lawful

variable {format : Format κ π} (lawful : format.Lawful) {bytes : Bytes}
include lawful

theorem finds_decode (bytes : Bytes) : format.Finds bytes (format.decode bytes) := by
  cases bytes with
  | nil => exact .short .tag
  | cons tag rest =>
      cases known : format.ofTag? tag with
      | none =>
          rw [decode_of_unknown known]
          exact .unknown known
      | some kind =>
          obtain rfl := lawful.ofTag?_eq_some_iff.mp known
          rcases Nat.lt_or_ge (format.tag kind :: rest).length (format.size kind) with short | fits
          · rw [decode_of_short known short]
            exact .short (.body short)
          · rw [decode_of_fits known fits]
            cases read : format.ofBytes kind (format.tag kind :: rest) fits with
            | ok packet => exact .packet fits read
            | error error =>
                obtain ⟨field, rfl⟩ := lawful.malformed_of_ofBytes read
                exact .malformed fits read

theorem ofTag?_tag (kind : κ) : format.ofTag? (format.tag kind) = some kind :=
  lawful.ofTag?_eq_some_iff.mpr rfl

/-- Bytes are missing exactly where there is no tag or the packet is longer than the bytes. -/
theorem decode_eq_incomplete_iff {needed available : Nat} :
    format.decode bytes = .error (.incomplete needed available) ↔
      format.Awaits bytes needed ∧ available = bytes.length := by
  constructor
  · intro incomplete
    have found := lawful.finds_decode bytes
    rw [incomplete] at found
    cases found with
    | short awaits => exact ⟨awaits, rfl⟩
  · rintro ⟨awaits, rfl⟩
    cases awaits with
    | tag => rfl
    | body short => exact decode_of_short (lawful.ofTag?_tag _) short

/-- More bytes change no answer but "incomplete". -/
theorem decode_append (more : Bytes)
    (settled : ∀ needed available, format.decode bytes ≠ .error (.incomplete needed available)) :
    format.decode (bytes ++ more) = format.decode bytes := by
  have found := lawful.finds_decode bytes
  generalize format.decode bytes = answer at found settled
  cases found with
  | short => exact absurd rfl (settled _ _)
  | unknown unknown => exact decode_of_unknown unknown
  | @packet kind rest _ fits read | @malformed kind rest _ fits read =>
      have fitsAll : format.size kind ≤ (format.tag kind :: (rest ++ more)).length := by
        simp only [List.length_cons, List.length_append] at fits ⊢
        omega
      rw [List.cons_append, decode_of_fits (lawful.ofTag?_tag kind) fitsAll]
      have same : format.ofBytes kind (format.tag kind :: (rest ++ more)) fitsAll = _ :=
        lawful.ofBytes_append kind more fits fitsAll
      rw [same, read]
      rfl

theorem decode_encode (packet : π) :
    format.decode (format.encode packet) = .ok (packet, format.size (format.kind packet)) := by
  obtain ⟨rest, front⟩ := List.head?_eq_some_iff.mp (lawful.head?_encode packet)
  have fits := Nat.le_of_eq (lawful.length_encode packet).symm
  rw [front] at fits ⊢
  rw [decode_of_fits (lawful.ofTag?_tag _) fits, lawful.ofBytes_encode fits front]
  rfl

/-- A packet is read exactly where its bytes stand in front. -/
theorem decode_eq_ok_iff {packet : π} {consumed : Nat} :
    format.decode bytes = .ok (packet, consumed) ↔
      consumed = format.size (format.kind packet) ∧ format.encode packet <+: bytes := by
  constructor
  · intro decoded
    have found := lawful.finds_decode bytes
    rw [decoded] at found
    cases found with
    | packet fits read =>
        rw [lawful.kind_of_ofBytes read, lawful.encode_of_ofBytes rfl read]
        exact ⟨rfl, List.take_prefix _ _⟩
  · rintro ⟨rfl, rest, rfl⟩
    have decoded := lawful.decode_encode packet
    rw [lawful.decode_append rest fun needed available => by rw [decoded]; exact nofun, decoded]

theorem decode_encode_append (packet : π) (rest : Bytes) :
    format.decode (format.encode packet ++ rest) =
      .ok (packet, (format.encode packet).length) :=
  lawful.decode_eq_ok_iff.mpr ⟨lawful.length_encode packet, List.prefix_append _ _⟩

/-- What was read is what would be written. -/
theorem encode_eq_take {packet : π} {consumed : Nat}
    (decoded : format.decode bytes = .ok (packet, consumed)) :
    format.encode packet = bytes.take consumed ∧ consumed ≤ bytes.length := by
  obtain ⟨rfl, front⟩ := lawful.decode_eq_ok_iff.mp decoded
  rw [← lawful.length_encode packet]
  exact ⟨List.prefix_iff_eq_take.mp front, front.length_le⟩

theorem decode_eq_malformed_iff {field : BadField} :
    format.decode bytes = .error (.malformed field) ↔
      ∃ kind, ∃ fits : format.size kind ≤ bytes.length, bytes.head? = some (format.tag kind) ∧
        format.ofBytes kind bytes fits = .error (.malformed field) := by
  constructor
  · intro decoded
    have found := lawful.finds_decode bytes
    rw [decoded] at found
    cases found with
    | malformed fits read => exact ⟨_, fits, rfl, read⟩
  · rintro ⟨kind, fits, front, read⟩
    obtain ⟨rest, rfl⟩ := List.head?_eq_some_iff.mp front
    rw [decode_of_fits (lawful.ofTag?_tag kind) fits, read]
    rfl

end Lawful

end Format

/-! ## Packets from a device -/

theorem TransportFlag.ofByte?_eq_none_iff {raw : UInt8} :
    ofByte? raw = none ↔ raw ≠ 1 ∧ raw ≠ 2 := by
  unfold ofByte?
  split
  · simp_all
  split <;> simp_all

namespace Uplink

theorem Kind.ofTag?_eq_some_iff {raw : UInt8} {kind : Kind} :
    Kind.ofTag? raw = some kind ↔ raw = kind.tag :=
  ⟨Kind.eq_tag_of_ofTag?, fun same => by rw [same, Kind.ofTag?_tag]⟩

def format : Format Kind Uplink where
  ofTag? := Kind.ofTag?
  tag := Kind.tag
  size := Kind.size
  kind := kind
  encode := encode
  ofBytes := ofBytes

theorem decode_format (bytes : Bytes) : format.decode bytes = decode bytes := by
  cases bytes with
  | nil => rfl
  | cons tag rest =>
      simp only [decode, List.head?_cons]
      cases known : Kind.ofTag? tag with
      | none => exact Format.decode_of_unknown known
      | some kind =>
          by_cases fits : kind.size ≤ (tag :: rest).length
          · simp only [dif_pos fits]
            have read : format.decode (tag :: rest) =
                (ofBytes kind (tag :: rest) fits).map (·, kind.size) :=
              Format.decode_of_fits known fits
            rw [read]
            cases ofBytes kind (tag :: rest) fits <;> rfl
          · simp only [dif_neg fits]
            exact Format.decode_of_short known (Nat.lt_of_not_le fits)

theorem length_encode (packet : Uplink) : packet.encode.length = packet.kind.size := by
  cases packet <;> simp [encode, kind, Kind.size, Uuid.length_eq]

theorem kind_of_ofBytes {kind : Kind} {bytes : Bytes} {fits : kind.size ≤ bytes.length}
    {packet : Uplink} (read : ofBytes kind bytes fits = .ok packet) : packet.kind = kind := by
  cases kind with
  | hello | pong =>
      cases read
      rfl
  | report =>
      simp only [ofBytes] at read
      split at read
      · cases read
      · cases read
        rfl

theorem ofBytes_hello {device : Uuid} {station : UInt8} {bytes : Bytes} (fits : 18 ≤ bytes.length)
    (written : encode (.hello device station) = bytes) :
    ofBytes .hello bytes fits = .ok (.hello device station) := by
  have size := device.length_eq
  have name : bytes.slice 1 16 = device.bytes := by
    have field := Bytes.slice_field [Kind.hello.tag] [station] rfl size
    simpa [← written, encode] using field
  have raw : bytes[17] = station := by simp [← written, encode, size]
  simp only [ofBytes, Uuid.ofSlice_eq (by omega) name, raw]

theorem ofBytes_report {measured : Report} {bytes : Bytes} (fits : 30 ≤ bytes.length)
    (written : encode (.report measured) = bytes) :
    ofBytes .report bytes fits = .ok (.report measured) := by
  obtain ⟨session, temperature, humidity, time, flag⟩ := measured
  have size := session.length_eq
  have first : bytes.slice 1 16 = session.bytes := by
    have field := Bytes.slice_field [Kind.report.tag]
      (Bytes.littleEndian 4 temperature.bits.toNat ++ (Bytes.littleEndian 4 humidity.bits.toNat ++
        (Bytes.littleEndian 4 time.toNat ++ [flag.toByte]))) rfl size
    simpa [← written, encode] using field
  have second : bytes.word32 17 = temperature.bits := by
    have field := Bytes.word32_field (Kind.report.tag :: session.bytes)
      (Bytes.littleEndian 4 humidity.bits.toNat ++
        (Bytes.littleEndian 4 time.toNat ++ [flag.toByte]))
      temperature.bits (by simp [size]; rfl)
    simpa [← written, encode] using field
  have third : bytes.word32 21 = humidity.bits := by
    have field := Bytes.word32_field (Kind.report.tag :: (session.bytes ++
        Bytes.littleEndian 4 temperature.bits.toNat))
      (Bytes.littleEndian 4 time.toNat ++ [flag.toByte]) humidity.bits (by simp [size]; rfl)
    simpa [← written, encode] using field
  have fourth : bytes.word32 25 = time := by
    have field := Bytes.word32_field (Kind.report.tag :: (session.bytes ++
        (Bytes.littleEndian 4 temperature.bits.toNat ++
          Bytes.littleEndian 4 humidity.bits.toNat)))
      [flag.toByte] time (by simp [size]; rfl)
    simpa [← written, encode] using field
  have last : bytes[29] = flag.toByte := by simp [← written, encode, size]
  simp only [ofBytes, Uuid.ofSlice_eq (by omega) first, second, third, fourth, last,
    TransportFlag.ofByte?_toByte]

theorem ofBytes_encode {packet : Uplink} {bytes : Bytes} (fits : packet.kind.size ≤ bytes.length)
    (written : packet.encode = bytes) : ofBytes packet.kind bytes fits = .ok packet := by
  cases packet with
  | hello => exact ofBytes_hello fits written
  | pong => rfl
  | report => exact ofBytes_report fits written

theorem encode_of_ofBytes {kind : Kind} {bytes : Bytes} {fits : kind.size ≤ bytes.length}
    {packet : Uplink} (front : bytes.head? = some kind.tag)
    (read : ofBytes kind bytes fits = .ok packet) : packet.encode = bytes.take kind.size := by
  have tag : bytes.take 1 = [kind.tag] := by rw [List.take_one, front]; rfl
  cases kind with
  | hello =>
      have size : 18 ≤ bytes.length := fits
      cases read
      calc encode (.hello (Uuid.ofSlice bytes 1 (by omega)) bytes[17])
        _ = bytes.take 1 ++ bytes.slice 1 16 ++ bytes.slice 17 1 := by
            rw [tag, Bytes.slice_one]; rfl
        _ = bytes.take (1 + 16 + 1) := by rw [Bytes.take_add_slice, Bytes.take_add_slice]
  | pong =>
      cases read
      exact tag.symm
  | report =>
      have size : 30 ≤ bytes.length := fits
      simp only [ofBytes] at read
      split at read
      · cases read
      rename_i flag known
      cases read
      have last : bytes.slice 29 1 = [flag.toByte] :=
        (Bytes.slice_one size).trans
          (congrArg ([·]) (TransportFlag.eq_toByte_of_ofByte? known))
      calc encode (.report _)
        _ = bytes.take 1 ++ bytes.slice 1 16 ++ bytes.slice 17 4 ++ bytes.slice 21 4 ++
              bytes.slice 25 4 ++ bytes.slice 29 1 := by
            rw [last, tag, ← Bytes.littleEndian_word32 17 (by omega),
              ← Bytes.littleEndian_word32 21 (by omega),
              ← Bytes.littleEndian_word32 25 (by omega)]
            rfl
        _ = bytes.take (1 + 16 + 4 + 4 + 4 + 1) := by simp only [Bytes.take_add_slice]

theorem ofBytes_append (kind : Kind) {bytes : Bytes} (more : Bytes)
    (inside : kind.size ≤ bytes.length) (insideAll : kind.size ≤ (bytes ++ more).length) :
    ofBytes kind (bytes ++ more) insideAll = ofBytes kind bytes inside := by
  cases kind with
  | hello =>
      have size : 18 ≤ bytes.length := inside
      have raw : (bytes ++ more)[17] = bytes[17] := List.getElem_append_left (by omega)
      have device := Uuid.ofSlice_append more 1 (show 1 + 16 ≤ bytes.length by omega)
      simp only [ofBytes, raw, device]
      rfl
  | pong => rfl
  | report =>
      have size : 30 ≤ bytes.length := inside
      have flag : (bytes ++ more)[29] = bytes[29] := List.getElem_append_left (by omega)
      have session := Uuid.ofSlice_append more 1 (show 1 + 16 ≤ bytes.length by omega)
      have temperature := Bytes.word32_append more (show 17 + 4 ≤ bytes.length by omega)
      have humidity := Bytes.word32_append more (show 21 + 4 ≤ bytes.length by omega)
      have time := Bytes.word32_append more (show 25 + 4 ≤ bytes.length by omega)
      simp only [ofBytes, flag, session, temperature, humidity, time]
      rfl

/-- The only byte of a whole packet that may be without a meaning is the flag of a report. -/
theorem ofBytes_eq_error_iff {kind : Kind} {bytes : Bytes} {fits : kind.size ≤ bytes.length}
    {error : WireError} :
    ofBytes kind bytes fits = .error error ↔
      kind = .report ∧ ∃ raw, bytes[29]? = some raw ∧ (raw ≠ 1 ∧ raw ≠ 2) ∧
        error = .malformed (.flag raw) := by
  cases kind with
  | hello | pong => simp [ofBytes]
  | report =>
      have found : bytes[29]? = some bytes[29] := List.getElem?_eq_getElem fits
      simp only [ofBytes, found, Option.some.injEq, true_and, exists_eq_left',
        ← TransportFlag.ofByte?_eq_none_iff]
      cases TransportFlag.ofByte? bytes[29] <;> simp [eq_comm]

theorem lawful : format.Lawful where
  ofTag?_eq_some_iff := Kind.ofTag?_eq_some_iff
  head?_encode packet := by cases packet <;> rfl
  length_encode := length_encode
  ofBytes_encode := ofBytes_encode
  kind_of_ofBytes := kind_of_ofBytes
  encode_of_ofBytes := encode_of_ofBytes
  malformed_of_ofBytes read := by
    obtain ⟨-, raw, -, -, rfl⟩ := ofBytes_eq_error_iff.mp read
    exact ⟨_, rfl⟩
  ofBytes_append := ofBytes_append

end Uplink

/-! ## Packets to a device -/

theorem Refusal.ofByte?_eq_none_iff {raw : UInt8} :
    ofByte? raw = none ↔ raw ≠ 1 ∧ raw ≠ 2 ∧ raw ≠ 4 ∧ raw ≠ 8 := by
  unfold ofByte?
  split
  · simp_all
  split
  · simp_all
  split
  · simp_all
  split <;> simp_all

namespace Downlink

theorem Kind.ofTag?_eq_some_iff {raw : UInt8} {kind : Kind} :
    Kind.ofTag? raw = some kind ↔ raw = kind.tag :=
  ⟨Kind.eq_tag_of_ofTag?, fun same => by rw [same, Kind.ofTag?_tag]⟩

def format : Format Kind Downlink where
  ofTag? := Kind.ofTag?
  tag := Kind.tag
  size := Kind.size
  kind := kind
  encode := encode
  ofBytes := ofBytes

theorem decode_format (bytes : Bytes) : format.decode bytes = decode bytes := by
  cases bytes with
  | nil => rfl
  | cons tag rest =>
      simp only [decode, List.head?_cons]
      cases known : Kind.ofTag? tag with
      | none => exact Format.decode_of_unknown known
      | some kind =>
          by_cases fits : kind.size ≤ (tag :: rest).length
          · simp only [dif_pos fits]
            have read : format.decode (tag :: rest) =
                (ofBytes kind (tag :: rest) fits).map (·, kind.size) :=
              Format.decode_of_fits known fits
            rw [read]
            cases ofBytes kind (tag :: rest) fits <;> rfl
          · simp only [dif_neg fits]
            exact Format.decode_of_short known (Nat.lt_of_not_le fits)

theorem length_encode (packet : Downlink) : packet.encode.length = packet.kind.size := by
  cases packet <;> simp [encode, kind, Kind.size, Uuid.length_eq]

theorem kind_of_ofBytes {kind : Kind} {bytes : Bytes} {fits : kind.size ≤ bytes.length}
    {packet : Downlink} (read : ofBytes kind bytes fits = .ok packet) : packet.kind = kind := by
  cases kind with
  | greeting | welcome | ping =>
      cases read
      rfl
  | refusal | request =>
      simp only [ofBytes] at read
      split at read
      · cases read
      · cases read
        rfl

theorem ofBytes_request {session : Uuid} {flag : TransportFlag} {bytes : Bytes}
    (fits : 18 ≤ bytes.length) (written : encode (.request session flag) = bytes) :
    ofBytes .request bytes fits = .ok (.request session flag) := by
  have size := session.length_eq
  have name : bytes.slice 1 16 = session.bytes := by
    have field := Bytes.slice_field [Kind.request.tag] [flag.toByte] rfl size
    simpa [← written, encode] using field
  have last : bytes[17] = flag.toByte := by simp [← written, encode, size]
  simp only [ofBytes, Uuid.ofSlice_eq (by omega) name, last, TransportFlag.ofByte?_toByte]

theorem ofBytes_encode {packet : Downlink} {bytes : Bytes}
    (fits : packet.kind.size ≤ bytes.length) (written : packet.encode = bytes) :
    ofBytes packet.kind bytes fits = .ok packet := by
  cases packet with
  | greeting | welcome | ping => rfl
  | refusal reason =>
      subst written
      simp [kind, ofBytes, encode]
  | request => exact ofBytes_request fits written

theorem encode_of_ofBytes {kind : Kind} {bytes : Bytes} {fits : kind.size ≤ bytes.length}
    {packet : Downlink} (front : bytes.head? = some kind.tag)
    (read : ofBytes kind bytes fits = .ok packet) : packet.encode = bytes.take kind.size := by
  have tag : bytes.take 1 = [kind.tag] := by rw [List.take_one, front]; rfl
  cases kind with
  | greeting | welcome | ping =>
      cases read
      exact tag.symm
  | refusal =>
      have size : 2 ≤ bytes.length := fits
      simp only [ofBytes] at read
      split at read
      · cases read
      rename_i reason known
      cases read
      have last : bytes.slice 1 1 = [reason.toByte] :=
        (Bytes.slice_one size).trans (congrArg ([·]) (Refusal.eq_toByte_of_ofByte? known))
      calc encode (.refusal reason)
        _ = bytes.take 1 ++ bytes.slice 1 1 := by rw [tag, last]; rfl
        _ = bytes.take (1 + 1) := by rw [Bytes.take_add_slice]
  | request =>
      have size : 18 ≤ bytes.length := fits
      simp only [ofBytes] at read
      split at read
      · cases read
      rename_i flag known
      cases read
      have last : bytes.slice 17 1 = [flag.toByte] :=
        (Bytes.slice_one size).trans
          (congrArg ([·]) (TransportFlag.eq_toByte_of_ofByte? known))
      calc encode (.request (Uuid.ofSlice bytes 1 (by omega)) flag)
        _ = bytes.take 1 ++ bytes.slice 1 16 ++ bytes.slice 17 1 := by rw [tag, last]; rfl
        _ = bytes.take (1 + 16 + 1) := by rw [Bytes.take_add_slice, Bytes.take_add_slice]

theorem ofBytes_append (kind : Kind) {bytes : Bytes} (more : Bytes)
    (inside : kind.size ≤ bytes.length) (insideAll : kind.size ≤ (bytes ++ more).length) :
    ofBytes kind (bytes ++ more) insideAll = ofBytes kind bytes inside := by
  cases kind with
  | greeting | welcome | ping => rfl
  | refusal =>
      have raw : (bytes ++ more)[1] = bytes[1] := List.getElem_append_left inside
      simp only [ofBytes, raw]
  | request =>
      have size : 18 ≤ bytes.length := inside
      have flag : (bytes ++ more)[17] = bytes[17] := List.getElem_append_left (by omega)
      have session := Uuid.ofSlice_append more 1 (show 1 + 16 ≤ bytes.length by omega)
      simp only [ofBytes, flag, session]
      rfl

/-- The only bytes of a whole packet that may be without a meaning are the reason of a refusal
and the flag of a request. -/
theorem ofBytes_eq_error_iff {kind : Kind} {bytes : Bytes} {fits : kind.size ≤ bytes.length}
    {error : WireError} :
    ofBytes kind bytes fits = .error error ↔
      (kind = .refusal ∧ ∃ raw, bytes[1]? = some raw ∧
        (raw ≠ 1 ∧ raw ≠ 2 ∧ raw ≠ 4 ∧ raw ≠ 8) ∧ error = .malformed (.refusal raw)) ∨
      (kind = .request ∧ ∃ raw, bytes[17]? = some raw ∧ (raw ≠ 1 ∧ raw ≠ 2) ∧
        error = .malformed (.flag raw)) := by
  cases kind with
  | greeting | welcome | ping => simp [ofBytes]
  | refusal =>
      have found : bytes[1]? = some bytes[1] := List.getElem?_eq_getElem fits
      simp only [ofBytes, found, Option.some.injEq, true_and, exists_eq_left',
        ← Refusal.ofByte?_eq_none_iff]
      cases Refusal.ofByte? bytes[1] <;> simp [eq_comm]
  | request =>
      have found : bytes[17]? = some bytes[17] := List.getElem?_eq_getElem fits
      simp only [ofBytes, found, Option.some.injEq, true_and, exists_eq_left',
        ← TransportFlag.ofByte?_eq_none_iff]
      cases TransportFlag.ofByte? bytes[17] <;> simp [eq_comm]

theorem lawful : format.Lawful where
  ofTag?_eq_some_iff := Kind.ofTag?_eq_some_iff
  head?_encode packet := by cases packet <;> rfl
  length_encode := length_encode
  ofBytes_encode := ofBytes_encode
  kind_of_ofBytes := kind_of_ofBytes
  encode_of_ofBytes := encode_of_ofBytes
  malformed_of_ofBytes read := by
    rcases ofBytes_eq_error_iff.mp read with ⟨-, raw, -, -, rfl⟩ | ⟨-, raw, -, -, rfl⟩ <;>
      exact ⟨_, rfl⟩
  ofBytes_append := ofBytes_append

end Downlink

/-! ## Both directions -/

/-- What is read in front of anything is the packet that was written there, and what was read is
what would be written: this is so of packets from a device and of packets to one. -/
theorem decode_inverts_encode :
    (∀ (packet : Uplink) (rest : Bytes),
      Uplink.decode (packet.encode ++ rest) = .ok (packet, packet.encode.length) ∧
        packet.encode.length = packet.kind.size) ∧
    (∀ (bytes : Bytes) (packet : Uplink) (consumed : Nat),
      Uplink.decode bytes = .ok (packet, consumed) →
        packet.encode = bytes.take consumed ∧ consumed ≤ bytes.length) ∧
    (∀ (packet : Downlink) (rest : Bytes),
      Downlink.decode (packet.encode ++ rest) = .ok (packet, packet.encode.length) ∧
        packet.encode.length = packet.kind.size) ∧
    (∀ (bytes : Bytes) (packet : Downlink) (consumed : Nat),
      Downlink.decode bytes = .ok (packet, consumed) →
        packet.encode = bytes.take consumed ∧ consumed ≤ bytes.length) := by
  refine ⟨fun packet rest => ?_, fun bytes packet consumed decoded => ?_,
    fun packet rest => ?_, fun bytes packet consumed decoded => ?_⟩
  · rw [← Uplink.decode_format]
    exact ⟨Uplink.lawful.decode_encode_append packet rest, Uplink.length_encode packet⟩
  · rw [← Uplink.decode_format] at decoded
    exact Uplink.lawful.encode_eq_take decoded
  · rw [← Downlink.decode_format]
    exact ⟨Downlink.lawful.decode_encode_append packet rest, Downlink.length_encode packet⟩
  · rw [← Downlink.decode_format] at decoded
    exact Downlink.lawful.encode_eq_take decoded

/-- A report of a signalling NaN and a negative zero, before the first bytes of another. -/
theorem decode_inverts_encode_nan :
    let name : Uuid := ⟨List.replicate 16 0xff, rfl⟩
    let packet : Uplink := .report ⟨name, ⟨0x7f800001⟩, ⟨0x80000000⟩, 0xfffffffe, .secure⟩
    let bytes := packet.encode ++ [0x02, 0xff]
    Uplink.decode bytes = .ok (packet, 30) ∧ packet.encode = bytes.take 30 ∧
      30 ≤ bytes.length := by
  intro name packet bytes
  obtain ⟨decoded, size⟩ := decode_inverts_encode.1 packet [0x02, 0xff]
  rw [size] at decoded
  exact ⟨decoded, decode_inverts_encode.2.1 bytes packet 30 decoded⟩

end StationRelay
