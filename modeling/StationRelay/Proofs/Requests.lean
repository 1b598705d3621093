import StationRelay.Request
import StationRelay.Proofs.JsonContents
import StationRelay.Proofs.JsonReading

/-!
# Which payloads are requests

`parse_eq_ok_iff`: the payloads that are read as a request are the texts of the
values that `Accepted` describes.  These are objects whose members have names,
one of them `id` with the value 0 or 1 and at most one `stationIds`, and arrays
of the two values.  `accepted_of_parse` adds that a payload is the text of one
value only, and that only members which are skipped may hold bytes that are not
UTF-8.  `parse_entries` says which entries of `stationIds` are kept, and what an
entry may be without costing the request.
-/

namespace StationRelay

theorem eq_ok_of_toOption {ε α : Type} {result : Except ε α} {value : α}
    (some_value : result.toOption = some value) : result = .ok value := by
  cases result with
  | error error => cases some_value
  | ok other => exact congrArg _ (Option.some.inj some_value)

namespace Request

open Json (Piece Number Denotes Held Encoded)
open Json.Grammar (Text)

/-! ## Members by name -/

def Named (members : List (List Piece × Json)) : Prop :=
  ∀ member ∈ members, ∃ chars, Denotes member.1 chars

def Absent (name : String) (members : List (List Piece × Json)) : Prop :=
  ∀ member ∈ members, ¬ Denotes member.1 name.toList

inductive Sole (name : String) (value : Json) : List (List Piece × Json) → Prop where
  | mk {before after : List (List Piece × Json)} {key : List Piece}
      (named : Denotes key name.toList) (others : Absent name (before ++ after)) :
      Sole name value (before ++ (key, value) :: after)

section Members

variable {name : String} {value : Json} {members : List (List Piece × Json)}

theorem ite_text?_eq_none_iff {key : List Piece} :
    (if Json.text? key = some name then some value else none) = none ↔
      ¬ Denotes key name.toList := by
  rw [← Json.text?_eq_some_iff]
  simp

theorem valuesOf_eq_nil_iff : valuesOf name members = [] ↔ Absent name members := by
  rw [valuesOf, List.filterMap_eq_nil_iff]
  exact forall_congr' fun member => imp_congr_right fun _ => ite_text?_eq_none_iff

theorem valuesOf_eq_singleton_iff : valuesOf name members = [value] ↔ Sole name value members := by
  constructor
  · intro found
    obtain ⟨before, ⟨key, other⟩, after, rfl, free, same, last⟩ :=
      List.filterMap_eq_cons_iff.mp found
    obtain ⟨named, same⟩ := Option.ite_none_right_eq_some.mp same
    cases same
    refine .mk (Json.text?_eq_some_iff.mp named) ?_
    rw [Absent, List.forall_mem_append]
    exact ⟨valuesOf_eq_nil_iff.mp (List.filterMap_eq_nil_iff.mpr free),
      valuesOf_eq_nil_iff.mp last⟩
  · rintro ⟨named, others⟩
    rename_i before after key
    obtain ⟨first, last⟩ := List.forall_mem_append.mp others
    have none := valuesOf_eq_nil_iff.mpr first
    have noMore := valuesOf_eq_nil_iff.mpr last
    have found := Json.text?_eq_some_iff.mpr named
    rw [valuesOf] at none noMore ⊢
    rw [List.filterMap_append, none, List.filterMap_cons, noMore]
    simp [found]

theorem Sole.eq_of_denotes (sole : Sole name value members) {member : List Piece × Json}
    (listed : member ∈ members) (named : Denotes member.1 name.toList) : member.2 = value := by
  obtain ⟨-, others⟩ := sole
  rw [List.mem_append, List.mem_cons] at listed
  rcases listed with front | rfl | back
  · exact absurd named (others member (List.mem_append_left _ front))
  · rfl
  · exact absurd named (others member (List.mem_append_right _ back))

theorem Sole.mem (sole : Sole name value members) : ∃ key, (key, value) ∈ members := by
  obtain ⟨-, -⟩ := sole
  exact ⟨_, List.mem_append_right _ List.mem_cons_self⟩

theorem Sole.unique {other : Json} (first : Sole name value members)
    (second : Sole name other members) : value = other := by
  have one := valuesOf_eq_singleton_iff.mpr first
  rw [valuesOf_eq_singleton_iff.mpr second] at one
  exact (List.cons.inj one).1.symm

theorem Sole.not_absent (sole : Sole name value members) : ¬ Absent name members := by
  intro absent
  have one := valuesOf_eq_singleton_iff.mpr sole
  rw [valuesOf_eq_nil_iff.mpr absent] at one
  cases one

end Members

/-! ## What the fields say -/

def plain (digits : List Nat) : Json :=
  .number ⟨false, digits, [], none⟩

def plainByte? : Json → Option UInt8
  | .number ⟨false, digits, [], none⟩ =>
    if Number.ofDigits digits < 256 then some (UInt8.ofNat (Number.ofDigits digits))
    else none
  | _ => none

/-- An `id` and the value of `stationIds` that ask for something. -/
inductive Asks : Request → Json → Json → Prop where
  | stations : Asks .stations (plain [1]) .null
  | stationsListed {entries : List Json} (held : ∀ entry ∈ entries, Held entryDepth entry) :
      Asks .stations (plain [1]) (.array entries)
  | readings {entries : List Json} (held : ∀ entry ∈ entries, Held entryDepth entry) :
      Asks (.readings (entries.filterMap plainByte?)) (plain [0]) (.array entries)

/-- A value that is a request: an object, or the values of its two members in an array. -/
inductive Accepted : Request → Json → Prop where
  | both {request : Request} {members : List (List Piece × Json)} {id entries : Json}
      (named : Named members) (selected : Sole "id" id members)
      (listed : Sole "stationIds" entries members) (asks : Asks request id entries) :
      Accepted request (.object members)
  | unlisted {members : List (List Piece × Json)} (named : Named members)
      (selected : Sole "id" (plain [1]) members) (absent : Absent "stationIds" members) :
      Accepted .stations (.object members)
  | pair {request : Request} {id entries : Json} (asks : Asks request id entries) :
      Accepted request (.array [id, entries])

theorem isPlain_iff {literal : Number} :
    literal.isPlain = true ↔ literal = ⟨false, literal.whole, [], none⟩ := by
  obtain ⟨negative, whole, fraction, exponent⟩ := literal
  cases negative <;> cases fraction <;> cases exponent <;> simp [Number.isPlain]

theorem word?_eq_some_iff {literal : Number} {n : Nat} :
    literal.word? = some n ↔ literal.isPlain = true ∧
      Number.ofDigits literal.whole = n ∧ n < Number.wordBound := by
  rw [Number.word?, Option.ite_none_right_eq_some, Option.some.injEq]
  constructor
  · rintro ⟨⟨noMore, fits⟩, rfl⟩
    exact ⟨noMore, rfl, fits⟩
  · rintro ⟨noMore, rfl, fits⟩
    exact ⟨⟨noMore, fits⟩, rfl⟩

theorem byte?_eq (literal : Number) :
    literal.byte? =
      if literal.isPlain = true ∧ Number.ofDigits literal.whole < 256 then
        some (UInt8.ofNat (Number.ofDigits literal.whole))
      else none := by
  rw [Number.byte?]
  split
  · rename_i n word
    obtain ⟨noMore, rfl, -⟩ := word?_eq_some_iff.mp word
    simp [noMore]
  · rename_i none
    refine (if_neg ?_).symm
    rintro ⟨noMore, small⟩
    have fits : Number.ofDigits literal.whole < Number.wordBound :=
      Nat.lt_trans small (by decide)
    rw [word?_eq_some_iff.mpr ⟨noMore, rfl, fits⟩] at none
    cases none

theorem stationByte?_eq_plainByte? : stationByte? = plainByte? := by
  funext entry
  cases entry with
  | number literal =>
      rw [stationByte?, byte?_eq]
      obtain ⟨negative, whole, fraction, exponent⟩ := literal
      cases negative <;> cases fraction <;> cases exponent <;>
        simp [Number.isPlain, plainByte?]
  | _ => rfl

theorem id?_plain {n : Nat} (small : n < 10) : id? (plain [n]) = some n := by
  have value : Number.ofDigits [n] = n := by simp [Number.ofDigits]
  exact word?_eq_some_iff.mpr ⟨rfl, value, Nat.lt_trans small (by decide)⟩

/-- An `id` below ten is its digit. -/
theorem id?_eq_some_iff {id : Json} {bytes : Bytes} {n : Nat}
    (written : Text id bytes) (small : n < 10) :
    id? id = some n ↔ id = plain [n] := by
  constructor
  · intro found
    cases id with
    | number literal =>
        obtain ⟨noMore, rfl, -⟩ := word?_eq_some_iff.mp found
        obtain ⟨own, whole⟩ := written.exists_whole
        rw [isPlain_iff.mp noMore, plain, ← whole.eq_singleton small]
    | _ => cases found
  · rintro rfl
    exact id?_plain small

theorem entries?_eq_some_iff {value : Json} {entries : Option (List Json)} :
    entries? value = some entries ↔ (value = .null ∧ entries = none) ∨
      ∃ items, value = .array items ∧ entries = some items ∧
        ∀ item ∈ items, Held entryDepth item := by
  constructor
  · intro found
    unfold entries? at found
    split at found
    · cases found
      exact Or.inl ⟨rfl, rfl⟩
    · obtain ⟨held, same⟩ := Option.ite_none_right_eq_some.mp found
      cases same
      exact Or.inr ⟨_, rfl, rfl, Json.holdsItems_eq_true_iff.mp held⟩
    · cases found
  · rintro (⟨rfl, rfl⟩ | ⟨items, rfl, rfl, held⟩)
    · rfl
    · exact if_pos (Json.holdsItems_eq_true_iff.mpr held)

theorem ofFields_eq_ok_iff {fields : Fields} {request : Request} :
    ofFields fields = .ok request ↔ (fields.id = 1 ∧ request = .stations) ∨
      (fields.id = 0 ∧ ∃ entries, fields.stationIds = some entries ∧
        request = .readings (entries.filterMap plainByte?)) := by
  rw [← stationByte?_eq_plainByte?]
  constructor
  · intro found
    unfold ofFields at found
    split at found
    · rename_i one
      cases found
      exact Or.inl ⟨one, rfl⟩
    split at found
    · rename_i zero
      split at found
      · rename_i entries listed
        cases found
        exact Or.inr ⟨zero, entries, listed, rfl⟩
      · cases found
    · cases found
  · rintro (⟨one, rfl⟩ | ⟨zero, entries, listed, rfl⟩)
    · exact if_pos one
    · rw [ofFields, if_neg (by omega), if_pos zero, listed]

def Fields.ofValues? (id entries : Json) : Option Fields := do
  let id ← id? id
  let stationIds ← entries? entries
  return ⟨id, stationIds⟩

theorem Fields.ofValues?_eq_some_iff {id entries : Json} {fields : Fields} :
    Fields.ofValues? id entries = some fields ↔
      id? id = some fields.id ∧ entries? entries = some fields.stationIds := by
  obtain ⟨n, listed⟩ := fields
  simp only [Fields.ofValues?, Option.bind_eq_bind, Option.bind_eq_some_iff, Option.pure_def,
    Option.some.injEq, Fields.mk.injEq]
  constructor
  · rintro ⟨_, first, _, second, rfl, rfl⟩
    exact ⟨first, second⟩
  · rintro ⟨first, second⟩
    exact ⟨_, first, _, second, rfl, rfl⟩

/-- Two values are read as a request exactly if they ask for it. -/
theorem exists_fields_iff_asks {request : Request} {id entries : Json} {bytes : Bytes}
    (written : Text id bytes) :
    (∃ fields, Fields.ofValues? id entries = some fields ∧ ofFields fields = .ok request) ↔
      Asks request id entries := by
  constructor
  · rintro ⟨⟨n, listed⟩, found, asked⟩
    obtain ⟨selected, stated⟩ := Fields.ofValues?_eq_some_iff.mp found
    rcases ofFields_eq_ok_iff.mp asked with ⟨rfl, rfl⟩ | ⟨rfl, items, same, rfl⟩
    · obtain rfl := (id?_eq_some_iff written (show 1 < 10 by decide)).mp selected
      rcases entries?_eq_some_iff.mp stated with ⟨rfl, -⟩ | ⟨items, rfl, -, held⟩
      · exact .stations
      · exact .stationsListed held
    · obtain rfl := (id?_eq_some_iff written (show 0 < 10 by decide)).mp selected
      rw [same] at stated
      rcases entries?_eq_some_iff.mp stated with ⟨-, none⟩ | ⟨_, rfl, same, held⟩
      · cases none
      · cases same
        exact .readings held
  · intro asks
    have found (n : Nat) (small : n < 10) (listed : Option (List Json))
        (stated : entries? entries = some listed) :
        Fields.ofValues? (plain [n]) entries = some ⟨n, listed⟩ :=
      Fields.ofValues?_eq_some_iff.mpr ⟨id?_plain small, stated⟩
    cases asks with
    | stations =>
        exact ⟨⟨1, none⟩, found 1 (by decide) none rfl, rfl⟩
    | @stationsListed items held =>
        have stated := entries?_eq_some_iff.mpr (Or.inr ⟨items, rfl, rfl, held⟩)
        exact ⟨⟨1, some items⟩, found 1 (by decide) _ stated, rfl⟩
    | @readings items held =>
        have stated := entries?_eq_some_iff.mpr (Or.inr ⟨items, rfl, rfl, held⟩)
        refine ⟨⟨0, some items⟩, found 0 (by decide) _ stated, ?_⟩
        exact ofFields_eq_ok_iff.mpr (Or.inr ⟨rfl, items, rfl, rfl⟩)

theorem named_iff {members : List (List Piece × Json)} :
    (members.all fun (key, _) => (Json.text? key).isSome) = true ↔ Named members := by
  rw [List.all_eq_true]
  exact forall_congr' fun member => imp_congr_right fun _ => Json.isSome_text?_iff

theorem Fields.ofMembers?_eq_some_iff {members : List (List Piece × Json)} {fields : Fields} :
    Fields.ofMembers? members = some fields ↔
      Named members ∧ ∃ id, Sole "id" id members ∧
        ((∃ entries, Sole "stationIds" entries members ∧
            Fields.ofValues? id entries = some fields) ∨
          (Absent "stationIds" members ∧ id? id = some fields.id ∧ fields.stationIds = none)) := by
  simp only [← valuesOf_eq_singleton_iff, ← valuesOf_eq_nil_iff, ← named_iff]
  constructor
  · intro found
    unfold Fields.ofMembers? at found
    split at found
    · rename_i named
      refine ⟨named, ?_⟩
      split at found
      · rename_i id selected absent
        obtain ⟨n, first, rfl⟩ := Option.map_eq_some_iff.mp found
        exact ⟨id, selected, Or.inr ⟨absent, first, rfl⟩⟩
      · rename_i id entries selected listed
        exact ⟨id, selected, Or.inl ⟨entries, listed, found⟩⟩
      · cases found
    · cases found
  · rintro ⟨named, id, selected, ⟨entries, listed, found⟩ | ⟨absent, found, none⟩⟩
    · rw [Fields.ofMembers?, if_pos named, selected, listed]
      exact found
    · obtain ⟨n, listed⟩ := fields
      cases none
      rw [Fields.ofMembers?, if_pos named, selected, absent]
      exact Option.map_eq_some_iff.mpr ⟨n, found, rfl⟩

/-- A text is read as a request exactly if its value is accepted as one. -/
theorem exists_fields_iff_accepted {request : Request} {value : Json} {bytes : Bytes}
    (written : Text value bytes) :
    (∃ fields, Fields.ofJson? value = some fields ∧ ofFields fields = .ok request) ↔
      Accepted request value := by
  constructor
  · rintro ⟨fields, found, asked⟩
    unfold Fields.ofJson? at found
    split at found
    · rename_i members
      obtain ⟨named, id, selected, ⟨entries, listed, stated⟩ | ⟨absent, stated, none⟩⟩ :=
        Fields.ofMembers?_eq_some_iff.mp found
      all_goals
        obtain ⟨key, member⟩ := selected.mem
        obtain ⟨own, text, -⟩ := written.exists_member _ member
      · exact .both named selected listed ((exists_fields_iff_asks text).mp ⟨fields, stated, asked⟩)
      · rcases ofFields_eq_ok_iff.mp asked with ⟨one, rfl⟩ | ⟨-, entries, some, -⟩
        · rw [one] at stated
          obtain rfl := (id?_eq_some_iff text (by decide)).mp stated
          exact .unlisted named selected absent
        · rw [none] at some
          cases some
    · rename_i id entries
      obtain ⟨own, text, -⟩ := written.exists_item id List.mem_cons_self
      exact .pair ((exists_fields_iff_asks text).mp ⟨fields, found, asked⟩)
    · cases found
  · intro accepted
    cases accepted with
    | both named selected listed asks =>
        obtain ⟨key, member⟩ := selected.mem
        obtain ⟨own, text, -⟩ := written.exists_member _ member
        obtain ⟨fields, stated, asked⟩ := (exists_fields_iff_asks text).mpr asks
        exact ⟨fields, Fields.ofMembers?_eq_some_iff.mpr
          ⟨named, _, selected, Or.inl ⟨_, listed, stated⟩⟩, asked⟩
    | unlisted named selected absent =>
        exact ⟨⟨1, none⟩, Fields.ofMembers?_eq_some_iff.mpr
          ⟨named, _, selected, Or.inr ⟨absent, id?_plain (by decide), rfl⟩⟩, rfl⟩
    | pair asks =>
        obtain ⟨own, text, -⟩ := written.exists_item _ List.mem_cons_self
        exact (exists_fields_iff_asks text).mpr asks

/-- Exactly the texts of accepted values are requests. -/
theorem parse_eq_ok_iff {request : Request} {payload : Bytes} :
    parse payload = .ok request ↔
      ∃ value, Text value payload ∧ Accepted request value := by
  constructor
  · intro parsed
    unfold parse at parsed
    split at parsed
    · cases parsed
    · rename_i fields found
      obtain ⟨value, read, stated⟩ := Option.bind_eq_some_iff.mp found
      have written := Json.read?_eq_some_iff.mp read
      exact ⟨value, written, (exists_fields_iff_accepted written).mp ⟨fields, stated, parsed⟩⟩
  · rintro ⟨value, written, accepted⟩
    obtain ⟨fields, stated, asked⟩ := (exists_fields_iff_accepted written).mpr accepted
    have found : (Json.read? payload >>= Fields.ofJson?) = some fields :=
      Option.bind_eq_some_iff.mpr ⟨value, Json.read?_eq_some_iff.mpr written, stated⟩
    rw [parse, found]
    exact asked

/-- A request asks for no more stations than it has bytes. -/
theorem length_stationIds_le {payload : Bytes} {stationIds : List UInt8}
    (parsed : parse payload = .ok (.readings stationIds)) :
    stationIds.length ≤ payload.length := by
  have kept {id entries : Json} {bytes : Bytes} (asks : Asks (.readings stationIds) id entries)
      (written : Text entries bytes) : stationIds.length ≤ bytes.length := by
    cases asks with
    | readings => exact Nat.le_trans (List.length_filterMap_le _ _) written.length_items_le
  obtain ⟨value, written, accepted⟩ := parse_eq_ok_iff.mp parsed
  cases accepted with
  | both named selected listed asks =>
      obtain ⟨key, member⟩ := listed.mem
      obtain ⟨own, text, short⟩ := written.exists_member _ member
      exact Nat.le_trans (kept asks text) short
  | pair asks =>
      obtain ⟨own, text, short⟩ := written.exists_item _ (List.mem_cons_of_mem _ List.mem_cons_self)
      exact Nat.le_trans (kept asks text) short

/-! ## Requests for readings -/

/-- Every name of the members is a text, and every entry can be held. -/
structure Kept (members : List (List Piece × Json)) (entries : List Json) : Prop where
  named : Named members
  held : ∀ entry ∈ entries, Held entryDepth entry

theorem kept_of_ofMembers? {members : List (List Piece × Json)} {entries : List Json}
    {fields : Fields} (listed : Sole "stationIds" (.array entries) members)
    (found : Fields.ofMembers? members = some fields) : Kept members entries := by
  obtain ⟨named, id, -, ⟨other, same, stated⟩ | ⟨absent, -⟩⟩ :=
    Fields.ofMembers?_eq_some_iff.mp found
  · obtain rfl := listed.unique same
    obtain ⟨-, stated⟩ := Fields.ofValues?_eq_some_iff.mp stated
    rcases entries?_eq_some_iff.mp stated with ⟨null, -⟩ | ⟨items, array, -, held⟩
    · cases null
    · cases array
      exact ⟨named, held⟩
  · exact absurd absent listed.not_absent

/-- An object with `id` 0 and an array of stations asks for the plain bytes in it, unless an entry
cannot be held or a name is no text; then it is no request. -/
theorem parse_entries {payload : Bytes} {members : List (List Piece × Json)} {entries : List Json}
    (written : Text (.object members) payload)
    (selected : Sole "id" (plain [0]) members)
    (listed : Sole "stationIds" (.array entries) members) :
    (Kept members entries → parse payload = .ok (.readings (entries.filterMap plainByte?))) ∧
      (¬ Kept members entries → parse payload = .error .notJson) := by
  constructor
  · rintro ⟨named, held⟩
    exact parse_eq_ok_iff.mpr ⟨_, written, .both named selected listed (.readings held)⟩
  · intro lost
    have none : Fields.ofMembers? members = none := by
      rw [Option.eq_none_iff_forall_not_mem]
      exact fun fields found => lost (kept_of_ofMembers? listed found)
    have nothing : (Json.read? payload >>= Fields.ofJson?) = Option.none := by
      rw [Json.read?_eq_some_iff.mpr written]
      exact none
    rw [parse, nothing]

def plainName (name : String) : List Piece :=
  (Bytes.ofChars name.toList).map .byte

theorem text?_plainName (name : String) : Json.text? (plainName name) = some name := by
  have denotes := Denotes.nil.behind name.toList
  rw [List.append_nil, List.append_nil] at denotes
  exact Json.text?_eq_some_iff.mpr denotes

section PlainMembers

def plainMembers (id entries : Json) : List (List Piece × Json) :=
  [(plainName "id", id), (plainName "stationIds", entries)]

variable (id entries : Json)

theorem sole_id_plainMembers : Sole "id" id (plainMembers id entries) :=
  valuesOf_eq_singleton_iff.mp (by simp [valuesOf, plainMembers, text?_plainName])

theorem sole_stationIds_plainMembers : Sole "stationIds" entries (plainMembers id entries) :=
  valuesOf_eq_singleton_iff.mp (by simp [valuesOf, plainMembers, text?_plainName])

theorem named_plainMembers : Named (plainMembers id entries) :=
  named_iff.mp (by simp [plainMembers, text?_plainName])

end PlainMembers

/-- Of entries of every kind the plain bytes are kept. -/
theorem parse_entries_mixed :
    let payload :=
      "\x7b\x22id\x22:0,\x22stationIds\x22:[1,256,-1,2.0,\x222\x22,[3],2,1]\x7d".toUTF8.toList
    parse payload = .ok (.readings [1, 2, 1]) := by
  intro payload
  let entries : List Json :=
    [plain [1], plain [2, 5, 6], .number ⟨true, [1], [], none⟩, .number ⟨false, [2], [0], none⟩,
      .string [.byte 50], .array [plain [3]], plain [2], plain [1]]
  have written : Text (.object (plainMembers (plain [0]) (.array entries))) payload :=
    Json.Grammar.text_of_tokens? (by decide +kernel)
  have held : ∀ entry ∈ entries, Held entryDepth entry :=
    Json.holdsItems_eq_true_iff.mp (by decide +kernel)
  exact (parse_entries written (sole_id_plainMembers _ _) (sole_stationIds_plainMembers _ _)).1
    ⟨named_plainMembers _ _, held⟩

/-- One number that no double can hold costs the request. -/
theorem parse_ne_out_of_range :
    let payload := "\x7b\x22id\x22:0,\x22stationIds\x22:[1,1e400]\x7d".toUTF8.toList
    let entries : List Json := [plain [1], .number ⟨false, [1], [], some (false, [4, 0, 0])⟩]
    let members := plainMembers (plain [0]) (.array entries)
    Text (.object members) payload ∧ Sole "id" (plain [0]) members ∧
      Sole "stationIds" (.array entries) members ∧ entries.filterMap plainByte? = [1] ∧
      parse payload ≠ .ok (.readings [1]) := by
  intro payload entries members
  have refused : (parse payload).toOption ≠ some (.readings [1]) := by decide +kernel
  exact ⟨Json.Grammar.text_of_tokens? (by decide +kernel), sole_id_plainMembers _ _,
    sole_stationIds_plainMembers _ _, rfl,
    fun parsed => refused (congrArg Except.toOption parsed)⟩

/-! ## What is skipped -/

inductive Skipped : Json → Json → Prop where
  | mk {members : List (List Piece × Json)} {key : List Piece} {value : Json}
      (member : (key, value) ∈ members) (notId : ¬ Denotes key "id".toList)
      (notStationIds : ¬ Denotes key "stationIds".toList) : Skipped value (.object members)

theorem Asks.encoded {request : Request} {id entries : Json} (asks : Asks request id entries) :
    (∀ scalar ∈ id.scalars, Encoded scalar) ∧
      ∀ scalar ∈ entries.scalars, Encoded scalar := by
  have number (digits : List Nat) : ∀ scalar ∈ (plain digits).scalars, Encoded scalar :=
    List.forall_mem_singleton.mpr trivial
  have items {entries : List Json} (held : ∀ entry ∈ entries, Held entryDepth entry) :
      ∀ scalar ∈ (Json.array entries).scalars, Encoded scalar := by
    intro scalar inside
    obtain ⟨entry, listed, own⟩ := Json.mem_itemScalars.mp inside
    exact ((held entry listed).2 scalar own).encoded
  cases asks with
  | stations => exact ⟨number [1], List.forall_mem_singleton.mpr trivial⟩
  | stationsListed held => exact ⟨number [1], items held⟩
  | readings held => exact ⟨number [0], items held⟩

/-- Names are UTF-8, and so are all values if those of the fields and the skipped ones are. -/
theorem encoded_members {members : List (List Piece × Json)}
    (named : Named members)
    (fields : ∀ member ∈ members,
      Denotes member.1 "id".toList ∨ Denotes member.1 "stationIds".toList →
        ∀ scalar ∈ member.2.scalars, Encoded scalar)
    (rest : ∀ part, Skipped part (.object members) →
      ∀ scalar ∈ part.scalars, Encoded scalar) :
    ∀ scalar ∈ (Json.object members).scalars, Encoded scalar := by
  intro scalar inside
  obtain ⟨⟨key, value⟩, member, rfl | own⟩ := Json.mem_memberScalars.mp inside
  · obtain ⟨chars, denotes⟩ := named _ member
    exact denotes.isUtf8
  · by_cases field : Denotes key "id".toList ∨ Denotes key "stationIds".toList
    · exact fields _ member field scalar own
    · obtain ⟨notId, notStationIds⟩ := not_or.mp field
      exact rest value (.mk member notId notStationIds) scalar own

/-- An accepted value is UTF-8 up to the members that are skipped. -/
theorem Accepted.encoded_iff {request : Request} {value : Json}
    (accepted : Accepted request value) :
    (∀ scalar ∈ value.scalars, Encoded scalar) ↔
      ∀ part, Skipped part value → ∀ scalar ∈ part.scalars, Encoded scalar := by
  constructor
  · rintro all part ⟨member, -, -⟩ scalar inside
    exact all scalar (Json.mem_memberScalars.mpr ⟨_, member, Or.inr inside⟩)
  · intro rest
    cases accepted with
    | both named selected listed asks =>
        obtain ⟨first, second⟩ := asks.encoded
        refine encoded_members named ?_ rest
        rintro member inside (isId | isStationIds)
        · rwa [selected.eq_of_denotes inside isId]
        · rwa [listed.eq_of_denotes inside isStationIds]
    | unlisted named selected absent =>
        obtain ⟨first, -⟩ := Asks.stations.encoded
        refine encoded_members named ?_ rest
        rintro member inside (isId | isStationIds)
        · rwa [selected.eq_of_denotes inside isId]
        · exact absurd isStationIds (absent member inside)
    | pair asks =>
        obtain ⟨first, second⟩ := asks.encoded
        intro scalar inside
        obtain ⟨item, listed, own⟩ := Json.mem_itemScalars.mp inside
        simp only [List.mem_cons, List.not_mem_nil, or_false] at listed
        rcases listed with rfl | rfl
        · exact first scalar own
        · exact second scalar own

/-- What is read as a request is the text of one accepted value, and UTF-8 up to the members that
are skipped. -/
theorem accepted_of_parse {payload : Bytes} {request : Request}
    (parsed : parse payload = .ok request) :
    ∃ value, Text value payload ∧
      (∀ other, Text other payload → other = value) ∧ Accepted request value ∧
      (Bytes.IsUtf8 payload ↔
        ∀ part, Skipped part value → ∀ scalar ∈ part.scalars, Encoded scalar) := by
  obtain ⟨value, written, accepted⟩ := parse_eq_ok_iff.mp parsed
  exact ⟨value, written, fun other found => found.unique written, accepted,
    written.isUtf8_iff.trans accepted.encoded_iff⟩

/-- The members may stand in any order, with others between them and blanks around the object. -/
theorem accepted_of_parse_listed :
    let payload := " \x7b\x22x\x22:\x7b\x7d,\x22stationIds\x22:[7],\x22id\x22:0\x7d ".toUTF8.toList
    parse payload = .ok (.readings [7]) ∧
      ∃ value, Text value payload ∧ Accepted (.readings [7]) value ∧
        ∀ other, Text other payload → other = value := by
  intro payload
  have parsed : parse payload = .ok (.readings [7]) := eq_ok_of_toOption (by decide +kernel)
  obtain ⟨value, written, unique, accepted, -⟩ := accepted_of_parse parsed
  exact ⟨parsed, value, written, accepted, unique⟩

/-- An array is a request, and so is an object with a byte in it that is no UTF-8. -/
theorem parse_pair_and_raw_byte :
    let pair := "[0,[1]]".toUTF8.toList
    let raw := "\x7b\x22id\x22:1,\x22x\x22:\x22".toUTF8.toList ++ 0xFF :: "\x22\x7d".toUTF8.toList
    (parse pair = .ok (.readings [1]) ∧ ∀ members, ¬ Text (.object members) pair) ∧
      parse raw = .ok .stations ∧ ¬ Bytes.IsUtf8 raw := by
  intro pair raw
  have array : Text (.array [plain [0], .array [plain [1]]]) pair :=
    Json.Grammar.text_of_tokens? (by decide +kernel)
  have noObject (members : List (List Piece × Json)) :
      ¬ Text (.object members) pair := by
    intro object
    cases array.unique object
  refine ⟨⟨eq_ok_of_toOption (by decide +kernel), noObject⟩,
    eq_ok_of_toOption (by decide +kernel), ?_⟩
  rw [← Json.isSome_ofUtf8?_iff]
  decide +kernel

end Request

end StationRelay
