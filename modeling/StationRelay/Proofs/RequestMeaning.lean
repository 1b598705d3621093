import StationRelay.Proofs.JsonBlanks
import StationRelay.Proofs.Requests

/-!
# What a request depends on

Of an object with names only the values of `id` and `stationIds` matter, and of
these no blanks.  `Carries` says which values a payload has for them, and `Means`
what two values amount to.  `parse_of_alike` says that payloads with the same
values are read alike, whatever else is in them and wherever it stands.
-/

namespace StationRelay

namespace Request

open Json (Piece Number Held)
open Json.Grammar (Text)

/-! ## The two values -/

/-- The value that goes by a name, if there is one; there are not two. -/
inductive Has (name : String) (members : List (List Piece × Json)) : Option Json → Prop where
  | lacking (absent : Absent name members) : Has name members none
  | holding {value : Json} (sole : Sole name value members) : Has name members (some value)

/-- The payload is an object whose names are texts, with these values for `id` and for
`stationIds`. -/
inductive Carries : Bytes → Option Json → Option Json → Prop where
  | mk {payload : Bytes} {members : List (List Piece × Json)} {id entries : Option Json}
      (written : Text (.object members) payload) (named : Named members)
      (identified : Has "id" members id) (listed : Has "stationIds" members entries) :
      Carries payload id entries

/-- Both values are missing, or there are texts of them that differ in blanks only. -/
inductive Alike : Option Json → Option Json → Prop where
  | lacking : Alike none none
  | written {value other : Json} {first second : Bytes} (text : Text value first)
      (textOther : Text other second) (same : Json.compact first = Json.compact second) :
      Alike (some value) (some other)

theorem Alike.eq {value other : Option Json} (alike : Alike value other) : value = other := by
  cases alike with
  | lacking => rfl
  | written text textOther same => exact congrArg some (text.eq_of_compact_eq textOther same)

inductive Identifies : Json → Nat → Prop where
  | mk {digits : List Nat} (fits : Number.ofDigits digits < Nat.pow 2 64) :
      Identifies (plain digits) (Number.ofDigits digits)

/-- Nothing and `null` list no stations; an array lists its entries if every one can be held. -/
inductive Lists : Option Json → Option (List Json) → Prop where
  | lacking : Lists none none
  | null : Lists (some .null) none
  | array {entries : List Json} (held : ∀ entry ∈ entries, Held entryDepth entry) :
      Lists (some (.array entries)) (some entries)

/-- What the two values amount to. -/
inductive Means : Option Json → Option Json → Except RequestError Request → Prop where
  | noId {entries : Option Json} : Means none entries (.error .notJson)
  | badId {id : Json} {entries : Option Json} (bad : ∀ n, ¬ Identifies id n) :
      Means (some id) entries (.error .notJson)
  | badEntries {id : Json} {entries : Option Json} (bad : ∀ listed, ¬ Lists entries listed) :
      Means (some id) entries (.error .notJson)
  | stations {id : Json} {entries : Option Json} {listed : Option (List Json)}
      (identifies : Identifies id 1) (lists : Lists entries listed) :
      Means (some id) entries (.ok .stations)
  | unknown {id : Json} {entries : Option Json} {listed : Option (List Json)} {n : Nat}
      (identifies : Identifies id n) (large : 2 ≤ n) (lists : Lists entries listed) :
      Means (some id) entries (.error (.unknownId n))
  | missing {id : Json} {entries : Option Json} (identifies : Identifies id 0)
      (lists : Lists entries none) : Means (some id) entries (.error .missingStations)
  | readings {id : Json} {entries : Option Json} {listed : List Json}
      (identifies : Identifies id 0) (lists : Lists entries (some listed)) :
      Means (some id) entries (.ok (.readings (listed.filterMap plainByte?)))

/-! ## From the values to the request -/

/-- What the value of `stationIds` lists, if there is one. -/
def listed? : Option Json → Option (Option (List Json))
  | none => some none
  | some entries => entries? entries

theorem id?_eq_some_iff_identifies {id : Json} {n : Nat} :
    id? id = some n ↔ Identifies id n := by
  constructor
  · intro found
    cases id with
    | number literal =>
        obtain ⟨noMore, rfl, fits⟩ := word?_eq_some_iff.mp found
        rw [isPlain_iff.mp noMore]
        exact .mk fits
    | _ => cases found
  · rintro ⟨fits⟩
    exact word?_eq_some_iff.mpr ⟨rfl, rfl, fits⟩

theorem listed?_eq_some_iff {entries : Option Json} {listed : Option (List Json)} :
    listed? entries = some listed ↔ Lists entries listed := by
  cases entries with
  | none =>
      constructor
      · rintro ⟨⟩
        exact .lacking
      · rintro ⟨⟩
        rfl
  | some value =>
      rw [listed?, entries?_eq_some_iff]
      constructor
      · rintro (⟨rfl, rfl⟩ | ⟨items, rfl, rfl, held⟩)
        · exact .null
        · exact .array held
      · rintro (_ | _ | held)
        · exact Or.inl ⟨rfl, rfl⟩
        · exact Or.inr ⟨_, rfl, rfl, held⟩

def Fields.ofFound? (id entries : Option Json) : Option Fields := do
  let id ← id
  let n ← id? id
  let listed ← listed? entries
  return ⟨n, listed⟩

/-- Nothing else in an object matters, nor does the order of its members. -/
theorem Fields.ofMembers?_eq_ofFound? {members : List (List Piece × Json)}
    {id entries : Option Json} (named : Named members) (identified : Has "id" members id)
    (listed : Has "stationIds" members entries) :
    Fields.ofMembers? members = Fields.ofFound? id entries := by
  rw [Fields.ofMembers?, if_pos (named_iff.mpr named)]
  cases identified with
  | lacking absent =>
      rw [valuesOf_eq_nil_iff.mpr absent]
      rfl
  | @holding value sole =>
      rw [valuesOf_eq_singleton_iff.mpr sole]
      cases listed with
      | lacking absent =>
          rw [valuesOf_eq_nil_iff.mpr absent]
          change (id? value).map _ = (id? value).bind _
          cases id? value <;> rfl
      | holding soleEntries =>
          rw [valuesOf_eq_singleton_iff.mpr soleEntries]
          rfl

def answer : Option Fields → Except RequestError Request
  | none => .error .notJson
  | some fields => ofFields fields

theorem parse_eq_answer (payload : Bytes) :
    parse payload = answer (Json.read? payload >>= Fields.ofJson?) := by
  unfold parse answer
  cases Json.read? payload >>= Fields.ofJson? <;> rfl

theorem means_answer (id entries : Option Json) :
    Means id entries (answer (Fields.ofFound? id entries)) := by
  cases id with
  | none => exact .noId
  | some id =>
      cases identified : id? id with
      | none =>
          have nothing : Fields.ofFound? (some id) entries = none := by
            simp [Fields.ofFound?, identified]
          rw [nothing]
          refine .badId fun n identifies => ?_
          rw [id?_eq_some_iff_identifies.mpr identifies] at identified
          cases identified
      | some n =>
          cases stated : listed? entries with
          | none =>
              have nothing : Fields.ofFound? (some id) entries = none := by
                simp [Fields.ofFound?, stated]
              rw [nothing]
              refine .badEntries fun listed lists => ?_
              rw [listed?_eq_some_iff.mpr lists] at stated
              cases stated
          | some listed =>
              have found : Fields.ofFound? (some id) entries = some ⟨n, listed⟩ := by
                simp [Fields.ofFound?, identified, stated]
              have identifies := id?_eq_some_iff_identifies.mp identified
              have lists := listed?_eq_some_iff.mp stated
              rw [found, answer, ofFields, stationByte?_eq_plainByte?]
              rcases n with _ | _ | n
              · rw [if_neg Nat.zero_ne_one, if_pos rfl]
                cases listed with
                | none => exact .missing identifies lists
                | some entries => exact .readings identifies lists
              · rw [if_pos rfl]
                exact .stations identifies lists
              · rw [if_neg (by simp), if_neg (by simp)]
                exact .unknown identifies (Nat.le_add_left 2 n) lists

/-- What is read of a payload is what the two values in it mean. -/
theorem Carries.parse_eq {payload : Bytes} {id entries : Option Json}
    (carries : Carries payload id entries) :
    parse payload = answer (Fields.ofFound? id entries) := by
  obtain ⟨written, named, identified, listed⟩ := carries
  rw [parse_eq_answer, Json.read?_eq_some_iff.mpr written,
    ← Fields.ofMembers?_eq_ofFound? named identified listed]
  rfl

/-- Objects with the same `id` and the same `stationIds`, up to blanks, are read alike, whatever
other members they have and in which order; and what is read is what the two values mean. -/
theorem parse_of_alike {first second : Bytes} {id entries idOther entriesOther : Option Json}
    (carries : Carries first id entries) (carriesOther : Carries second idOther entriesOther)
    (sameId : Alike id idOther) (sameEntries : Alike entries entriesOther) :
    parse first = parse second ∧ Means id entries (parse first) := by
  rw [carries.parse_eq, carriesOther.parse_eq, sameId.eq, sameEntries.eq]
  exact ⟨rfl, means_answer _ _⟩

/-- Another order, an escape in a name, an object in between and other blanks change nothing. -/
theorem parse_of_alike_reordered :
    let first := " \x7b\x22id\x22:0,\x22stationIds\x22:[1, 2]\x7d".toUTF8.toList
    let second :=
      "\x7b\x22stationIds\x22 : [ 1,2],\x22x\x22:\x7b\x22id\x22:[]\x7d, \x22\\u0069d\x22:0\x7d"
        |>.toUTF8.toList
    let entries := Json.array [plain [1], plain [2]]
    Carries first (some (plain [0])) (some entries) ∧
      Carries second (some (plain [0])) (some entries) ∧
      parse first = parse second ∧ Means (some (plain [0])) (some entries) (parse first) := by
  intro first second entries
  have carries : Carries first (some (plain [0])) (some entries) :=
    .mk (Json.Grammar.text_of_tokens? (by decide +kernel)) (named_plainMembers _ _)
      (.holding (sole_id_plainMembers _ _)) (.holding (sole_stationIds_plainMembers _ _))
  let members : List (List Piece × Json) :=
    [(plainName "stationIds", entries), (plainName "x", .object [(plainName "id", .array [])]),
      ([.unit 105, .byte 100], plain [0])]
  have spelled : Json.text? [.unit 105, .byte 100] = some "id" := by decide +kernel
  have written : Text (.object members) second := Json.Grammar.text_of_tokens? (by decide +kernel)
  have carriesOther : Carries second (some (plain [0])) (some entries) := by
    refine .mk written (named_iff.mp ?_) (.holding (valuesOf_eq_singleton_iff.mp ?_))
      (.holding (valuesOf_eq_singleton_iff.mp ?_)) <;>
      simp [valuesOf, members, text?_plainName, spelled]
  have zero : Text (plain [0]) "0".toUTF8.toList := Json.Grammar.text_of_tokens? (by decide +kernel)
  have apart : Text entries "[1, 2]".toUTF8.toList :=
    Json.Grammar.text_of_tokens? (by decide +kernel)
  have close : Text entries "[ 1,2]".toUTF8.toList :=
    Json.Grammar.text_of_tokens? (by decide +kernel)
  exact ⟨carries, carriesOther, parse_of_alike carries carriesOther (.written zero zero rfl)
    (.written apart close (by decide +kernel))⟩

end Request

end StationRelay
