import StationRelay.Json.Reader
import StationRelay.Proofs.JsonScanning

/-!
# Reading by the grammar

`read?_eq_some_iff`: bytes are read as a value exactly if they are a text of it
by the grammar.  Between the two stand the tokens of a value.  A text is cut into
these tokens (`Text.yields`), bytes that are cut into them are a text
(`exists_value`), and the reader makes the value of its tokens
(`readValue_tokens`) and of no others (`tokens_of_readValue`).
-/

namespace StationRelay

namespace Json

mutual

def tokens : Json → List Token
  | .null => [.null]
  | .bool value => [.bool value]
  | .number literal => [.number literal]
  | .string pieces => [.string pieces]
  | .array items => .openArray :: (itemTokens items ++ [.closeArray])
  | .object members => .openObject :: (memberTokens members ++ [.closeObject])

def itemTokens : List Json → List Token
  | [] => []
  | [item] => tokens item
  | item :: rest => tokens item ++ .comma :: itemTokens rest

def memberTokens : List (List Piece × Json) → List Token
  | [] => []
  | [(key, value)] => .string key :: .colon :: tokens value
  | (key, value) :: rest => .string key :: .colon :: (tokens value ++ .comma :: memberTokens rest)

end

theorem itemTokens_cons {rest : List Json} (item : Json) (nonempty : rest ≠ []) :
    itemTokens (item :: rest) = tokens item ++ .comma :: itemTokens rest := by
  cases rest with
  | nil => exact absurd rfl nonempty
  | cons next others =>
      rw [itemTokens]
      exact nonempty

theorem memberTokens_cons {rest : List (List Piece × Json)} (key : List Piece) (value : Json)
    (nonempty : rest ≠ []) :
    memberTokens ((key, value) :: rest) =
      .string key :: .colon :: (tokens value ++ .comma :: memberTokens rest) := by
  cases rest with
  | nil => exact absurd rfl nonempty
  | cons next others =>
      rw [memberTokens]
      exact nonempty

namespace Grammar

/-! ## From texts to tokens -/

/-- Bytes are cut into tokens, wherever they stand. -/
def Yields (list : List Token) (bytes : Bytes) : Prop :=
  ∀ (before : List Token) (rest : Bytes), Stops rest →
    tokensAfter before (bytes ++ rest) = tokensAfter (list.reverse ++ before) rest

/-- Whatever stands in front of these bytes, no number goes on into them. -/
def Ends (bytes : Bytes) : Prop :=
  ∀ rest, Stops rest → Stops (bytes ++ rest)

theorem ends_cons {b : UInt8} (tail : Bytes)
    (stops : isDigit b = false ∧ b ≠ 0x2E ∧ b ≠ 0x65 ∧ b ≠ 0x45) : Ends (b :: tail) := by
  rintro rest - _ ⟨⟩
  exact stops

theorem Blanks.ends {blanks : Bytes} (blank : Blanks blanks) : Ends blanks := by
  cases blanks with
  | nil => exact fun rest stops => stops
  | cons b tail =>
      refine ends_cons tail ?_
      rcases blank b List.mem_cons_self with rfl | rfl | rfl | rfl <;> decide

namespace Yields

theorem spelled {token : Token} {bytes : Bytes} (spelled : Spelled token bytes) :
    Yields [token] bytes :=
  fun before _ stops => tokensAfter_spelled spelled (Or.inl stops) before

theorem blanks {blanks : Bytes} (blank : Blanks blanks) : Yields [] blanks :=
  fun before rest _ => tokensAfter_blanks blank before rest

theorem append {first second : List Token} {bytes more : Bytes} (front : Yields first bytes)
    (ends : Ends more) (back : Yields second more) :
    Yields (first ++ second) (bytes ++ more) := by
  intro before rest stops
  rw [List.append_assoc, front _ _ (ends rest stops), back _ _ stops, List.reverse_append,
    List.append_assoc]

/-- A token that is no number may stand in front of anything. -/
theorem cons {token : Token} {list : List Token} {bytes more : Bytes}
    (front : Spelled token bytes) (notNumber : ∀ literal, token ≠ .number literal)
    (back : Yields list more) : Yields (token :: list) (bytes ++ more) := by
  intro before rest stops
  rw [List.append_assoc, tokensAfter_spelled front (Or.inr notNumber), back _ _ stops,
    List.reverse_cons, List.append_assoc, List.singleton_append]

theorem behind {list : List Token} {blanks bytes : Bytes} (blank : Blanks blanks)
    (back : Yields list bytes) : Yields list (blanks ++ bytes) := by
  intro before rest stops
  rw [List.append_assoc, tokensAfter_blanks blank]
  exact back before rest stops

theorem between {list : List Token} {before bytes after : Bytes} (middle : Yields list bytes)
    (blank : Blanks before) (blankAfter : Blanks after) :
    Yields list (before ++ (bytes ++ after)) := by
  have trailed := middle.append blankAfter.ends (.blanks blankAfter)
  rw [List.append_nil] at trailed
  exact behind blank trailed

end Yields

theorem Items.ne_nil {items : List Json} {bytes : Bytes} (written : Items items bytes) :
    items ≠ [] := by
  cases written <;> exact List.cons_ne_nil _ _

theorem Members.ne_nil {members : List (List Piece × Json)} {bytes : Bytes}
    (written : Members members bytes) : members ≠ [] := by
  cases written <;> exact List.cons_ne_nil _ _

mutual

theorem Value.yields {value : Json} {bytes : Bytes} :
    Value value bytes → Yields value.tokens bytes
  | .null => .spelled .null
  | .trueName => .spelled .trueName
  | .falseName => .spelled .falseName
  | .number written => .spelled (.number written)
  | .string written => .spelled (.string written)
  | .emptyArray blank =>
      .cons .openArray nofun
        (.append (.blanks blank) (ends_cons _ (by decide)) (.spelled .closeArray))
  | .array written =>
      .cons .openArray nofun
        (.append written.yields (ends_cons _ (by decide)) (.spelled .closeArray))
  | .emptyObject blank =>
      .cons .openObject nofun
        (.append (.blanks blank) (ends_cons _ (by decide)) (.spelled .closeObject))
  | .object written =>
      .cons .openObject nofun
        (.append written.yields (ends_cons _ (by decide)) (.spelled .closeObject))

theorem Text.yields {value : Json} {bytes : Bytes} :
    Text value bytes → Yields value.tokens bytes
  | .mk blank written blankAfter => written.yields.between blank blankAfter

theorem Items.yields {items : List Json} {bytes : Bytes} :
    Items items bytes → Yields (itemTokens items) bytes
  | .one written => written.yields
  | .more written follow => by
      rw [itemTokens_cons _ follow.ne_nil]
      exact written.yields.append (ends_cons _ (by decide)) (.cons .comma nofun follow.yields)

theorem Member.yields {key : List Piece} {value : Json} {bytes : Bytes} :
    Member key value bytes → Yields (.string key :: .colon :: value.tokens) bytes
  | .mk blank named blankAfter written =>
      .behind blank (.cons (.string named) nofun
        (.behind blankAfter (.cons .colon nofun written.yields)))

theorem Members.yields {members : List (List Piece × Json)} {bytes : Bytes} :
    Members members bytes → Yields (memberTokens members) bytes
  | .one written => written.yields
  | .more written follow => by
      rw [memberTokens_cons _ _ follow.ne_nil]
      exact written.yields.append (ends_cons _ (by decide)) (.cons .comma nofun follow.yields)

end

theorem tokens?_of_text {value : Json} {bytes : Bytes} (written : Text value bytes) :
    tokens? bytes = some value.tokens := by
  have yields := written.yields [] [] nofun
  rw [List.append_nil, List.append_nil] at yields
  rw [tokens?, yields, tokensAfter_eq]
  simp

/-! ## From tokens to texts -/

/-- Tokens one behind the other, each with the blanks that follow it. -/
inductive Lexed : List Token → Bytes → Prop where
  | nil : Lexed [] []
  | cons {token : Token} {list : List Token} {bytes blanks more : Bytes}
      (spelled : Spelled token bytes) (blank : Blanks blanks) (rest : Lexed list more) :
      Lexed (token :: list) (bytes ++ (blanks ++ more))

theorem exists_lexed {before list : List Token} {bytes : Bytes}
    (found : tokensAfter before bytes = some list) :
    ∃ new blanks more, list = before.reverse ++ new ∧ Blanks blanks ∧ Lexed new more ∧
      bytes = blanks ++ more := by
  induction size : bytes.length using Nat.strongRecOn generalizing before bytes with
  | ind length ih =>
      have split := (List.takeWhile_append_dropWhile (p := isBlank) (l := bytes)).symm
      have blank := blanks_takeWhile bytes
      rw [tokensAfter_eq] at found
      cases rest : bytes.dropWhile isBlank with
      | nil =>
          rw [rest] at found split
          cases found
          exact ⟨[], _, [], by simp, blank, .nil, split⟩
      | cons b tail =>
          rw [rest] at found split
          dsimp only at found
          cases next : Token.next? (b :: tail) with
          | none =>
              rw [next] at found
              cases found
          | some result =>
              obtain ⟨token, after⟩ := result
              rw [next] at found
              dsimp only at found
              have shorter : after.length < length := by
                have less := Token.next?_lt next
                have le := length_dropWhile_le isBlank bytes
                rw [rest] at le
                omega
              obtain ⟨new, blanks, more, rfl, inner, lexed, same⟩ := ih _ shorter found rfl
              obtain ⟨front, spelled, taken⟩ := exists_spelled next
              refine ⟨token :: new, _, _, by simp, blank, .cons spelled inner lexed, ?_⟩
              rw [← same, ← taken]
              exact split

theorem Lexed.exists_append {first second : List Token} {bytes : Bytes}
    (lexed : Lexed (first ++ second) bytes) :
    ∃ front back, Lexed first front ∧ Lexed second back ∧ bytes = front ++ back := by
  induction first generalizing bytes with
  | nil => exact ⟨[], bytes, .nil, lexed, rfl⟩
  | cons token first ih =>
      cases lexed with
      | cons spelled blank rest =>
          obtain ⟨front, back, left, right, rfl⟩ := ih rest
          exact ⟨_, back, .cons spelled blank left, right, by simp⟩

theorem Lexed.exists_cons {token : Token} {list : List Token} {bytes : Bytes}
    (lexed : Lexed (token :: list) bytes) :
    ∃ front blanks more, Spelled token front ∧ Blanks blanks ∧ Lexed list more ∧
      bytes = front ++ (blanks ++ more) := by
  cases lexed with
  | cons spelled blank rest => exact ⟨_, _, _, spelled, blank, rest, rfl⟩

theorem Lexed.exists_single {token : Token} {bytes : Bytes} (lexed : Lexed [token] bytes) :
    ∃ front blanks, Spelled token front ∧ Blanks blanks ∧ bytes = front ++ blanks := by
  obtain ⟨front, blanks, more, spelled, blank, rest, rfl⟩ := lexed.exists_cons
  cases rest
  exact ⟨front, blanks, spelled, blank, by rw [List.append_nil]⟩

theorem Lexed.exists_member {key : List Piece} {list : List Token} {bytes : Bytes}
    (lexed : Lexed (.string key :: .colon :: list) bytes) :
    ∃ name gap blanks more, Quoted key name ∧ Blanks gap ∧ Blanks blanks ∧ Lexed list more ∧
      bytes = name ++ (gap ++ 0x3A :: (blanks ++ more)) := by
  obtain ⟨name, gap, _, spelled, blank, rest, rfl⟩ := lexed.exists_cons
  obtain ⟨_, blanks, more, divider, blankBehind, follow, rfl⟩ := rest.exists_cons
  cases spelled with
  | string named =>
      cases divider
      exact ⟨name, gap, blanks, more, named, blank, blankBehind, follow, rfl⟩

mutual

/-- The blanks behind the last token are not part of the value. -/
theorem exists_value {bytes : Bytes} : (value : Json) → Lexed value.tokens bytes →
    ∃ front after, Value value front ∧ Blanks after ∧ bytes = front ++ after
  | .null, lexed => by
      obtain ⟨_, after, spelled, blank, rfl⟩ := lexed.exists_single
      cases spelled
      exact ⟨_, after, .null, blank, rfl⟩
  | .bool _, lexed => by
      obtain ⟨_, after, spelled, blank, rfl⟩ := lexed.exists_single
      cases spelled with
      | trueName => exact ⟨_, after, .trueName, blank, rfl⟩
      | falseName => exact ⟨_, after, .falseName, blank, rfl⟩
  | .number _, lexed => by
      obtain ⟨front, after, spelled, blank, rfl⟩ := lexed.exists_single
      cases spelled with
      | number written => exact ⟨front, after, .number written, blank, rfl⟩
  | .string _, lexed => by
      obtain ⟨front, after, spelled, blank, rfl⟩ := lexed.exists_single
      cases spelled with
      | string written => exact ⟨front, after, .string written, blank, rfl⟩
  | .array items, lexed => by
      obtain ⟨_, blanks, _, opening, blank, inside, rfl⟩ := lexed.exists_cons
      obtain ⟨_, _, inner, outer, rfl⟩ := inside.exists_append
      obtain ⟨_, after, closing, blankAfter, rfl⟩ := outer.exists_single
      cases opening
      cases closing
      by_cases empty : items = []
      · subst empty
        cases inner
        exact ⟨_, after, .emptyArray blank, blankAfter, by simp⟩
      · exact ⟨_, after, .array (items_of_lexed items empty blank inner), blankAfter, by simp⟩
  | .object members, lexed => by
      obtain ⟨_, blanks, _, opening, blank, inside, rfl⟩ := lexed.exists_cons
      obtain ⟨_, _, inner, outer, rfl⟩ := inside.exists_append
      obtain ⟨_, after, closing, blankAfter, rfl⟩ := outer.exists_single
      cases opening
      cases closing
      by_cases empty : members = []
      · subst empty
        cases inner
        exact ⟨_, after, .emptyObject blank, blankAfter, by simp⟩
      · exact ⟨_, after, .object (members_of_lexed members empty blank inner), blankAfter, by simp⟩

theorem items_of_lexed {blanks bytes : Bytes} : (items : List Json) → items ≠ [] →
    Blanks blanks → Lexed (itemTokens items) bytes → Items items (blanks ++ bytes)
  | [], empty, _, _ => absurd rfl empty
  | [item], _, blank, lexed => by
      obtain ⟨front, after, written, blankAfter, rfl⟩ := exists_value item lexed
      exact .one (.mk blank written blankAfter)
  | item :: next :: others, _, blank, lexed => by
      rw [itemTokens_cons item (List.cons_ne_nil next others)] at lexed
      obtain ⟨_, _, first, second, rfl⟩ := lexed.exists_append
      obtain ⟨front, after, written, blankAfter, rfl⟩ := exists_value item first
      obtain ⟨_, _, _, divider, blankBehind, more, rfl⟩ := second.exists_cons
      cases divider
      have follow := items_of_lexed (next :: others) (List.cons_ne_nil _ _) blankBehind more
      have whole := Items.more (.mk blank written blankAfter) follow
      simpa using whole

theorem members_of_lexed {blanks bytes : Bytes} : (members : List (List Piece × Json)) →
    members ≠ [] → Blanks blanks → Lexed (memberTokens members) bytes →
      Members members (blanks ++ bytes)
  | [], empty, _, _ => absurd rfl empty
  | [(key, value)], _, blank, lexed => by
      obtain ⟨_, _, _, _, named, blankAfter, blankBehind, more, rfl⟩ := lexed.exists_member
      obtain ⟨front, after, written, last, rfl⟩ := exists_value value more
      exact .one (.mk blank named blankAfter (.mk blankBehind written last))
  | (key, value) :: next :: others, _, blank, lexed => by
      rw [memberTokens_cons key value (List.cons_ne_nil next others)] at lexed
      obtain ⟨_, _, _, _, named, blankAfter, blankBehind, more, rfl⟩ := lexed.exists_member
      obtain ⟨_, _, first, second, rfl⟩ := more.exists_append
      obtain ⟨front, after, written, last, rfl⟩ := exists_value value first
      obtain ⟨_, _, _, divider, blankNext, rest, rfl⟩ := second.exists_cons
      cases divider
      have member := Member.mk blank named blankAfter (.mk blankBehind written last)
      have follow := members_of_lexed (next :: others) (List.cons_ne_nil _ _) blankNext rest
      have whole := Members.more member follow
      simpa using whole

end

theorem text_of_lexed {value : Json} {blanks bytes : Bytes} (blank : Blanks blanks)
    (lexed : Lexed value.tokens bytes) : Text value (blanks ++ bytes) := by
  obtain ⟨front, after, written, blankAfter, rfl⟩ := exists_value value lexed
  exact .mk blank written blankAfter

theorem text_of_tokens? {value : Json} {bytes : Bytes}
    (found : tokens? bytes = some value.tokens) : Text value bytes := by
  obtain ⟨new, blanks, more, same, blank, lexed, rfl⟩ := exists_lexed found
  rw [List.reverse_nil, List.nil_append] at same
  exact text_of_lexed blank (same ▸ lexed)

end Grammar

/-! ## From tokens to values -/

def itemsBefore : List Json → List Token
  | [] => []
  | item :: rest => tokens item ++ .comma :: itemsBefore rest

def membersBefore : List (List Piece × Json) → List Token
  | [] => []
  | (key, value) :: rest =>
    .string key :: .colon :: (tokens value ++ .comma :: membersBefore rest)

/-- The tokens read so far, of the values that are still open. -/
def openTokens : List Open → List Token
  | [] => []
  | .array before :: stack => openTokens stack ++ .openArray :: itemsBefore before.reverse
  | .object before key :: stack =>
    openTokens stack ++ .openObject :: (membersBefore before.reverse ++ [.string key, .colon])

theorem itemsBefore_append (items : List Json) (item : Json) :
    itemsBefore (items ++ [item]) = itemsBefore items ++ (tokens item ++ [.comma]) := by
  induction items with
  | nil => rfl
  | cons first rest ih => simp [itemsBefore, ih]

theorem membersBefore_append (members : List (List Piece × Json)) (key : List Piece)
    (value : Json) :
    membersBefore (members ++ [(key, value)]) =
      membersBefore members ++ .string key :: .colon :: (tokens value ++ [.comma]) := by
  induction members with
  | nil => rfl
  | cons first rest ih => simp [membersBefore, ih]

theorem itemTokens_append (items : List Json) (item : Json) :
    itemTokens (items ++ [item]) = itemsBefore items ++ tokens item := by
  induction items with
  | nil => rw [List.nil_append, itemTokens]; rfl
  | cons first rest ih =>
      rw [List.cons_append, itemTokens_cons first (by simp), ih, itemsBefore]
      simp

theorem memberTokens_append (members : List (List Piece × Json)) (key : List Piece)
    (value : Json) :
    memberTokens (members ++ [(key, value)]) =
      membersBefore members ++ .string key :: .colon :: tokens value := by
  induction members with
  | nil => rw [List.nil_append, memberTokens]; rfl
  | cons first rest ih =>
      obtain ⟨name, other⟩ := first
      rw [List.cons_append, memberTokens_cons name other (by simp), ih, membersBefore]
      simp

mutual

/-- What a reader has read and what it still reads are together the tokens of its value. -/
theorem tokens_of_readValue {result : Json} {stack : List Open} {list : List Token}
    (found : readValue stack list = some result) : openTokens stack ++ list = result.tokens := by
  unfold readValue at found
  split at found
  · exact tokens_of_readAfter found
  · exact tokens_of_readAfter found
  · exact tokens_of_readAfter found
  · exact tokens_of_readAfter found
  · exact tokens_of_readAfter found
  · simpa [openTokens, itemsBefore] using tokens_of_readValue found
  · exact tokens_of_readAfter found
  · simpa [openTokens, membersBefore] using tokens_of_readValue found
  · cases found
termination_by list.length

theorem tokens_of_readAfter {result value : Json} {stack : List Open} {list : List Token}
    (found : readAfter value stack list = some result) :
    openTokens stack ++ (value.tokens ++ list) = result.tokens := by
  unfold readAfter at found
  split at found
  · cases found
    simp [openTokens]
  · simpa [openTokens, itemsBefore_append] using tokens_of_readValue found
  · have closed := tokens_of_readAfter found
    simpa [openTokens, tokens, itemTokens_append] using closed
  · simpa [openTokens, membersBefore_append] using tokens_of_readValue found
  · have closed := tokens_of_readAfter found
    simpa [openTokens, tokens, memberTokens_append] using closed
  · cases found
termination_by list.length

end

theorem head?_tokens (value : Json) : value.tokens.head? ≠ some .closeArray := by
  cases value <;> simp [tokens]

theorem head?_itemTokens {items : List Json} (nonempty : items ≠ []) (rest : List Token) :
    (itemTokens items ++ rest).head? ≠ some .closeArray := by
  have whole (item : Json) (more : List Token) :
      (tokens item ++ more).head? ≠ some .closeArray := by
    have head := head?_tokens item
    cases list : tokens item with
    | nil => cases item <;> simp [tokens] at list
    | cons token others =>
        rw [list] at head
        exact head
  match items with
  | [] => exact absurd rfl nonempty
  | [item] =>
      rw [itemTokens]
      exact whole item rest
  | item :: next :: others =>
      rw [itemTokens_cons item (List.cons_ne_nil next others), List.append_assoc]
      exact whole item _

theorem head?_memberTokens {members : List (List Piece × Json)} (nonempty : members ≠ [])
    (rest : List Token) : (memberTokens members ++ rest).head? ≠ some .closeObject := by
  match members with
  | [] => exact absurd rfl nonempty
  | [(key, value)] => simp [memberTokens]
  | (key, value) :: next :: others =>
      simp [memberTokens_cons key value (List.cons_ne_nil next others)]

theorem readValue_openArray {stack : List Open} {list : List Token}
    (other : list.head? ≠ some .closeArray) :
    readValue stack (.openArray :: list) = readValue (.array [] :: stack) list := by
  rw [readValue]
  rintro rest rfl
  exact other rfl

/-- Reads on where a member must start. -/
def readMember (stack : List Open) (before : List (List Piece × Json)) :
    List Token → Option Json
  | .string key :: .colon :: rest => readValue (.object before key :: stack) rest
  | _ => none

theorem readValue_openObject {stack : List Open} {list : List Token}
    (other : list.head? ≠ some .closeObject) :
    readValue stack (.openObject :: list) = readMember stack [] list := by
  unfold readMember
  split
  · rw [readValue]
  · rename_i noMember
    unfold readValue
    split
    case h_7 same =>
      cases same
      exact absurd rfl other
    case h_8 same => exact absurd (List.cons.inj same).2 (noMember _ _)
    case h_9 => rfl
    all_goals
      rename_i same
      cases same

theorem readAfter_comma {stack : List Open} {value : Json} {key : List Piece}
    {before : List (List Piece × Json)} {list : List Token} :
    readAfter value (.object before key :: stack) (.comma :: list) =
      readMember stack ((key, value) :: before) list := by
  unfold readMember
  split
  · rw [readAfter]
  · rename_i noMember
    rw [readAfter]
    all_goals
      intros
      simp_all

mutual

theorem readValue_tokens (stack : List Open) (rest : List Token) : (value : Json) →
    readValue stack (value.tokens ++ rest) = readAfter value stack rest
  | .null => by rw [tokens, List.singleton_append, readValue]
  | .bool _ => by rw [tokens, List.singleton_append, readValue]
  | .number _ => by rw [tokens, List.singleton_append, readValue]
  | .string _ => by rw [tokens, List.singleton_append, readValue]
  | .array items => by
      rw [tokens, List.cons_append, List.append_assoc, List.singleton_append]
      by_cases empty : items = []
      · subst empty
        rw [itemTokens, List.nil_append, readValue]
      · rw [readValue_openArray (head?_itemTokens empty _),
          readValue_items stack [] rest items empty, List.reverse_nil, List.nil_append]
  | .object members => by
      rw [tokens, List.cons_append, List.append_assoc, List.singleton_append]
      by_cases empty : members = []
      · subst empty
        rw [memberTokens, List.nil_append, readValue]
      · rw [readValue_openObject (head?_memberTokens empty _),
          readMember_members stack [] rest members empty, List.reverse_nil, List.nil_append]

theorem readValue_items (stack : List Open) (before : List Json) (rest : List Token) :
    (items : List Json) → items ≠ [] →
    readValue (.array before :: stack) (itemTokens items ++ .closeArray :: rest) =
      readAfter (.array (before.reverse ++ items)) stack rest
  | [], empty => absurd rfl empty
  | [item], _ => by
      rw [itemTokens, readValue_tokens, readAfter]
      simp
  | item :: next :: others, _ => by
      rw [itemTokens_cons item (List.cons_ne_nil next others), List.append_assoc,
        readValue_tokens, List.cons_append, readAfter,
        readValue_items stack (item :: before) rest (next :: others) (List.cons_ne_nil _ _)]
      simp

theorem readMember_members (stack : List Open) (before : List (List Piece × Json))
    (rest : List Token) : (members : List (List Piece × Json)) → members ≠ [] →
    readMember stack before (memberTokens members ++ .closeObject :: rest) =
      readAfter (.object (before.reverse ++ members)) stack rest
  | [], empty => absurd rfl empty
  | [(key, value)], _ => by
      rw [memberTokens, List.cons_append, List.cons_append, readMember, readValue_tokens,
        readAfter]
      simp
  | (key, value) :: next :: others, _ => by
      rw [memberTokens_cons key value (List.cons_ne_nil next others), List.cons_append,
        List.cons_append, readMember, List.append_assoc, readValue_tokens, List.cons_append,
        readAfter_comma,
        readMember_members stack ((key, value) :: before) rest (next :: others)
          (List.cons_ne_nil _ _)]
      simp

end

/-- Exactly the texts of a value by the grammar are read as that value. -/
theorem read?_eq_some_iff {bytes : Bytes} {value : Json} :
    read? bytes = some value ↔ Grammar.Text value bytes := by
  simp only [read?, Option.bind_eq_bind, Option.bind_eq_some_iff]
  constructor
  · rintro ⟨list, cut, read⟩
    have same : list = value.tokens := tokens_of_readValue read
    rw [same] at cut
    exact Grammar.text_of_tokens? cut
  · intro written
    refine ⟨value.tokens, Grammar.tokens?_of_text written, ?_⟩
    have whole := readValue_tokens [] [] value
    rwa [List.append_nil] at whole

/-- A text is the text of one value only. -/
theorem Grammar.Text.unique {value other : Json} {bytes : Bytes} (first : Grammar.Text value bytes)
    (second : Grammar.Text other bytes) : value = other := by
  have read := read?_eq_some_iff.mpr first
  rw [read?_eq_some_iff.mpr second] at read
  exact (Option.some.inj read).symm

end Json

end StationRelay
