import StationRelay.Link

/-!
# The mailboxes behind links

`Links.mailboxes` forgets who holds the links of a table and keeps what is
behind them.  Holding a link and letting it go changes no mailbox, and every
other operation acts on the mailbox of its own link.  `Mailbox.Records` ties a
mailbox to its history: as long as it is open, what it accepted is what was
taken out of it followed by what is still inside.
-/

namespace StationRelay

section Numbers

variable {α : Type} {list : List α} {index other : Nat} {value result : α}

theorem found_set (found : (list.set index value)[other]? = some result) :
    index = other ∧ result = value ∨ index ≠ other ∧ list[other]? = some result := by
  rw [List.getElem?_set] at found
  by_cases same : index = other
  · rw [if_pos same] at found
    split at found
    · cases found
      exact Or.inl ⟨same, rfl⟩
    · cases found
  · rw [if_neg same] at found
    exact Or.inr ⟨same, found⟩

theorem found_concat (found : (list ++ [value])[other]? = some result) :
    list[other]? = some result ∨ other = list.length ∧ result = value := by
  rcases Nat.lt_or_ge other list.length with old | new
  · rw [List.getElem?_append_left old] at found
    exact Or.inl found
  · rw [List.getElem?_append_right new, List.getElem?_singleton] at found
    split at found
    · cases found
      exact Or.inr ⟨by omega, rfl⟩
    · cases found

theorem kept_concat (found : list[other]? = some result) :
    (list ++ [value])[other]? = some result := by
  rw [List.getElem?_append_left (List.getElem?_eq_some_iff.mp found).1]
  exact found

end Numbers

namespace Links

variable {α : Type}

def mailboxes (links : Links α) : List (Mailbox α) :=
  links.table.map Link.mailbox

@[simp] theorem length_mailboxes (links : Links α) :
    links.mailboxes.length = links.table.length :=
  List.length_map ..

theorem mailboxes_getElem? (links : Links α) (id : LinkId) :
    links.mailboxes[id]? = (links.get? id).map Link.mailbox :=
  List.getElem?_map ..

/-- A change of a link that acts on its mailbox acts on that mailbox only. -/
theorem mailboxes_modify (links : Links α) (id : LinkId) {change : Link α → Link α}
    {effect : Mailbox α → Mailbox α}
    (acts : ∀ link, (change link).mailbox = effect link.mailbox) :
    (links.modify id change).mailboxes = links.mailboxes.modify id effect := by
  apply List.ext_getElem?
  intro other
  rw [mailboxes_getElem?, get?_modify, List.getElem?_modify, mailboxes_getElem?]
  by_cases same : id = other
  · simp only [if_pos same]
    cases links.get? other with
    | none => rfl
    | some link => exact congrArg some (acts link)
  · simp [if_neg same]

/-- A change of the holders of a link is not seen in any mailbox. -/
theorem mailboxes_modify_holders (links : Links α) (id : LinkId) {change : Link α → Link α}
    (same : ∀ link, (change link).mailbox = link.mailbox) :
    (links.modify id change).mailboxes = links.mailboxes := by
  rw [@mailboxes_modify α links id change (fun mailbox => mailbox) same]
  exact List.modify_id ..

@[simp] theorem mailboxes_create (links : Links α) (capacity : Nat) :
    (links.create capacity).mailboxes = links.mailboxes ++ [Mailbox.ofCapacity capacity] := by
  simp [mailboxes, create]

@[simp] theorem mailboxes_hold (links : Links α) (id : LinkId) :
    (links.hold id).mailboxes = links.mailboxes :=
  links.mailboxes_modify_holders id fun _ => rfl

@[simp] theorem mailboxes_release (links : Links α) (id : LinkId) :
    (links.release id).mailboxes = links.mailboxes :=
  links.mailboxes_modify_holders id fun _ => rfl

@[simp] theorem mailboxes_post (links : Links α) (id : LinkId) (item : α) :
    (links.post id item).mailboxes = links.mailboxes.modify id (·.post item) :=
  links.mailboxes_modify id fun _ => rfl

@[simp] theorem mailboxes_take (links : Links α) (id : LinkId) :
    (links.take id).mailboxes = links.mailboxes.modify id Mailbox.drop :=
  links.mailboxes_modify id fun _ => rfl

@[simp] theorem mailboxes_closeMailbox (links : Links α) (id : LinkId) :
    (links.closeMailbox id).mailboxes = links.mailboxes.modify id Mailbox.close :=
  links.mailboxes_modify id fun _ => rfl

theorem mailboxes_closeMailbox_create (links : Links α) (capacity : Nat) :
    (((links.create capacity).release links.nextId).closeMailbox links.nextId).mailboxes =
      links.mailboxes ++ [(Mailbox.ofCapacity capacity).close] := by
  rw [mailboxes_closeMailbox, mailboxes_release, mailboxes_create, nextId, ← length_mailboxes]
  exact List.modifyTailIdx_add _ 0 links.mailboxes [Mailbox.ofCapacity capacity]

/-- Changes that agree on the link with a number change a table alike. -/
theorem modify_congr {links : Links α} {id : LinkId} {change other : Link α → Link α}
    (same : ∀ link, links.get? id = some link → change link = other link) :
    links.modify id change = links.modify id other := by
  unfold modify
  congr 1
  apply List.ext_getElem?
  intro index
  rw [List.getElem?_modify, List.getElem?_modify]
  by_cases here : id = index
  · subst here
    cases found : links.table[id]? with
    | none => rfl
    | some link => simpa using same link found
  · simp [here]

/-- A post that the mailbox does not accept changes nothing. -/
theorem post_eq_self {links : Links α} {id : LinkId} (item : α)
    (refused : ∀ link, links.get? id = some link → ¬ link.mailbox.Accepts) :
    links.post id item = links := by
  have same : links.post id item = links.modify id fun link => link :=
    modify_congr fun link found => by rw [Mailbox.post, if_neg (refused link found)]
  rw [same]
  exact congrArg mk (List.modify_id ..)

/-- Who holds a link while posting to it leaves nothing but the item behind. -/
theorem release_post_hold (links : Links α) (id : LinkId) (item : α) :
    ((links.hold id).post id item).release id = links.post id item := by
  unfold hold post release modify
  simp only [List.modify_modify_eq]
  rfl

/-- Whether a post succeeds is a matter of the mailbox. -/
theorem accepts_eq (links : Links α) (id : LinkId) :
    links.accepts id = (links.mailboxes[id]?).any fun mailbox => decide mailbox.Accepts := by
  rw [mailboxes_getElem?]
  unfold accepts
  cases links.get? id <;> rfl

theorem items_eq (links : Links α) (id : LinkId) :
    links.items id = ((links.mailboxes[id]?).map Mailbox.items).getD [] := by
  rw [mailboxes_getElem?]
  unfold items
  cases links.get? id <;> rfl

end Links

/-! ## Histories -/

namespace Mailbox

variable {α : Type} {mailbox : Mailbox α} {accepted taken : List α}

/-- The mailbox after these items were accepted and those were taken out. -/
structure Records (mailbox : Mailbox α) (accepted taken : List α) : Prop where
  kept : mailbox.isOpen = true → accepted = taken ++ mailbox.items
  prefixed : taken <+: accepted
  emptied : mailbox.isOpen = false → mailbox.items = []
  bounded : mailbox.items.length ≤ mailbox.capacity

theorem post_of_not_accepts (refused : ¬ mailbox.Accepts) (item : α) :
    mailbox.post item = mailbox :=
  if_neg refused

namespace Records

theorem ofCapacity (capacity : Nat) : (ofCapacity capacity : Mailbox α).Records [] [] :=
  ⟨fun _ => rfl, List.prefix_refl [], fun _ => rfl, Nat.zero_le capacity⟩

variable (records : mailbox.Records accepted taken)

include records

theorem post (item : α) :
    (mailbox.post item).Records (accepted ++ if mailbox.Accepts then [item] else []) taken := by
  by_cases accepts : mailbox.Accepts
  · obtain ⟨isOpen, room⟩ := accepts
    rw [Mailbox.post, if_pos ⟨isOpen, room⟩, if_pos ⟨isOpen, room⟩]
    constructor
    · intro _
      change accepted ++ [item] = taken ++ (mailbox.items ++ [item])
      rw [records.kept isOpen, List.append_assoc]
    · exact records.prefixed.trans (List.prefix_append accepted [item])
    · intro shut
      change mailbox.isOpen = false at shut
      rw [isOpen] at shut
      cases shut
    · change (mailbox.items ++ [item]).length ≤ mailbox.capacity
      rw [List.length_append]
      exact room
  · rw [post_of_not_accepts accepts, if_neg accepts, List.append_nil]
    exact records

theorem drop {item : α} (first : mailbox.items.head? = some item) :
    mailbox.drop.Records accepted (taken ++ [item]) := by
  obtain ⟨rest, items⟩ := List.head?_eq_some_iff.mp first
  have isOpen : mailbox.isOpen = true := by
    cases shut : mailbox.isOpen with
    | true => rfl
    | false =>
        rw [records.emptied shut] at items
        cases items
  have kept : accepted = taken ++ [item] ++ rest := by
    rw [records.kept isOpen, items, List.append_assoc, List.singleton_append]
  constructor
  · intro _
    change accepted = taken ++ [item] ++ mailbox.items.tail
    rw [items, List.tail_cons]
    exact kept
  · exact kept ▸ List.prefix_append ..
  · intro shut
    change mailbox.isOpen = false at shut
    rw [isOpen] at shut
    cases shut
  · change mailbox.items.tail.length ≤ mailbox.capacity
    rw [List.length_tail]
    exact Nat.le_trans (Nat.sub_le ..) records.bounded

theorem close : mailbox.close.Records accepted taken :=
  ⟨nofun, records.prefixed, fun _ => rfl, Nat.zero_le mailbox.capacity⟩

/-- A post is refused exactly if the mailbox is full or its receiving end is gone. -/
theorem not_accepts_iff :
    ¬ mailbox.Accepts ↔ mailbox.items.length = mailbox.capacity ∨ mailbox.isOpen = false := by
  have bounded := records.bounded
  unfold Accepts
  cases mailbox.isOpen with
  | true =>
      simp only [true_and, Bool.true_eq_false, or_false]
      omega
  | false => simp

end Records

end Mailbox

namespace Links

variable {α : Type} {index number : LinkId} {links after : Links α}

/-- What one turn of the receiving side does to the mailboxes: nothing, or an item is taken out of
its own, or it goes away.  The propositions say whether it was and is there. -/
inductive Receives (number : LinkId) (links after : Links α) (was is : Prop) : List α → Prop where
  | still (same : after.mailboxes = links.mailboxes) (unchanged : is ↔ was) :
      Receives number links after was is []
  | takes {item : α} (first : links.first? number = some item)
      (dropped : after.mailboxes = links.mailboxes.modify number Mailbox.drop)
      (unchanged : is ↔ was) : Receives number links after was is [item]
  | closes (closed : after.mailboxes = links.mailboxes.modify number Mailbox.close)
      (gone : ¬ is) : Receives number links after was is []

/-- What one turn of somebody else does to the mailboxes: nothing, or it posts an item to one of
them.  A post comes with its answer. -/
inductive Posts (links after : Links α) : List (LinkId × α × Bool) → Prop where
  | still (same : after.mailboxes = links.mailboxes) : Posts links after []
  | posts {link : LinkId} {item : α}
      (posted : after.mailboxes = links.mailboxes.modify link (·.post item)) :
      Posts links after [(link, item, links.accepts link)]

def acceptedAt (index : LinkId) (posted : List (LinkId × α × Bool)) : List α :=
  posted.filterMap fun (link, item, accepted) =>
    if link = index ∧ accepted = true then some item else none

theorem Receives.length {was is : Prop} {taken : List α}
    (receives : Receives number links after was is taken) :
    after.mailboxes.length = links.mailboxes.length := by
  cases receives with
  | still same => rw [same]
  | takes _ changed | closes changed => rw [changed, List.length_modify]

theorem Posts.length {posted : List (LinkId × α × Bool)} (posts : Posts links after posted) :
    after.mailboxes.length = links.mailboxes.length := by
  cases posts with
  | still same => rw [same]
  | posts changed => rw [changed, List.length_modify]

/-- The receiving end of a mailbox exists as long as its side is there. -/
theorem Receives.isOpen_iff {was is : Prop} {taken : List α}
    (receives : Receives number links after was is taken)
    (before : ∀ {mailbox}, links.mailboxes[number]? = some mailbox →
      (mailbox.isOpen = true ↔ was)) {mailbox : Mailbox α}
    (found : after.mailboxes[number]? = some mailbox) : mailbox.isOpen = true ↔ is := by
  cases receives with
  | still same unchanged =>
      rw [same] at found
      exact (before found).trans unchanged.symm
  | takes _ changed unchanged =>
      rw [changed, List.getElem?_modify_eq] at found
      obtain ⟨opened, foundBefore, rfl⟩ := Option.map_eq_some_iff.mp found
      exact (before foundBefore).trans unchanged.symm
  | closes changed gone =>
      rw [changed, List.getElem?_modify_eq] at found
      obtain ⟨opened, foundBefore, rfl⟩ := Option.map_eq_some_iff.mp found
      exact iff_of_false nofun gone

/-- The receiving side leaves the mailboxes of others alone. -/
theorem Receives.mailbox_of_ne {was is : Prop} {taken : List α}
    (receives : Receives number links after was is taken) (other : number ≠ index) :
    after.mailboxes[index]? = links.mailboxes[index]? := by
  cases receives with
  | still same => rw [same]
  | takes _ changed | closes changed => rw [changed, List.getElem?_modify_ne _ _ other]

theorem Posts.isOpen_eq {posted : List (LinkId × α × Bool)} (posts : Posts links after posted)
    (index : LinkId) :
    (after.mailboxes[index]?).map Mailbox.isOpen =
      (links.mailboxes[index]?).map Mailbox.isOpen := by
  cases posts with
  | still same => rw [same]
  | @posts link item changed =>
      rw [changed, List.getElem?_modify]
      cases links.mailboxes[index]? with
      | none => rfl
      | some mailbox =>
          simp only [Option.map_eq_map, Option.map_some, Mailbox.post]
          split
          · split <;> rfl
          · rfl

theorem mailboxes_post_of_refused {links : Links α} {id : LinkId}
    (refused : links.accepts id = false) (item : α) :
    (links.post id item).mailboxes = links.mailboxes := by
  rw [mailboxes_post]
  apply List.ext_getElem?
  intro other
  rw [List.getElem?_modify]
  by_cases same : id = other
  · subst same
    rw [accepts_eq] at refused
    cases found : links.mailboxes[id]? with
    | none => rfl
    | some mailbox =>
        rw [found] at refused
        have full : ¬ mailbox.Accepts := of_decide_eq_false refused
        simp [Mailbox.post_of_not_accepts full]
  · simp [same]

/-- A mailbox without receiving end accepts nothing. -/
theorem Posts.acceptedAt_eq_nil {posted : List (LinkId × α × Bool)}
    (posts : Posts links after posted) {mailbox : Mailbox α}
    (found : links.mailboxes[index]? = some mailbox) (shut : mailbox.isOpen = false) :
    acceptedAt index posted = [] := by
  cases posts with
  | still => rfl
  | @posts link item =>
      by_cases here : link = index
      · subst here
        have refused : links.accepts link = false := by
          rw [accepts_eq, found]
          simp [Mailbox.Accepts, shut]
        simp [acceptedAt, refused]
      · simp [acceptedAt, here]

/-- The link was made with this capacity, and its mailbox has this history; a link that is still to
be made has none. -/
structure Records (index : LinkId) (capacity : Nat) (links : Links α) (accepted taken : List α) :
    Prop where
  mailbox : ∀ {mailbox}, links.mailboxes[index]? = some mailbox →
    mailbox.capacity = capacity ∧ mailbox.Records accepted taken
  silent : links.mailboxes[index]? = none → accepted = [] ∧ taken = []

namespace Records

variable {capacity : Nat} {accepted taken : List α}

theorem empty : Records index capacity (empty : Links α) [] [] :=
  ⟨nofun, fun _ => ⟨rfl, rfl⟩⟩

theorem of_same (records : Records index capacity links accepted taken)
    (same : after.mailboxes[index]? = links.mailboxes[index]?) :
    Records index capacity after accepted taken :=
  ⟨fun found => records.mailbox (same ▸ found), fun none => records.silent (same ▸ none)⟩

theorem concat (records : Records index capacity links accepted taken) {fresh : Mailbox α}
    (created : after.mailboxes = links.mailboxes ++ [fresh]) (sized : fresh.capacity = capacity)
    (unused : fresh.Records [] []) : Records index capacity after accepted taken := by
  rcases Nat.lt_trichotomy index links.mailboxes.length with older | new | later
  · apply records.of_same
    rw [created, List.getElem?_append_left older]
  · subst new
    obtain ⟨rfl, rfl⟩ := records.silent (List.getElem?_eq_none (Nat.le_refl _))
    constructor
    · intro mailbox found
      rw [created, List.getElem?_concat_length] at found
      cases found
      exact ⟨sized, unused⟩
    · exact fun _ => ⟨rfl, rfl⟩
  · have nothing := records.silent (List.getElem?_eq_none (Nat.le_of_lt later))
    constructor
    · intro mailbox found
      rw [created, List.getElem?_append_right (Nat.le_of_lt later)] at found
      have beyond : 0 < index - links.mailboxes.length := Nat.sub_pos_of_lt later
      rw [List.getElem?_eq_none (by exact beyond)] at found
      cases found
    · exact fun _ => nothing

theorem of_modify {fresh gone : List α} (records : Records index capacity links accepted taken)
    {effect : Mailbox α → Mailbox α}
    (modified : after.mailboxes = links.mailboxes.modify index effect)
    (sized : ∀ mailbox, (effect mailbox).capacity = mailbox.capacity)
    (history : ∀ {mailbox}, links.mailboxes[index]? = some mailbox →
      mailbox.Records accepted taken →
        (effect mailbox).Records (accepted ++ fresh) (taken ++ gone))
    (quiet : links.mailboxes[index]? = none → fresh = [] ∧ gone = []) :
    Records index capacity after (accepted ++ fresh) (taken ++ gone) := by
  have changed : after.mailboxes[index]? = (links.mailboxes[index]?).map effect := by
    rw [modified, List.getElem?_modify_eq]
    rfl
  constructor
  · intro mailbox found
    rw [changed] at found
    obtain ⟨before, foundBefore, rfl⟩ := Option.map_eq_some_iff.mp found
    obtain ⟨same, records⟩ := records.mailbox foundBefore
    exact ⟨(sized before).trans same, history foundBefore records⟩
  · intro none
    rw [changed] at none
    have noneBefore := Option.map_eq_none_iff.mp none
    obtain ⟨rfl, rfl⟩ := quiet noneBefore
    rw [List.append_nil, List.append_nil]
    exact records.silent noneBefore

theorem receives {was is : Prop} {gone : List α}
    (records : Records index capacity links accepted taken)
    (receives : Receives number links after was is gone) :
    Records index capacity after accepted (taken ++ if number = index then gone else []) := by
  by_cases own : number = index
  · subst own
    rw [if_pos rfl, ← List.append_nil accepted]
    cases receives with
    | still same =>
        rw [List.append_nil, List.append_nil]
        exact records.of_same (by rw [same])
    | @takes item first dropped =>
        refine records.of_modify dropped (fun _ => rfl) ?_ ?_
        · intro mailbox found history
          rw [List.append_nil]
          apply history.drop
          rw [first?_eq, items_eq, found] at first
          exact first
        · intro none
          rw [first?_eq, items_eq, none] at first
          cases first
    | closes closed =>
        refine records.of_modify closed (fun _ => rfl) ?_ fun _ => ⟨rfl, rfl⟩
        intro mailbox found history
        rw [List.append_nil, List.append_nil]
        exact history.close
  · rw [if_neg own, List.append_nil]
    exact records.of_same (receives.mailbox_of_ne own)

theorem posts {posted : List (LinkId × α × Bool)}
    (records : Records index capacity links accepted taken) (posts : Posts links after posted) :
    Records index capacity after (accepted ++ acceptedAt index posted) taken := by
  cases posts with
  | still same =>
      rw [acceptedAt, List.filterMap_nil, List.append_nil]
      exact records.of_same (by rw [same])
  | @posts link item posted =>
      by_cases own : link = index
      · subst own
        rw [← List.append_nil taken]
        refine records.of_modify posted ?_ ?_ ?_
        · intro mailbox
          unfold Mailbox.post
          split <;> rfl
        · intro mailbox found history
          have accepts : links.accepts link = decide mailbox.Accepts := by
            rw [accepts_eq, found]
            rfl
          have answered := history.post item
          rw [acceptedAt, accepts, List.append_nil]
          by_cases accepted : mailbox.Accepts
          · simpa [accepted] using answered
          · simpa [accepted] using answered
        · intro none
          rw [acceptedAt, accepts_eq, none]
          exact ⟨by simp, rfl⟩
      · have nothing : acceptedAt index [(link, item, links.accepts link)] = [] := by
          simp [acceptedAt, own]
        rw [nothing, List.append_nil]
        apply records.of_same
        rw [posted, List.getElem?_modify_ne _ _ own]

/-! ### What a history says -/

section Reading

variable (records : Records index capacity links accepted taken)

include records

/-- What was taken and what still waits is the beginning of what was accepted. -/
theorem prefixed_items : taken ++ links.items index <+: accepted := by
  rw [items_eq]
  cases found : links.mailboxes[index]? with
  | none =>
      obtain ⟨rfl, rfl⟩ := records.silent found
      exact List.prefix_refl []
  | some mailbox =>
      obtain ⟨_, history⟩ := records.mailbox found
      cases isOpen : mailbox.isOpen with
      | true =>
          rw [history.kept isOpen]
          exact List.prefix_refl _
      | false =>
          simp only [Option.map_some, Option.getD_some, history.emptied isOpen, List.append_nil]
          exact history.prefixed

theorem length_items_le : (links.items index).length ≤ capacity := by
  rw [items_eq]
  cases found : links.mailboxes[index]? with
  | some mailbox =>
      obtain ⟨sized, history⟩ := records.mailbox found
      exact sized ▸ history.bounded
  | none => exact Nat.zero_le capacity

variable {mailbox : Mailbox α} (found : links.mailboxes[index]? = some mailbox)

include found

/-- As long as the receiving end exists, nothing is lost and nothing comes twice. -/
theorem accepted_eq (isOpen : mailbox.isOpen = true) : accepted = taken ++ links.items index := by
  rw [items_eq, found]
  exact (records.mailbox found).2.kept isOpen

theorem items_eq_nil (shut : mailbox.isOpen = false) : links.items index = [] := by
  rw [items_eq, found]
  exact (records.mailbox found).2.emptied shut

theorem accepts_eq_false_iff :
    links.accepts index = false ↔
      (links.items index).length = capacity ∨ mailbox.isOpen = false := by
  obtain ⟨sized, history⟩ := records.mailbox found
  rw [accepts_eq, items_eq, found, ← sized]
  exact decide_eq_false_iff_not.trans history.not_accepts_iff

end Reading

end Records

/-! ## Whose mailboxes they are -/

/-- Every session has the mailbox with its number, which is open as long as the session runs. -/
structure BelongTo {β : Type} (links : Links α) (sessions : List β) (runs : β → Prop) : Prop where
  length : links.mailboxes.length = sessions.length
  opened : ∀ {index : Nat} {session : β} {mailbox : Mailbox α},
    sessions[index]? = some session → links.mailboxes[index]? = some mailbox →
      (mailbox.isOpen = true ↔ runs session)

namespace BelongTo

variable {β : Type} {sessions : List β} {runs : β → Prop}

theorem empty : (empty : Links α).BelongTo ([] : List β) runs :=
  ⟨rfl, nofun⟩

variable (belong : links.BelongTo sessions runs)

include belong

theorem mailbox {session : β} (found : sessions[index]? = some session) :
    ∃ mailbox, links.mailboxes[index]? = some mailbox ∧ (mailbox.isOpen = true ↔ runs session) := by
  have inside : index < links.mailboxes.length :=
    belong.length ▸ (List.getElem?_eq_some_iff.mp found).1
  have behind := List.getElem?_eq_getElem inside
  exact ⟨_, behind, belong.opened found behind⟩

theorem posts {posted : List (LinkId × α × Bool)} (posts : Posts links after posted) :
    after.BelongTo sessions runs := by
  constructor
  case length => exact posts.length.trans belong.length
  case opened =>
    intro index session mailbox found behind
    have same := posts.isOpen_eq index
    rw [behind] at same
    obtain ⟨before, foundBefore, isOpen⟩ := Option.map_eq_some_iff.mp same.symm
    rw [← isOpen]
    exact belong.opened found foundBefore

theorem receives {session last : β} {taken : List α} (found : sessions[number]? = some session)
    (receives : Receives number links after (runs session) (runs last) taken) :
    after.BelongTo (sessions.set number last) runs := by
  constructor
  case length => rw [receives.length, List.length_set, belong.length]
  case opened =>
    intro index other mailbox there behind
    rcases found_set there with ⟨rfl, rfl⟩ | ⟨different, before⟩
    · exact receives.isOpen_iff (belong.opened found) behind
    · rw [receives.mailbox_of_ne different] at behind
      exact belong.opened before behind

theorem concat {session : β} {fresh : Mailbox α}
    (made : after.mailboxes = links.mailboxes ++ [fresh])
    (opened : fresh.isOpen = true ↔ runs session) :
    after.BelongTo (sessions ++ [session]) runs := by
  constructor
  case length => simp [made, belong.length]
  case opened =>
    intro index other mailbox there behind
    rw [made] at behind
    rcases found_concat there with before | ⟨rfl, rfl⟩
    · rw [List.getElem?_append_left] at behind
      · exact belong.opened before behind
      · rw [belong.length]
        exact (List.getElem?_eq_some_iff.mp before).1
    · rw [← belong.length, List.getElem?_concat_length] at behind
      cases behind
      exact opened

end BelongTo

end Links

end StationRelay
