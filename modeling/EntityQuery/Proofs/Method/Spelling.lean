import EntityQuery.Method.Criteria
import EntityQuery.Proofs.Method.Clause
import EntityQuery.Proofs.Method.Splitting
import EntityQuery.Proofs.Schema.Resolved

namespace EntityQuery

open Text

/-!
# Spelling queries as method names

A query that compares properties of an entity can be spelled as a descriptor (`spell`): the words
of each property and of its operator, joined by `And` and `Or`, and the order behind `OrderBy`.
Where the properties of the entity can be told apart by their words (`Legible`), the descriptor says
what was meant (`parse_spell`).

The one thing that has to be shown about properties is that the longest match is the intended one
(`matchProperty_words`): it cannot be longer, since the next word is one that no property contains,
and of two properties with the same words there is only one.
-/

/-- The words of a path in a descriptor. -/
def Path.words (path : Path) : List String := path.segments.flatMap nameWords

/-- The text of a path in a descriptor. -/
def Path.capitalised (path : Path) : List Char := path.segments.flatMap Text.capitalised

/-- The words of a path are those of its first name and then those of the rest. -/
theorem Path.words_cons (name : String) (segments : List String) :
    Path.words ⟨name :: segments⟩ = nameWords name ++ Path.words ⟨segments⟩ :=
  List.flatMap_cons

/-- A path of one name has the words of that name. -/
theorem Path.words_single (name : String) : Path.words ⟨[name]⟩ = nameWords name := by
  rw [words_cons]
  exact List.append_nil _

/-- The words of a path make up its text. -/
theorem Path.flatMap_words {path : Path} (h : ∀ name ∈ path.segments, isLowerCamel name = true) :
    path.words.flatMap String.toList = path.capitalised := by
  obtain ⟨segments⟩ := path
  induction segments with
  | nil => exact List.flatMap_nil
  | cons name segments ih =>
    obtain ⟨hname, hsegments⟩ := List.forall_mem_cons.1 h
    rw [words_cons, List.flatMap_append, flatMap_nameWords hname, ih hsegments, Path.capitalised,
      Path.capitalised, List.flatMap_cons]

/-- The words of a path are words if its names are in camel case. -/
theorem Path.isWord_of_mem_words {path : Path}
    (h : ∀ name ∈ path.segments, isLowerCamel name = true) :
    ∀ w ∈ path.words, IsWord w.toList := by
  intro w hw
  obtain ⟨name, hname, hw⟩ := List.mem_flatMap.1 hw
  exact isWord_of_mem_nameWords (h name hname) hw

/-! ### Properties and their words -/

section Properties

variable {schema : Schema} {root : Entity} {depth : Nat} {words : List String} {path : Path}
  {n : Nat}

/-- The words of a match are those of its path. -/
theorem words_of_matches (h : Matches schema depth root words path n)
    (hwords : ∀ w ∈ words, IsWord w.toList) : path.words = words.take n := by
  -- Words that are joined to a name are also the words of that name.
  have hname : ∀ {words : List String} {k : Nat}, (∀ w ∈ words, IsWord w.toList) →
      nameWords (lowerCamel (words.take k)) = words.take k := by
    intro words k hwords
    apply nameWords_lowerCamel
    intro w hw
    exact hwords w (List.mem_of_mem_take hw)
  induction h with
  | own => rw [Path.words_single, hname hwords]
  | @across _ _ words k _ _ path used _ _ _ _ _ _ ih =>
    have hbeyond : path.words = (words.drop k).take used := by
      apply ih
      intro w hw
      exact hwords w (List.mem_of_mem_drop hw)
    rw [Path.words_cons, hname hwords, hbeyond, ← List.take_add]

/-- The words of a property match it, whatever follows them. -/
theorem matches_words (h : IsProperty schema root path)
    (hnames : ∀ name ∈ path.segments, isLowerCamel name = true) (rest : List String) :
    Matches schema 1 root (path.words ++ rest) path path.words.length := by
  -- A name is joined from its own words again, and there is at least one of them.
  have hjoined : ∀ {name : String} {rest : List String}, isLowerCamel name = true →
      lowerCamel ((nameWords name ++ rest).take (nameWords name).length) = name := by
    intro name rest hname
    rw [List.take_left, lowerCamel_nameWords hname]
  have hpos : ∀ {name : String}, isLowerCamel name = true → 0 < (nameWords name).length := by
    intro name hname
    exact List.length_pos_of_ne_nil (nameWords_ne_nil hname)
  have hle : ∀ {name : String} {rest : List String},
      (nameWords name).length ≤ (nameWords name ++ rest).length := by
    intro name rest
    rw [List.length_append]
    omega
  cases h with
  | @own name hdeclared =>
    have hname : isLowerCamel name = true := hnames name List.mem_cons_self
    rw [Path.words_single]
    exact .of_joined (hpos hname) hle (hjoined hname) hdeclared
  | @across first name a target hnamed htoOne hreached hdeclared =>
    obtain ⟨hfirst, hrest⟩ := List.forall_mem_cons.1 hnames
    have hname : isLowerCamel name = true := hrest name List.mem_cons_self
    have hbeyond : Matches schema 0 target (nameWords name ++ rest) ⟨[name]⟩
        (nameWords name).length :=
      .of_joined (hpos hname) hle (hjoined hname) hdeclared
    rw [Path.words_cons, Path.words_single, List.append_assoc, List.length_append]
    exact .of_joined_association (hpos hfirst) hle (hjoined hfirst) hnamed htoOne hreached
      List.drop_left hbeyond

/-- A path of at most two segments that can be followed is a property. -/
theorem isProperty_of_resolve {r : Resolution} (h : schema.resolve root path = .ok r)
    (hshort : path.segments.length ≤ 2) : IsProperty schema root path := by
  have hdeclares : ∀ {e : Entity} {name : String} {t : Terminal}, e.property? name = some t →
      e.Declares name := by
    intro e name t hproperty
    unfold Entity.property? at hproperty
    split at hproperty
    · rename_i f hfield
      exact .inl (by rw [hfield]; rfl)
    · obtain ⟨a, hnamed, _⟩ := Option.map_eq_some_iff.1 hproperty
      exact .inr (by rw [hnamed]; rfl)
  obtain ⟨segments⟩ := path
  have hr := resolved_of_resolve h
  have hleads := hr.leads
  have hterminal := hdeclares hr.terminal
  -- A path that leads somewhere has one step or two, and the second lies behind an association to one
  -- record.
  match segments, hshort, hr.nonempty with
  | [name], _, _ =>
    cases hleads with
    | here => exact .own hterminal
  | [first, name], _, _ =>
    cases hleads with
    | across hnamed htoOne hreached honward =>
      cases honward with
      | here => exact .across hnamed (by rw [Association.isToOne, htoOne]; rfl) hreached hterminal

end Properties

namespace MethodQuery

/-! ### Telling properties apart -/

/-- The words of operators, joiners and directions. -/
def reserved : List String :=
  ["And", "Or", "Is", "Not", "Null", "In", "Like", "Equals", "Greater", "Less", "Than", "Equal",
    "After", "Before", "Asc", "Desc"]

/-- The properties of an entity, and those one to-one association away, can be told apart by their
    words and have none of them in common with the rest of a descriptor.  Not even a property behind
    an association spells `OrderBy`, as `order` followed by `byName` would. -/
structure Legible (schema : Schema) (root : Entity) : Prop where
  lowerCamel : ∀ path, IsProperty schema root path →
    ∀ name ∈ path.segments, isLowerCamel name = true
  unreserved : ∀ path, IsProperty schema root path → ∀ w ∈ path.words, w ∉ reserved
  noOrderBy : ∀ path, IsProperty schema root path → ¬"OrderBy".toList <:+: path.capitalised
  distinct : ∀ p q, IsProperty schema root p → IsProperty schema root q → p.words = q.words → p = q

/-- A clause that spells a property which can be compared in this way: an association is tested for
    null on the side that has the key. -/
structure Clause.Fits (schema : Schema) (root : Entity) (c : Clause) : Prop where
  property : c.property = c.path.words
  short : c.path.segments.length ≤ 2
  comparable : ∃ r, schema.resolve root c.path = .ok r ∧
    ∀ a, r.terminal = .association a → a.isToOne = true ∧ c.operator.arity = 0
  spelled : IsSpelling c.spelling c.operator

/-- The word for a direction. -/
def directionWord : Direction → String
  | .ascending => "Asc"
  | .descending => "Desc"

/-- The words of one sort directive; here the direction is always written. -/
def directiveWords (d : SortDirective) : List String := d.path.words ++ [directionWord d.direction]

/-- A query as a descriptor. -/
def spell (groups : List (List Clause)) (order : SortOrder) : String :=
  "findBy" ++ String.join (criteriaWords groups) ++
    if order = [] then "" else "OrderBy" ++ String.join (order.flatMap directiveWords)

section Reading

variable {schema : Schema} {root : Entity} {path : Path}

/-- A clause that fits is about a property. -/
theorem Clause.Fits.isProperty {c : Clause} (hc : c.Fits schema root) :
    IsProperty schema root c.path := by
  obtain ⟨r, hr, _⟩ := hc.comparable
  exact isProperty_of_resolve hr hc.short

/-- **The longest match is the property that was meant**, in front of a word that is reserved. -/
theorem matchProperty_words (hl : Legible schema root) (h : IsProperty schema root path)
    {rest : List String} (hrest : ∀ w, rest.head? = some w → w ∈ reserved)
    (hwords : ∀ w ∈ rest, IsWord w.toList) :
    schema.matchProperty root (path.words ++ rest) = some (path, path.words.length) := by
  have hnames := hl.lowerCamel path h
  obtain ⟨best, used, hbest, hle⟩ := Schema.le_matchWithin (matches_words h hnames rest)
  have hmatch := Schema.matches_of_matchWithin hbest
  have hall : ∀ w ∈ path.words ++ rest, IsWord w.toList :=
    List.forall_mem_append.2 ⟨Path.isWord_of_mem_words hnames, hwords⟩
  have htake : best.words = (path.words ++ rest).take used := words_of_matches hmatch hall
  -- A longer match would take the reserved word in.
  have hused : used = path.words.length := by
    by_contra hne
    have hlt : path.words.length < used := by omega
    have hbound := hmatch.le
    rw [List.length_append] at hbound
    obtain ⟨w, more, rfl⟩ := List.exists_cons_of_length_pos (l := rest) (by omega)
    have hmem : w ∈ best.words := by
      obtain ⟨k, hk⟩ : ∃ k, used = path.words.length + (k + 1) :=
        ⟨used - path.words.length - 1, by omega⟩
      rw [htake, hk, List.take_length_add_append, List.take_succ_cons]
      exact List.mem_append_right _ List.mem_cons_self
    exact hl.unreserved best hmatch.isProperty w hmem (hrest w rfl)
  rw [hused, List.take_left] at htake
  have hsame : best = path := hl.distinct best path hmatch.isProperty h htake
  rw [Schema.matchProperty, hbest, hused, hsame]

/-! ### Clauses are read as they are spelled -/

/-- The reserved words are words. -/
theorem isWord_of_mem_reserved : ∀ w ∈ reserved, IsWord w.toList := by decide

/-- The words of an operator are reserved. -/
theorem reserved_of_mem_spelling {spelling : List String} {operator : Operator}
    (h : IsSpelling spelling operator) : ∀ w ∈ spelling, w ∈ reserved := by
  have hbare : ∀ entry ∈ (([], .equals) :: operatorWords : List (List String × Operator)),
      ∀ w ∈ entry.1, w ∈ reserved := by decide
  obtain ⟨bare, hmem, rfl | rfl⟩ := h
  · exact hbare _ hmem
  · exact List.forall_mem_cons.2 ⟨by decide, hbare _ hmem⟩

/-- What can be compared passes the check. -/
theorem Clause.Fits.checked {c : Clause} (hc : c.Fits schema root)
    (hroot : schema.entity? root.name = some root) :
    checkComparison schema root c.path c.operator = .ok () := by
  obtain ⟨r, hr, hassociation⟩ := hc.comparable
  have hlift : (liftM (schema.resolve root c.path) : Except MethodDefect Resolution) = .ok r := by
    rw [hr]
    rfl
  unfold checkComparison
  rw [hroot]
  dsimp only
  rw [hlift, ok_bind]
  -- What the check asks for is what a fitting clause has.
  cases hterminal : r.terminal with
  | field f => rfl
  | association a =>
    obtain ⟨htoOne, harity⟩ := hassociation a hterminal
    have hfits : (a.isToOne && c.operator.arity == 0) = true := by rw [htoOne, harity]; rfl
    exact if_pos hfits

/-- **A clause that spells a property is read**, wherever it stands. -/
theorem Clause.Fits.isRead {c : Clause} (hl : Legible schema root)
    (hroot : schema.entity? root.name = some root) (hc : c.Fits schema root) :
    c.IsRead schema root := by
  have hspelling := reserved_of_mem_spelling hc.spelled
  have hspellingWords : ∀ w ∈ c.spelling, IsWord w.toList := by
    intro w hw
    exact isWord_of_mem_reserved w (hspelling w hw)
  refine ⟨?_, hc.spelled, hc.checked hroot, ?_⟩
  · intro rest hrest hwords
    -- The property is followed by the operator or, where that has no words, by a joiner.
    have hhead : ∀ w, (c.spelling ++ rest).head? = some w → w ∈ reserved := by
      intro w hw
      cases hcases : c.spelling with
      | nil =>
        rw [hcases] at hw
        rcases hrest w hw with rfl | rfl <;> decide
      | cons v spelling =>
        rw [hcases] at hw hspelling
        obtain rfl : v = w := Option.some.inj hw
        exact hspelling v List.mem_cons_self
    rw [Clause.words, hc.property, List.append_assoc]
    have hbehind : ∀ w ∈ c.spelling ++ rest, IsWord w.toList :=
      List.forall_mem_append.2 ⟨hspellingWords, hwords⟩
    exact matchProperty_words hl hc.isProperty hhead hbehind
  · rw [Clause.words, hc.property]
    refine List.forall_mem_append.2 ⟨?_, hspellingWords⟩
    exact Path.isWord_of_mem_words (hl.lowerCamel _ hc.isProperty)

/-- **Directives are read as they are spelled.** -/
theorem directives_directiveWords (hl : Legible schema root) {order : SortOrder}
    (horder : ∀ d ∈ order, IsProperty schema root d.path) :
    (∀ w ∈ order.flatMap directiveWords, IsWord w.toList) ∧
      directives schema root (order.flatMap directiveWords) = .ok order := by
  induction order with
  | nil =>
    refine ⟨nofun, ?_⟩
    rw [List.flatMap_nil, directives]
    exact if_pos rfl
  | cons d order ih =>
    obtain ⟨hd, horder⟩ := List.forall_mem_cons.1 horder
    obtain ⟨hwords, hrest⟩ := ih horder
    have hdirection : directionWord d.direction ∈ reserved := by cases d.direction <;> decide
    have hbehind : ∀ w ∈ directionWord d.direction :: order.flatMap directiveWords,
        IsWord w.toList :=
      List.forall_mem_cons.2 ⟨isWord_of_mem_reserved _ hdirection, hwords⟩
    have hsplit : (d :: order).flatMap directiveWords =
        d.path.words ++ directionWord d.direction :: order.flatMap directiveWords := by
      rw [List.flatMap_cons, directiveWords, List.append_assoc, List.singleton_append]
    have hhead : ∀ w, (directionWord d.direction :: order.flatMap directiveWords).head? = some w →
        w ∈ reserved := by
      intro w hw
      cases hw
      exact hdirection
    -- The direction is reserved, so the match of the property cannot go on into it.
    have hmatched := matchProperty_words hl hd hhead hbehind
    have htake : takeDirection (directionWord d.direction :: order.flatMap directiveWords) =
        (d.direction, order.flatMap directiveWords) := by
      cases d.direction <;> rfl
    have hnonempty : ¬(d.path.words ++
        directionWord d.direction :: order.flatMap directiveWords).isEmpty = true := by
      rw [List.isEmpty_iff]
      exact List.append_ne_nil_of_right_ne_nil _ (List.cons_ne_nil _ _)
    rw [hsplit]
    refine ⟨List.forall_mem_append.2 ⟨Path.isWord_of_mem_words (hl.lowerCamel _ hd), hbehind⟩, ?_⟩
    rw [directives, if_neg hnonempty, hmatched]
    dsimp only
    rw [List.drop_left, htake, hrest]
    rfl

/-! ### Criteria do not spell `OrderBy` -/

open Descriptor (NotOrderBy)

/-- Two words that stand side by side do not read as OrderBy if one of them is reserved. -/
theorem notOrderBy_of_reserved {first second : String} (h : first ∈ reserved ∨ second ∈ reserved) :
    NotOrderBy first second := by
  -- `Order` itself is not reserved, and no reserved word begins with `By`.
  have hsecond : ∀ w ∈ reserved, ¬"By".toList <+: w.toList := by decide
  intro horder
  rcases h with hfirst | h
  · subst horder
    exact absurd hfirst (by decide)
  · exact hsecond second h

/-- So a list of reserved words nowhere reads as OrderBy. -/
theorem isChain_of_reserved {ws : List String} (h : ∀ w ∈ ws, w ∈ reserved) :
    ws.IsChain NotOrderBy := by
  induction ws with
  | nil => exact .nil
  | cons w ws ih =>
    obtain ⟨hw, hws⟩ := List.forall_mem_cons.1 h
    exact List.isChain_cons.2 ⟨fun _ _ => notOrderBy_of_reserved (.inl hw), ih hws⟩

/-- Nor does a clause that fits. -/
theorem Clause.Fits.isChain {c : Clause} (hl : Legible schema root) (hc : c.Fits schema root) :
    c.words.IsChain NotOrderBy := by
  have hspelling := reserved_of_mem_spelling hc.spelled
  -- Within the property by assumption; behind it all words are reserved.
  have hproperty : c.path.words.IsChain NotOrderBy := by
    refine Descriptor.isChain_notOrderBy ?_
    rw [Path.flatMap_words (hl.lowerCamel _ hc.isProperty)]
    exact hl.noOrderBy _ hc.isProperty
  rw [Clause.words, hc.property]
  refine List.isChain_append.2 ⟨hproperty, isChain_of_reserved hspelling, fun _ _ w hw => ?_⟩
  exact notOrderBy_of_reserved (.inr (hspelling w (List.mem_of_mem_head? hw)))

/-- Joiners keep the words of clauses apart. -/
theorem isChain_criteriaWords {gs : List (List Clause)}
    (h : ∀ group ∈ gs, ∀ c ∈ group, c.words.IsChain NotOrderBy) :
    (criteriaWords gs).IsChain NotOrderBy := by
  have hjoiners : ∀ joiner ∈ ["And", "Or"], joiner ∈ reserved := by decide
  refine criteriaWords_induction (motive := (·.IsChain NotOrderBy)) .nil ?_ h
  -- A joiner is reserved, so nothing comes about at its two sides.
  intro joiner hjoiner front behind hfront hbehind
  have hreserved := hjoiners joiner hjoiner
  have hjoined : (joiner :: behind).IsChain NotOrderBy := by
    refine List.isChain_cons.2 ⟨?_, hbehind⟩
    intro w _
    exact notOrderBy_of_reserved (.inl hreserved)
  refine List.isChain_append.2 ⟨hfront, hjoined, ?_⟩
  intro w _ v hv
  cases hv
  exact notOrderBy_of_reserved (.inr hreserved)

end Reading

/-! ### The slots of the clauses -/

/-- As many slots as there are arguments, in the order of the arguments. -/
def slotsFrom (first count : Nat) : List Slot := (List.range' first count).map (⟨·, none⟩)

/-- The slots of a count and a further count follow each other. -/
theorem slotsFrom_add (first m n : Nat) :
    slotsFrom first (m + n) = slotsFrom first m ++ slotsFrom (first + m) n := by
  rw [slotsFrom, slotsFrom, slotsFrom, ← List.map_append, List.range'_append_1]

/-- A comparison has one slot for each parameter it takes. -/
theorem slots_comparison (c : Clause) (slot : Nat) :
    (c.comparison slot).slots = slotsFrom slot c.operator.arity := by
  show Operand.slots (if _ then _ else _) = _
  cases c.operator <;> rfl

/-- The slots of a group are numbered through. -/
theorem slots_numberedGroup (slot : Nat) (group : List Clause) :
    (numberedGroup slot group).flatMap Predicate.slots = slotsFrom slot (arity group) := by
  induction group generalizing slot with
  | nil => rfl
  | cons c group ih =>
    rw [numberedGroup, List.flatMap_cons, slots_comparison, ih, arity, slotsFrom_add]

/-- A conjunction has the slots of its parts in their order. -/
theorem slots_foldl_and (p : Predicate) (ps : List Predicate) :
    (ps.foldl Predicate.and p).slots = p.slots ++ ps.flatMap Predicate.slots := by
  induction ps generalizing p with
  | nil => exact (List.append_nil _).symm
  | cons q ps ih =>
    rw [List.foldl_cons, ih, List.flatMap_cons, Predicate.slots, List.append_assoc]

/-- So has a disjunction. -/
theorem slots_foldl_or (p : Predicate) (ps : List Predicate) :
    (ps.foldl Predicate.or p).slots = p.slots ++ ps.flatMap Predicate.slots := by
  induction ps generalizing p with
  | nil => exact (List.append_nil _).symm
  | cons q ps ih =>
    rw [List.foldl_cons, ih, List.flatMap_cons, Predicate.slots, List.append_assoc]

/-- And so has one that may be missing. -/
theorem slots_any (ps : List Predicate) :
    ((Predicate.any ps).map Predicate.slots).getD [] = ps.flatMap Predicate.slots := by
  cases ps with
  | nil => rfl
  | cons p ps => exact slots_foldl_or p ps

/-- The slots of all groups are numbered through. -/
theorem slots_numbered (slot : Nat) (gs : List (List Clause)) :
    ((numbered slot gs).filterMap Predicate.all).flatMap Predicate.slots =
      slotsFrom slot (arity gs.flatten) := by
  induction gs generalizing slot with
  | nil => rfl
  | cons group gs ih =>
    rw [numbered, List.flatten_cons, arity_append, slotsFrom_add, ← ih, ← slots_numberedGroup]
    cases hgroup : numberedGroup slot group with
    | nil => rfl
    | cons p ps =>
      have hall : Predicate.all (p :: ps) = some (ps.foldl Predicate.and p) := rfl
      rw [List.filterMap_cons_some hall, List.flatMap_cons, slots_foldl_and, List.flatMap_cons]

/-! ### The round trip -/

/-- The spelled method name, part by part. -/
theorem spell_eq (groups : List (List Clause)) (order : SortOrder) :
    spell groups order = String.ofList ("findBy".toList ++
      ((criteriaWords groups).flatMap String.toList ++
        Descriptor.orderText (order.flatMap directiveWords))) := by
  rw [← String.toList_inj, String.toList_ofList, spell, String.toList_append, String.toList_append,
    String.toList_join, List.append_assoc]
  cases order with
  | nil => rfl
  | cons d order =>
    have hne : (d :: order).flatMap directiveWords ≠ [] := by
      rw [List.flatMap_cons, directiveWords, List.append_assoc]
      exact List.append_ne_nil_of_right_ne_nil _ (List.cons_ne_nil _ _)
    rw [if_neg (List.cons_ne_nil _ _), Descriptor.orderText, if_neg hne, String.toList_append,
      String.toList_join]

/-- **A query that was spelled out is read as it was meant.**  For every entity whose properties can
    be told apart, for all groups of comparisons and every order over its properties: the predicate
    is the disjunction of the groups, each the conjunction of its comparisons, both grouped to the
    left; the arguments take the positions 0, 1, 2, … in written order; and the order is the given
    one. -/
theorem parse_spell {schema : Schema} {root : Entity}
    (hroot : schema.entity? root.name = some root) (hl : Legible schema root)
    {groups : List (List Clause)} {order : SortOrder} (hgroups : groups ≠ [])
    (hnonempty : ∀ group ∈ groups, group ≠ [])
    (hfits : ∀ group ∈ groups, ∀ c ∈ group, c.Fits schema root)
    (horder : ∀ d ∈ order, IsProperty schema root d.path) :
    parse schema root (spell groups order) =
      .ok { subject := .find, limit := none, distinct := false,
            predicate := Predicate.any ((numbered 0 groups).filterMap Predicate.all),
            slots := slotsFrom 0 (arity groups.flatten), order := order } := by
  have hread : ∀ group ∈ groups, ∀ c ∈ group, c.IsRead schema root := by
    intro group hgroup c hc
    exact (hfits group hgroup c hc).isRead hl hroot
  have hwords : ∀ w ∈ criteriaWords groups, IsWord w.toList := by
    apply isWord_of_mem_criteriaWords
    intro group hgroup c hc
    exact (hread group hgroup c hc).isWord
  -- The criteria end at `OrderBy`, and only there.
  have hchain : (criteriaWords groups).IsChain Descriptor.NotOrderBy := by
    apply isChain_criteriaWords
    intro group hgroup c hc
    exact (hfits group hgroup c hc).isChain hl
  obtain ⟨horderWords, hdirectives⟩ := directives_directiveWords hl horder
  have hparts := Descriptor.parse?_spelled hwords horderWords hchain
  have hcriteria : predicateOf schema root (Text.words (String.ofList
      ((criteriaWords groups).flatMap String.toList))) =
      .ok (Predicate.any ((numbered 0 groups).filterMap Predicate.all)) := by
    have hsome : ¬(criteriaWords groups).isEmpty = true := by
      rw [List.isEmpty_iff]
      apply criteriaWords_ne_nil hgroups hnonempty
      intro group hgroup c hc
      exact (hread group hgroup c hc).words_ne_nil
    rw [words_flatMap hwords, predicateOf, if_neg hsome, groups_joined hgroups hnonempty hread]
    rfl
  have hslots :
      ((Predicate.any ((numbered 0 groups).filterMap Predicate.all)).map Predicate.slots).getD [] =
        slotsFrom 0 (arity groups.flatten) := by
    rw [slots_any, slots_numbered]
  rw [parse, spell_eq, hparts]
  dsimp only
  rw [show limitOf [] = .ok none from rfl, ok_bind, hcriteria, ok_bind]
  by_cases hnone : order.flatMap directiveWords = []
  · -- No directive has words, so there is none.
    have hsome : order = [] := by
      rw [hnone, directives, List.isEmpty_nil, if_pos rfl] at hdirectives
      exact (Except.ok.inj hdirectives).symm
    rw [if_pos hnone, hslots, hsome]
    rfl
  · have hnonempty : ¬(order.flatMap directiveWords).isEmpty = true := by rwa [List.isEmpty_iff]
    rw [if_neg hnone]
    dsimp only
    rw [words_flatMap horderWords, orderOf, if_neg hnonempty, hdirectives, ok_bind, hslots]
    rfl

/-! ### A legible schema -/

end MethodQuery

/-- The names of what an entity declares. -/
def Entity.names (e : Entity) : List String := e.fields.map (·.name) ++ e.associations.map (·.name)

/-- All that can be a property of an entity, or one association away from it. -/
def Schema.properties (schema : Schema) (root : Entity) : List Path :=
  root.names.map .single ++ root.associations.flatMap fun a =>
    (schema.entity? a.target).toList.flatMap fun target =>
      target.names.map fun name => ⟨[a.name, name]⟩

/-- What an entity declares is among its names. -/
theorem Entity.Declares.mem_names {e : Entity} {name : String} (h : e.Declares name) :
    name ∈ e.names := by
  rcases h with h | h
  · obtain ⟨f, hf, hname⟩ := List.find?_isSome.1 h
    exact List.mem_append_left _ (List.mem_map.2 ⟨f, hf, eq_of_beq hname⟩)
  · obtain ⟨a, ha, hname⟩ := List.find?_isSome.1 h
    exact List.mem_append_right _ (List.mem_map.2 ⟨a, ha, eq_of_beq hname⟩)

/-- A property is among those that are listed. -/
theorem IsProperty.mem_properties {schema : Schema} {root : Entity} {path : Path}
    (h : IsProperty schema root path) : path ∈ schema.properties root := by
  cases h with
  | own hdeclared => exact List.mem_append_left _ (List.mem_map.2 ⟨_, hdeclared.mem_names, rfl⟩)
  | @across first name a target hnamed _ hreached hdeclared =>
    obtain ⟨ha, hfirst⟩ := Entity.mem_of_associationNamed? hnamed
    have htarget : target ∈ (schema.entity? a.target).toList := Option.mem_toList.2 hreached
    apply List.mem_append_right
    refine List.mem_flatMap.2 ⟨a, ha, List.mem_flatMap.2 ⟨target, htarget, ?_⟩⟩
    exact List.mem_map.2 ⟨name, hdeclared.mem_names, by rw [hfirst]⟩

namespace MethodQuery

/-- It is enough to look at finitely many properties. -/
theorem legible_of_properties {schema : Schema} {root : Entity}
    (hnames : ∀ path ∈ schema.properties root, ∀ name ∈ path.segments, isLowerCamel name = true)
    (hreserved : ∀ path ∈ schema.properties root, ∀ w ∈ path.words, w ∉ reserved)
    (horderBy : ∀ path ∈ schema.properties root, ¬"OrderBy".toList <:+: path.capitalised)
    (hdistinct : ∀ p ∈ schema.properties root, ∀ q ∈ schema.properties root,
      p.words = q.words → p = q) :
    Legible schema root where
  lowerCamel path h := hnames path h.mem_properties
  unreserved path h := hreserved path h.mem_properties
  noOrderBy path h := horderBy path h.mem_properties
  distinct p q hp hq := hdistinct p hp.mem_properties q hq.mem_properties

/-- The members of the league can be queried by every name they have. -/
theorem legible_member : Legible Sample.league Sample.member :=
  legible_of_properties (by decide) (by decide) (by decide +kernel) (by decide)

/-- A round trip with two groups, a null test of an association and a property behind it. -/
theorem parse_spell_members :
    parse Sample.league Sample.member
        "findByAgeGreaterThanAndTeamIsNullOrTeamIdInOrderByTeamIdDescAgeAsc" =
      .ok { subject := .find, limit := none, distinct := false,
            predicate := some (.or
              (.and (.comparison ⟨["age"]⟩ .greaterThan (.slot ⟨0, none⟩))
                (.comparison ⟨["team"]⟩ .isNull .none))
              (.comparison ⟨["team", "id"]⟩ .isIn (.slot ⟨1, none⟩))),
            slots := [⟨0, none⟩, ⟨1, none⟩],
            order := [⟨⟨["team", "id"]⟩, .descending⟩, ⟨⟨["age"]⟩, .ascending⟩] } := by
  let age : Clause := ⟨["Age"], ⟨["age"]⟩, ["Greater", "Than"], .greaterThan⟩
  let team : Clause := ⟨["Team"], ⟨["team"]⟩, ["Is", "Null"], .isNull⟩
  let teamId : Clause := ⟨["Team", "Id"], ⟨["team", "id"]⟩, ["In"], .isIn⟩
  have hage : age.Fits Sample.league Sample.member :=
    ⟨by decide, by decide, ⟨_, rfl, nofun⟩, ["Greater", "Than"], by decide, .inl rfl⟩
  have hteam : team.Fits Sample.league Sample.member := by
    refine ⟨by decide, by decide, ⟨_, rfl, fun a ha => ?_⟩, ["Null"], by decide, .inr rfl⟩
    cases ha
    exact ⟨rfl, rfl⟩
  have hteamId : teamId.Fits Sample.league Sample.member :=
    ⟨by decide, by decide, ⟨_, rfl, nofun⟩, ["In"], by decide, .inl rfl⟩
  have hfits : ∀ group ∈ [[age, team], [teamId]], ∀ c ∈ group,
      c.Fits Sample.league Sample.member := by
    simp only [List.mem_cons, List.not_mem_nil, or_false, forall_eq_or_imp, forall_eq]
    exact ⟨⟨hage, hteam⟩, hteamId⟩
  have horder : ∀ d ∈ ([⟨⟨["team", "id"]⟩, .descending⟩, ⟨⟨["age"]⟩, .ascending⟩] : SortOrder),
      IsProperty Sample.league Sample.member d.path := by
    simp only [List.mem_cons, List.not_mem_nil, or_false, forall_eq_or_imp, forall_eq]
    exact ⟨hteamId.isProperty, hage.isProperty⟩
  -- The name is the spelling of these clauses, so reading it back needs no step of the reader.
  have hspelled : spell [[age, team], [teamId]]
      [⟨⟨["team", "id"]⟩, .descending⟩, ⟨⟨["age"]⟩, .ascending⟩] =
      "findByAgeGreaterThanAndTeamIsNullOrTeamIdInOrderByTeamIdDescAgeAsc" := by decide
  rw [← hspelled]
  exact parse_spell rfl legible_member (by decide) (by decide) hfits horder

end MethodQuery

end EntityQuery
