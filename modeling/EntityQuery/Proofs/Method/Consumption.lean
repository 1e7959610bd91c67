import EntityQuery.Method.Criteria
import EntityQuery.Proofs.Method.Clause
import EntityQuery.Proofs.Method.Splitting
import EntityQuery.Proofs.Schema.Resolved

namespace EntityQuery

open Text

/-!
# What a descriptor is used up by

Every word of the criteria and of the order that are accepted has a part in the query (`Uses`).  The
characters between the words have none: `Text.words` passes over whatever is neither an ASCII letter
nor an ASCII digit.  So a descriptor is used up as a whole exactly when it has no such character
(`consumed_iff`), and one such character is enough to ask for the removal of every row
(`parse_deleteBy_underscore`).
-/

namespace Descriptor

/-- The text that falls apart into the parts of a descriptor. -/
def text (word : String) (hasBy : Bool) (d : Descriptor) : List Char :=
  word.toList ++ (d.modifiers ++ ((if hasBy then "By".toList else []) ++ (d.criteria ++
    match d.order with
    | none => []
    | some order => "OrderBy".toList ++ order)))

/-- Splitting at a word loses nothing but that word. -/
theorem splitAtWord_eq (word s : List Char) :
    s = (splitAtWord word s).1 ++
      match (splitAtWord word s).2 with
      | none => []
      | some rest => word ++ rest := by
  induction s with
  | nil => rfl
  | cons c s ih =>
    rw [splitAtWord]
    split
    · rename_i rest hprefix
      exact (List.isPrefixOf?_eq_some_iff_append_eq.1 hprefix).symm
    · exact congrArg (c :: ·) ih

/-- **Nothing is lost where a descriptor falls apart.** -/
theorem text_of_parse? {s : String} {d : Descriptor} (h : parse? s = some d) :
    ∃ word hasBy, (word, d.subject) ∈ subjects ∧ (hasBy = false → d.criteria = []) ∧
      s.toList = d.text word hasBy := by
  -- Of what follows the subject, the first By or OrderBy decides what are modifiers and what are criteria.
  have hparts : ∀ s : List Char, ∃ hasBy : Bool, (hasBy = false → (splitParts s).2.1 = []) ∧
      s = (splitParts s).1 ++ ((if hasBy then "By".toList else []) ++ ((splitParts s).2.1 ++
        match (splitParts s).2.2 with
        | none => []
        | some order => "OrderBy".toList ++ order)) := by
    intro s
    induction s with
    | nil => exact ⟨false, fun _ => rfl, rfl⟩
    | cons c s ih =>
      rw [splitParts]
      split
      · rename_i rest hprefix
        have heq : "By".toList ++ rest = c :: s := List.isPrefixOf?_eq_some_iff_append_eq.1 hprefix
        refine ⟨true, nofun, ?_⟩
        rw [← heq]
        exact congrArg ("By".toList ++ ·) (splitAtWord_eq "OrderBy".toList rest)
      · split
        · rename_i order hprefix
          exact ⟨false, fun _ => rfl, (List.isPrefixOf?_eq_some_iff_append_eq.1 hprefix).symm⟩
        · obtain ⟨hasBy, hnone, heq⟩ := ih
          exact ⟨hasBy, hnone, congrArg (c :: ·) heq⟩
  obtain ⟨⟨subject, rest⟩, hsubject, h⟩ := Option.bind_eq_some_iff.1 h
  obtain ⟨⟨word, subject'⟩, hmem, hfound⟩ := List.exists_of_findSome?_eq_some hsubject
  obtain ⟨rest', hprefix, heq⟩ := Option.map_eq_some_iff.1 hfound
  cases heq
  have htext := List.isPrefixOf?_eq_some_iff_append_eq.1 hprefix
  dsimp only at h
  split at h
  · cases h
  cases h
  obtain ⟨hasBy, hnone, hrest⟩ := hparts rest
  refine ⟨word, hasBy, hmem, hnone, ?_⟩
  rw [← htext]
  exact congrArg (word.toList ++ ·) hrest

end Descriptor

namespace MethodQuery

variable {schema : Schema} {entity : Entity} {d : Descriptor} {q : MethodQuery}

/-- The words of a descriptor and the parts they have in a query: those of the criteria in clauses,
    those of the order in directives. -/
structure Uses (schema : Schema) (entity : Entity) (d : Descriptor) (q : MethodQuery)
    (groups : List (List Clause)) (order : List SortClause) : Prop where
  nonempty : ∀ group ∈ groups, group ≠ []
  found : ∀ group ∈ groups, ∀ c ∈ group, c.IsFound schema entity
  criteria : Text.words (String.ofList d.criteria) = criteriaWords groups
  predicate : q.predicate = Predicate.any ((numbered 0 groups).filterMap Predicate.all)
  sorted : ∀ c ∈ order, c.IsFound schema entity
  ordered : Text.words (String.ofList (d.order.getD [])) = order.flatMap SortClause.words
  directives : q.order = order.map SortClause.directive

/-- Every character of the criteria and of the order belongs to a word that has a part in the query,
    and only a descriptor without criteria leads to a query without a predicate. -/
structure Consumed (d : Descriptor) (q : MethodQuery) (groups : List (List Clause))
    (order : List SortClause) : Prop where
  criteria : d.criteria = (criteriaWords groups).flatMap String.toList
  ordered : d.order.getD [] = (order.flatMap SortClause.words).flatMap String.toList
  empty : q.predicate = none → d.criteria = []

/-! ### Words and their text -/

/-- A text is made up of its words exactly when there is nothing in between. -/
theorem eq_flatMap_words_iff (s : List Char) :
    s = (Text.words (String.ofList s)).flatMap String.toList ↔ ∀ c ∈ s, inWord c = true := by
  rw [flatMap_words, eq_comm, List.filter_eq_self]

/-! ### Accepted descriptors -/

/-- A predicate comes from clauses that the words of the criteria spell. -/
theorem exists_clauses_of_predicateOf {words : List String} {predicate : Option Predicate}
    (h : predicateOf schema entity words = .ok predicate) :
    ∃ gs, (∀ group ∈ gs, group ≠ []) ∧ (∀ group ∈ gs, ∀ c ∈ group, c.IsFound schema entity) ∧
      words = criteriaWords gs ∧
      predicate = Predicate.any ((numbered 0 gs).filterMap Predicate.all) := by
  unfold predicateOf at h
  split at h
  · rename_i hempty
    cases h
    exact ⟨[], nofun, nofun, List.isEmpty_iff.1 hempty, rfl⟩
  · obtain ⟨found, hfound, h⟩ := bind_eq_ok_iff.1 h
    obtain ⟨gs, _, hnonempty, hwords, rfl, hall⟩ := exists_clauses_of_groups hfound
    exact ⟨gs, hnonempty, hall, hwords, (pure_eq_ok_iff.1 h).symm⟩

/-- An order comes from directives that its words spell; without one there is none. -/
theorem exists_sortClauses_of_order {order : Option (List Char)} {directives : SortOrder}
    (h : (match order with
      | some text => orderOf schema entity (Text.words (String.ofList text))
      | none => pure []) = .ok directives) :
    ∃ cs : List SortClause, (∀ c ∈ cs, c.IsFound schema entity) ∧
      Text.words (String.ofList (order.getD [])) = cs.flatMap SortClause.words ∧
      directives = cs.map SortClause.directive := by
  cases order with
  | none =>
    cases h
    exact ⟨[], nofun, rfl, rfl⟩
  | some text =>
    dsimp only [orderOf] at h
    split at h
    · cases h
    · obtain ⟨cs, hwords, hdirectives, hfound⟩ := exists_sortClauses_of_directives h
      exact ⟨cs, hfound, hwords, hdirectives⟩

/-- A query with the parts of a descriptor that it is read from. -/
structure ReadFrom (schema : Schema) (entity : Entity) (d : Descriptor) (q : MethodQuery) : Prop where
  subject : q.subject = d.subject
  limit : limitOf d.modifiers = .ok q.limit
  distinct : q.distinct = d.isDistinct
  predicate : predicateOf schema entity (Text.words (String.ofList d.criteria)) = .ok q.predicate
  slots : q.slots = (q.predicate.map Predicate.slots).getD []
  order : (match d.order with
    | some text => orderOf schema entity (Text.words (String.ofList text))
    | none => pure []) = .ok q.order

/-- **Each part of a query is read from one part of the descriptor.** -/
theorem exists_readFrom_of_parse {s : String} (h : parse schema entity s = .ok q) :
    ∃ d, Descriptor.parse? s = some d ∧ ReadFrom schema entity d q := by
  unfold parse at h
  split at h
  · cases h
  rename_i d hd
  obtain ⟨limit, hlimit, h⟩ := bind_eq_ok_iff.1 h
  obtain ⟨predicate, hpredicate, h⟩ := bind_eq_ok_iff.1 h
  refine ⟨d, hd, ?_⟩
  -- Without an order clause there is nothing more to read.
  cases horder : d.order with
  | none =>
    rw [horder] at h
    cases h
    exact ⟨rfl, hlimit, rfl, hpredicate, rfl, by rw [horder]; rfl⟩
  | some text =>
    rw [horder] at h
    obtain ⟨directives, hdirectives, h⟩ := bind_eq_ok_iff.1 h
    cases h
    exact ⟨rfl, hlimit, rfl, hpredicate, rfl, by rw [horder]; exact hdirectives⟩

/-- **Every word of an accepted descriptor has a part in the query.** -/
theorem uses_of_parse {s : String} (hd : Descriptor.parse? s = some d)
    (h : parse schema entity s = .ok q) : ∃ groups order, Uses schema entity d q groups order := by
  obtain ⟨d', hd', hread⟩ := exists_readFrom_of_parse h
  cases hd.symm.trans hd'
  obtain ⟨groups, hnonempty, hfound, hcriteria, hgroups⟩ :=
    exists_clauses_of_predicateOf hread.predicate
  obtain ⟨order, hsorted, hordered, horder⟩ := exists_sortClauses_of_order hread.order
  exact ⟨groups, order, hnonempty, hfound, hcriteria, hgroups, hsorted, hordered, horder⟩

/-- A query has no predicate only where no clause was found. -/
theorem groups_eq_nil_of_predicate {groups : List (List Clause)}
    (hnonempty : ∀ group ∈ groups, group ≠ [])
    (h : Predicate.any ((numbered 0 groups).filterMap Predicate.all) = none) : groups = [] := by
  cases groups with
  | nil => rfl
  | cons group groups =>
    obtain ⟨c, group, rfl⟩ := List.exists_cons_of_ne_nil (hnonempty group List.mem_cons_self)
    cases h

/-- **When a descriptor is used up.**  An accepted descriptor falls apart without loss, each of its
    words has a part in the query, and nothing else stands between `By` and `OrderBy` or behind
    `OrderBy` exactly when all characters there are ASCII letters and digits.  In that case a query
    without a predicate had no criteria. -/
theorem consumed_iff {s : String} (h : parse schema entity s = .ok q) :
    ∃ d groups order, Descriptor.parse? s = some d ∧
      (∃ word hasBy, (word, d.subject) ∈ Descriptor.subjects ∧ (hasBy = false → d.criteria = []) ∧
        s.toList = d.text word hasBy) ∧
      Uses schema entity d q groups order ∧
      (Consumed d q groups order ↔ ∀ c ∈ d.criteria ++ d.order.getD [], inWord c = true) := by
  obtain ⟨d, hd⟩ : ∃ d, Descriptor.parse? s = some d := by
    unfold parse at h
    cases hd : Descriptor.parse? s with
    | none =>
      rw [hd] at h
      cases h
    | some d => exact ⟨d, rfl⟩
  obtain ⟨groups, order, huses⟩ := uses_of_parse hd h
  refine ⟨d, groups, order, hd, Descriptor.text_of_parse? hd, huses, ?_⟩
  constructor
  · -- Words are made of letters and digits, so no other character is left.
    intro hconsumed
    have hcriteria := hconsumed.criteria
    have hordered := hconsumed.ordered
    rw [← huses.criteria, eq_flatMap_words_iff] at hcriteria
    rw [← huses.ordered, eq_flatMap_words_iff] at hordered
    exact List.forall_mem_append.2 ⟨hcriteria, hordered⟩
  · intro hall
    obtain ⟨hcriteria, hordered⟩ := List.forall_mem_append.1 hall
    rw [← eq_flatMap_words_iff, huses.criteria] at hcriteria
    rw [← eq_flatMap_words_iff, huses.ordered] at hordered
    refine ⟨hcriteria, hordered, ?_⟩
    -- Without a predicate there was no clause, and so there were no words.
    intro hnone
    rw [huses.predicate] at hnone
    rw [hcriteria, groups_eq_nil_of_predicate huses.nonempty hnone]
    rfl

/-- All of the criteria of `deleteByAge` are in its predicate. -/
theorem consumed_deleteByAge :
    ∃ q groups order, parse Sample.league Sample.member "deleteByAge" = .ok q ∧
      Consumed ⟨.delete, [], "Age".toList, none⟩ q groups order := by
  -- The criteria are one word, which is a field.
  have hgroups : groups Sample.league Sample.member 0 ["Age"] =
      .ok [[.comparison ⟨["age"]⟩ .equals (.slot ⟨0, none⟩)]] := by
    rw [groups]
    rfl
  have hfound : Descriptor.parse? "deleteByAge" = some ⟨.delete, [], "Age".toList, none⟩ := by
    decide
  have hparse : parse Sample.league Sample.member "deleteByAge" =
      .ok ⟨.delete, none, false, some (.comparison ⟨["age"]⟩ .equals (.slot ⟨0, none⟩)),
        [⟨0, none⟩], []⟩ := by
    have hpredicate : predicateOf Sample.league Sample.member
        (Text.words (String.ofList "Age".toList)) =
        .ok (some (.comparison ⟨["age"]⟩ .equals (.slot ⟨0, none⟩))) := by
      rw [show Text.words (String.ofList "Age".toList) = ["Age"] by decide, predicateOf,
        if_neg (by decide), hgroups]
      rfl
    rw [parse, hfound]
    dsimp only
    rw [hpredicate]
    rfl
  obtain ⟨d, groups, order, hd, _, _, hiff⟩ := consumed_iff hparse
  obtain rfl : ⟨.delete, [], "Age".toList, none⟩ = d := by
    rw [hfound] at hd
    exact Option.some.inj hd
  exact ⟨_, groups, order, hparse, hiff.2 (List.all_eq_true.1 (by decide))⟩

/-- The underscore is part of the criteria but of no word, so every row is to be removed. -/
theorem parse_deleteBy_underscore :
    Descriptor.parse? "deleteBy_" = some ⟨.delete, [], ['_'], none⟩ ∧
      parse Sample.league Sample.member "deleteBy_" = .ok ⟨.delete, none, false, none, [], []⟩ :=
  ⟨rfl, rfl⟩

end MethodQuery

end EntityQuery
