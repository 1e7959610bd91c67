import EntityQuery.Method.Criteria
import EntityQuery.Proofs.Outcome
import EntityQuery.Proofs.Schema.Matching
import EntityQuery.Proofs.Text.Words

namespace EntityQuery

/-!
# Clauses of criteria

Criteria are clauses, each the words of a property and those of an operator, joined to groups by
`And` and to the whole by `Or` (`criteriaWords`).  Reading criteria takes one clause after the
other: `groups_joined` says what is read off words that were put together in this way, as long as
each clause is found again at the front of what follows it (`Clause.IsRead`), and
`exists_clauses_of_groups` says that nothing else is ever accepted.
-/

namespace MethodQuery

/-- A comparison as it is written: the words of a property and those of an operator. -/
structure Clause where
  property : List String
  path : Path
  spelling : List String
  operator : Operator

namespace Clause

/-- The words of a clause: its property, then its operator. -/
def words (c : Clause) : List String := c.property ++ c.spelling

/-- The comparison that a clause stands for, with the first parameter it takes. -/
def comparison (c : Clause) (slot : Nat) : Predicate :=
  MethodQuery.comparison c.path c.operator slot

end Clause

/-! ### Putting clauses together -/

/-- The words of a group, its clauses joined by And. -/
def groupWords (group : List Clause) : List String :=
  ["And"].intercalate (group.map Clause.words)

/-- The words of all groups, joined by Or. -/
def criteriaWords (groups : List (List Clause)) : List String :=
  ["Or"].intercalate (groups.map groupWords)

/-- The number of arguments that clauses take. -/
def arity : List Clause → Nat
  | [] => 0
  | c :: group => c.operator.arity + arity group

/-- The comparisons of a group, whose slots are taken from the given one on. -/
def numberedGroup (slot : Nat) : List Clause → List Predicate
  | [] => []
  | c :: group => c.comparison slot :: numberedGroup (slot + c.operator.arity) group

/-- The comparisons of all groups, whose slots are taken one after the other. -/
def numbered (slot : Nat) : List (List Clause) → List (List Predicate)
  | [] => []
  | group :: groups => numberedGroup slot group :: numbered (slot + arity group) groups

/-- A group of one clause has no And. -/
theorem groupWords_singleton (c : Clause) : groupWords [c] = c.words := List.intercalate_singleton

/-- Before a further clause of its group stands an And. -/
theorem groupWords_cons_cons (c d : Clause) (group : List Clause) :
    groupWords (c :: d :: group) = c.words ++ "And" :: groupWords (d :: group) := by
  simp only [groupWords, List.map_cons, List.intercalate_cons_cons, List.append_assoc]
  rfl

/-- A single group has no Or. -/
theorem criteriaWords_singleton (group : List Clause) : criteriaWords [group] = groupWords group :=
  List.intercalate_singleton

/-- Before a further group stands an Or. -/
theorem criteriaWords_cons_cons (group next : List Clause) (groups : List (List Clause)) :
    criteriaWords (group :: next :: groups) =
      groupWords group ++ "Or" :: criteriaWords (next :: groups) := by
  simp only [criteriaWords, List.map_cons, List.intercalate_cons_cons, List.append_assoc]
  rfl

/-- What holds of the words of each clause, and is kept where a joiner is put between words, holds
    of the words of a group. -/
theorem groupWords_induction {motive : List String → Prop} (hnil : motive [])
    (hjoin : ∀ front behind, motive front → motive behind → motive (front ++ "And" :: behind))
    {group : List Clause} (h : ∀ c ∈ group, motive c.words) : motive (groupWords group) := by
  induction group with
  | nil => exact hnil
  | cons c group ih =>
    obtain ⟨hc, hgroup⟩ := List.forall_mem_cons.1 h
    cases group with
    | nil =>
      rw [groupWords_singleton]
      exact hc
    | cons d group =>
      rw [groupWords_cons_cons]
      exact hjoin _ _ hc (ih hgroup)

/-- The same for whole criteria, which have two joiners. -/
theorem criteriaWords_induction {motive : List String → Prop} (hnil : motive [])
    (hjoin : ∀ joiner ∈ ["And", "Or"], ∀ front behind, motive front → motive behind →
      motive (front ++ joiner :: behind))
    {gs : List (List Clause)} (h : ∀ group ∈ gs, ∀ c ∈ group, motive c.words) :
    motive (criteriaWords gs) := by
  induction gs with
  | nil => exact hnil
  | cons group gs ih =>
    obtain ⟨hgroup, hgs⟩ := List.forall_mem_cons.1 h
    have hfirst := groupWords_induction hnil (hjoin "And" (by decide)) hgroup
    have hrest := ih hgs
    -- The last group has no joiner behind it.
    cases gs with
    | nil =>
      rw [criteriaWords_singleton]
      exact hfirst
    | cons next gs =>
      rw [criteriaWords_cons_cons]
      exact hjoin "Or" (by decide) _ _ hfirst hrest

/-- The parameters of clauses are counted together. -/
theorem arity_append (group more : List Clause) :
    arity (group ++ more) = arity group + arity more := by
  induction group with
  | nil => exact (Nat.zero_add _).symm
  | cons c group ih => rw [List.cons_append, arity, ih, arity, Nat.add_assoc]

/-! ### Operators -/

/-- The words that stand for an operator: those of the table, none for equality, and `Is` may come
    first. -/
def IsSpelling (spelling : List String) (operator : Operator) : Prop :=
  ∃ bare, (bare, operator) ∈ ([], .equals) :: operatorWords ∧
    (spelling = bare ∨ spelling = "Is" :: bare)

/-- What can follow an operator: a joiner or the end. -/
def Joined (rest : List String) : Prop := ∀ w, rest.head? = some w → w = "And" ∨ w = "Or"

/-- The end of the criteria follows a clause. -/
theorem joined_nil : Joined [] := nofun

/-- So does a joiner. -/
theorem joined_cons {joiner : String} {rest : List String} (h : joiner = "And" ∨ joiner = "Or") :
    Joined (joiner :: rest) := by
  intro w hw
  cases hw
  exact h

/-- **An operator is found again** in front of a joiner or the end. -/
theorem takeOperator_append {spelling rest : List String} {operator : Operator}
    (h : IsSpelling spelling operator) (hrest : Joined rest) :
    takeOperator (spelling ++ rest) = (operator, rest) := by
  obtain ⟨bare, hbare, hspelling⟩ := h
  -- What follows matters by its first word alone.
  have hcases : rest = [] ∨ (∃ more, rest = "And" :: more) ∨ ∃ more, rest = "Or" :: more := by
    cases rest with
    | nil => exact .inl rfl
    | cons w more =>
      rcases hrest w rfl with rfl | rfl
      · exact .inr (.inl ⟨more, rfl⟩)
      · exact .inr (.inr ⟨more, rfl⟩)
  -- Each spelling of the table is tried on each of these: a longer one needs another next word.
  simp only [operatorWords, List.mem_cons, List.not_mem_nil, or_false, Prod.mk.injEq] at hbare
  rcases hcases with rfl | ⟨more, rfl⟩ | ⟨more, rfl⟩ <;>
    rcases hbare with h | h | h | h | h | h | h | h | h | h | h | h | h <;>
    obtain ⟨rfl, rfl⟩ := h <;> rcases hspelling with rfl | rfl <;> rfl

/-- **What is taken off is an operator.** -/
theorem isSpelling_of_takeOperator (words : List String) :
    ∃ spelling, words = spelling ++ (takeOperator words).2 ∧
      IsSpelling spelling (takeOperator words).1 := by
  have hbare : ∀ words, ∃ bare, words = bare ++ (bareOperator words).2 ∧
      (bare, (bareOperator words).1) ∈ ([], .equals) :: operatorWords := by
    intro words
    unfold bareOperator
    generalize hfind : operatorWords.findSome? _ = found
    cases found with
    | none => exact ⟨[], rfl, List.mem_cons_self⟩
    | some found =>
      -- What is found is an entry of the table whose words stand in front.
      obtain ⟨⟨bare, operator⟩, hmem, hfound⟩ := List.exists_of_findSome?_eq_some hfind
      obtain ⟨rest, hrest, rfl⟩ := Option.map_eq_some_iff.1 hfound
      have hfront : bare ++ rest = words := List.isPrefixOf?_eq_some_iff_append_eq.1 hrest
      exact ⟨bare, hfront.symm, List.mem_cons_of_mem _ hmem⟩
  unfold takeOperator
  split
  · rename_i rest
    obtain ⟨bare, heq, hmem⟩ := hbare rest
    exact ⟨"Is" :: bare, congrArg ("Is" :: ·) heq, bare, hmem, .inr rfl⟩
  · obtain ⟨bare, heq, hmem⟩ := hbare words
    exact ⟨bare, heq, bare, hmem, .inl rfl⟩

/-! ### Reading criteria -/

variable {schema : Schema} {entity : Entity} {slot : Nat}

/-- A clause that is read as it is meant, wherever it stands. -/
structure Clause.IsRead (schema : Schema) (entity : Entity) (c : Clause) : Prop where
  matched : ∀ rest, Joined rest → (∀ w ∈ rest, Text.IsWord w.toList) →
    schema.matchProperty entity (c.words ++ rest) = some (c.path, c.property.length)
  spelled : IsSpelling c.spelling c.operator
  checked : checkComparison schema entity c.path c.operator = .ok ()
  isWord : ∀ w ∈ c.words, Text.IsWord w.toList

/-- A clause that is not the last one, with the joiner behind it. -/
theorem groups_clause_cons {c : Clause} (hc : c.IsRead schema entity) {joiner : String}
    {more : List String} {others : List (List Predicate)} (hjoiner : joiner = "And" ∨ joiner = "Or")
    (hmore : more ≠ []) (hwords : ∀ w ∈ joiner :: more, Text.IsWord w.toList)
    (hothers : groups schema entity (slot + c.operator.arity) more = .ok others) :
    groups schema entity slot (c.words ++ joiner :: more) =
      .ok (if joiner = "And" then joinFirst (c.comparison slot) others
        else [c.comparison slot] :: others) := by
  have hdrop : (c.words ++ joiner :: more).drop c.property.length =
      c.spelling ++ joiner :: more := by
    rw [Clause.words, List.append_assoc, List.drop_left]
  -- Behind the property the operator's words are taken, which the joiner ends.
  have htake : takeOperator ((c.words ++ joiner :: more).drop c.property.length) =
      (c.operator, joiner :: more) := by
    rw [hdrop, takeOperator_append hc.spelled (joined_cons hjoiner)]
  have hnoJoiner : ¬(joiner ≠ "And" ∧ joiner ≠ "Or") := by
    rintro ⟨hand, hor⟩
    exact hjoiner.elim hand hor
  have hnonempty : ¬more.isEmpty = true := by
    intro hempty
    exact hmore (List.isEmpty_iff.1 hempty)
  rw [groups, hc.matched _ (joined_cons hjoiner) hwords]
  dsimp only
  rw [htake, hc.checked, ok_bind]
  dsimp only
  rw [if_neg hnoJoiner, if_neg hnonempty, hothers]
  rfl

/-- The last clause. -/
theorem groups_clause {c : Clause} (hc : c.IsRead schema entity) :
    groups schema entity slot c.words = .ok [[c.comparison slot]] := by
  have hdrop : c.words.drop c.property.length = c.spelling := by
    rw [Clause.words, List.drop_left]
  have htake : takeOperator (c.words.drop c.property.length) = (c.operator, []) := by
    have hoperator := takeOperator_append hc.spelled joined_nil
    rwa [List.append_nil, ← hdrop] at hoperator
  have hmatched := hc.matched [] joined_nil nofun
  rw [List.append_nil] at hmatched
  rw [groups, hmatched]
  dsimp only
  rw [htake, hc.checked, ok_bind]
  rfl

/-- Criteria of one property compare it with a value. -/
theorem predicateOf_property {words : List String} {path : Path}
    (hfound : schema.matchProperty entity words = some (path, words.length)) :
    predicateOf schema entity words = do
      checkComparison schema entity path .equals
      return some (comparison path .equals 0) := by
  have hne : ¬words.isEmpty = true := by
    rw [List.isEmpty_iff]
    exact List.ne_nil_of_length_pos (schema.matchProperty_pos hfound).2
  have htake : takeOperator (words.drop words.length) = (.equals, []) := by
    rw [List.drop_length]
    rfl
  unfold predicateOf
  rw [if_neg hne, groups, hfound]
  dsimp only
  rw [htake]
  cases checkComparison schema entity path .equals <;> rfl

/-- A clause that is read has words. -/
theorem Clause.IsRead.words_ne_nil {c : Clause} (hc : c.IsRead schema entity) : c.words ≠ [] := by
  have hmatched := hc.matched [] joined_nil nofun
  rw [List.append_nil] at hmatched
  exact List.ne_nil_of_length_pos (schema.matchProperty_pos hmatched).2

/-- So has a group with such a clause in front. -/
theorem groupWords_ne_nil {c : Clause} (hc : c.words ≠ []) (group : List Clause) :
    groupWords (c :: group) ≠ [] := by
  cases group with
  | nil => rwa [groupWords_singleton]
  | cons d group =>
    rw [groupWords_cons_cons]
    exact List.append_ne_nil_of_left_ne_nil hc _

/-- And so have criteria of such groups. -/
theorem criteriaWords_ne_nil {gs : List (List Clause)} (hgs : gs ≠ [])
    (hgroups : ∀ group ∈ gs, group ≠ []) (hwords : ∀ group ∈ gs, ∀ c ∈ group, c.words ≠ []) :
    criteriaWords gs ≠ [] := by
  obtain ⟨group, gs, rfl⟩ := List.exists_cons_of_ne_nil hgs
  obtain ⟨c, group, rfl⟩ := List.exists_cons_of_ne_nil (hgroups group List.mem_cons_self)
  have hfirst : groupWords (c :: group) ≠ [] :=
    groupWords_ne_nil (hwords _ List.mem_cons_self c List.mem_cons_self) group
  cases gs with
  | nil => rwa [criteriaWords_singleton]
  | cons next gs =>
    rw [criteriaWords_cons_cons]
    exact List.append_ne_nil_of_left_ne_nil hfirst _

/-- The words of a group are words if those of its clauses are. -/
theorem isWord_of_mem_groupWords {group : List Clause}
    (h : ∀ c ∈ group, ∀ w ∈ c.words, Text.IsWord w.toList) :
    ∀ w ∈ groupWords group, Text.IsWord w.toList := by
  refine groupWords_induction (motive := fun words => ∀ w ∈ words, Text.IsWord w.toList) nofun ?_ h
  intro front behind hfront hbehind
  have hand : Text.IsWord "And".toList := by decide
  exact List.forall_mem_append.2 ⟨hfront, List.forall_mem_cons.2 ⟨hand, hbehind⟩⟩

/-- So are those of all groups. -/
theorem isWord_of_mem_criteriaWords {gs : List (List Clause)}
    (h : ∀ group ∈ gs, ∀ c ∈ group, ∀ w ∈ c.words, Text.IsWord w.toList) :
    ∀ w ∈ criteriaWords gs, Text.IsWord w.toList := by
  have hjoiners : ∀ joiner ∈ ["And", "Or"], Text.IsWord joiner.toList := by decide
  refine criteriaWords_induction (motive := fun words => ∀ w ∈ words, Text.IsWord w.toList)
    nofun ?_ h
  intro joiner hjoiner front behind hfront hbehind
  exact List.forall_mem_append.2 ⟨hfront, List.forall_mem_cons.2 ⟨hjoiners joiner hjoiner, hbehind⟩⟩

/-- A group of clauses, which is the last one or is followed by others. -/
theorem groups_group {c : Clause} {group : List Clause}
    (hgroup : ∀ d ∈ c :: group, d.IsRead schema entity) {rest : List String}
    {others : List (List Predicate)} (hwords : ∀ w ∈ rest, Text.IsWord w.toList)
    (hrest : (rest = [] ∧ others = []) ∨ ∃ more, rest = "Or" :: more ∧ more ≠ [] ∧
      groups schema entity (slot + arity (c :: group)) more = .ok others) :
    groups schema entity slot (groupWords (c :: group) ++ rest) =
      .ok (numberedGroup slot (c :: group) :: others) := by
  have hc : c.IsRead schema entity := hgroup c List.mem_cons_self
  induction group generalizing c slot with
  | nil =>
    -- The one clause of the group is the last one, or `Or` stands behind it.
    rw [groupWords_singleton]
    rcases hrest with ⟨rfl, rfl⟩ | ⟨more, rfl, hmore, hothers⟩
    · rw [List.append_nil, groups_clause hc]
      rfl
    · rw [arity, arity, Nat.add_zero] at hothers
      rw [groups_clause_cons hc (.inr rfl) hmore hwords hothers, if_neg (by decide)]
      rfl
  | cons d group ih =>
    have hbehind : ∀ e ∈ d :: group, e.IsRead schema entity := (List.forall_mem_cons.1 hgroup).2
    have hd : d.IsRead schema entity := hbehind d List.mem_cons_self
    -- The clauses behind `c` are read to one group, which `c` then joins.
    have hothers : groups schema entity (slot + c.operator.arity)
        (groupWords (d :: group) ++ rest) =
        .ok (numberedGroup (slot + c.operator.arity) (d :: group) :: others) := by
      refine ih hbehind ?_ hd
      simpa only [arity, Nat.add_assoc] using hrest
    have hne : groupWords (d :: group) ++ rest ≠ [] :=
      List.append_ne_nil_of_left_ne_nil (groupWords_ne_nil hd.words_ne_nil group) _
    have hisWord : ∀ w ∈ "And" :: (groupWords (d :: group) ++ rest), Text.IsWord w.toList := by
      refine List.forall_mem_cons.2 ⟨by decide, List.forall_mem_append.2 ⟨?_, hwords⟩⟩
      apply isWord_of_mem_groupWords
      intro e he
      exact (hbehind e he).isWord
    rw [groupWords_cons_cons, List.append_assoc, List.cons_append,
      groups_clause_cons hc (.inl rfl) hne hisWord hothers, if_pos rfl]
    rfl

/-- **Joined clauses are read.**  The groups are found as they were put together, and their slots
    are taken in written order. -/
theorem groups_joined {gs : List (List Clause)} (hgs : gs ≠ []) (hgroups : ∀ group ∈ gs, group ≠ [])
    (hread : ∀ group ∈ gs, ∀ c ∈ group, c.IsRead schema entity) :
    groups schema entity slot (criteriaWords gs) = .ok (numbered slot gs) := by
  induction gs generalizing slot with
  | nil => exact absurd rfl hgs
  | cons group gs ih =>
    obtain ⟨hnonempty, hrest⟩ := List.forall_mem_cons.1 hgroups
    obtain ⟨hgroup, hreadRest⟩ := List.forall_mem_cons.1 hread
    obtain ⟨c, group, rfl⟩ := List.exists_cons_of_ne_nil hnonempty
    -- Numbers go on from group to group, so the induction is for every first number.
    cases gs with
    | nil =>
      have hlast : groups schema entity slot (groupWords (c :: group) ++ []) =
          .ok [numberedGroup slot (c :: group)] := groups_group hgroup nofun (.inl ⟨rfl, rfl⟩)
      rw [List.append_nil] at hlast
      rw [criteriaWords_singleton, hlast]
      rfl
    | cons next gs =>
      have hothers : groups schema entity (slot + arity (c :: group)) (criteriaWords (next :: gs)) =
          .ok (numbered (slot + arity (c :: group)) (next :: gs)) :=
        ih (List.cons_ne_nil _ _) hrest hreadRest
      have hisWord : ∀ w ∈ "Or" :: criteriaWords (next :: gs), Text.IsWord w.toList := by
        refine List.forall_mem_cons.2 ⟨by decide, isWord_of_mem_criteriaWords ?_⟩
        intro g hg c hc
        exact (hreadRest g hg c hc).isWord
      have hmore : criteriaWords (next :: gs) ≠ [] := by
        apply criteriaWords_ne_nil (List.cons_ne_nil _ _) hrest
        intro g hg c hc
        exact (hreadRest g hg c hc).words_ne_nil
      rw [criteriaWords_cons_cons]
      exact groups_group hgroup hisWord (.inr ⟨_, rfl, hmore, hothers⟩)

/-! ### Nothing else is accepted -/

/-- A clause that was found in words: its property is that of a path, and an operator follows. -/
structure Clause.IsFound (schema : Schema) (entity : Entity) (c : Clause) : Prop where
  isProperty : Matches schema 1 entity c.property c.path c.property.length
  spelled : IsSpelling c.spelling c.operator

/-- What is read is a clause, and where it is not the last one, it is joined to what is read off the
    words behind it. -/
theorem exists_clause_of_groups {words : List String} {found : List (List Predicate)}
    (h : groups schema entity slot words = .ok found) :
    ∃ c : Clause, c.IsFound schema entity ∧
      ((words = c.words ∧ found = [[c.comparison slot]]) ∨
        ∃ joiner more others, words = c.words ++ joiner :: more ∧
          groups schema entity (slot + c.operator.arity) more = .ok others ∧
          ((joiner = "And" ∧ found = joinFirst (c.comparison slot) others) ∨
            (joiner = "Or" ∧ found = [c.comparison slot] :: others))) := by
  rw [groups] at h
  split at h
  · cases h
  rename_i path used hmatched
  dsimp only at h
  obtain ⟨spelling, hspelling, hspelled⟩ := isSpelling_of_takeOperator (words.drop used)
  -- The words are those of the property, those of the operator, and the rest.
  obtain ⟨hproperty, hwords⟩ := (Schema.matches_of_matchWithin hmatched).cut hspelling
  let c : Clause := ⟨words.take used, path, spelling, (takeOperator (words.drop used)).1⟩
  have hfound : c.IsFound schema entity := ⟨hproperty, hspelled⟩
  refine ⟨c, hfound, ?_⟩
  obtain ⟨_, _, h⟩ := bind_eq_ok_iff.1 h
  split at h
  · rename_i hrest
    rw [hrest, List.append_nil] at hwords
    exact .inl ⟨hwords, (pure_eq_ok_iff.1 h).symm⟩
  rename_i joiner more hrest
  rw [hrest] at hwords
  split at h
  · cases h
  rename_i hjoiner
  split at h
  · cases h
  obtain ⟨others, hothers, h⟩ := bind_eq_ok_iff.1 h
  refine .inr ⟨joiner, more, others, hwords, hothers, ?_⟩
  by_cases hand : joiner = "And"
  · rw [if_pos hand] at h
    exact .inl ⟨hand, (pure_eq_ok_iff.1 h).symm⟩
  · rw [if_neg hand] at h
    have hor : joiner = "Or" := by
      by_contra hor
      exact hjoiner ⟨hand, hor⟩
    exact .inr ⟨hor, (pure_eq_ok_iff.1 h).symm⟩

/-- The first clause of a group can be split off the criteria as a whole. -/
theorem criteriaWords_cons_of_and (c d : Clause) (group : List Clause) (gs : List (List Clause)) :
    criteriaWords ((c :: d :: group) :: gs) =
      c.words ++ "And" :: criteriaWords ((d :: group) :: gs) := by
  cases gs with
  | nil => rw [criteriaWords_singleton, criteriaWords_singleton, groupWords_cons_cons]
  | cons next gs =>
    rw [criteriaWords_cons_cons, criteriaWords_cons_cons, groupWords_cons_cons, List.append_assoc,
      List.cons_append]

/-- **Criteria that are accepted are joined clauses**, and each of their words has a part in
    them. -/
theorem exists_clauses_of_groups {words : List String} {found : List (List Predicate)}
    (h : groups schema entity slot words = .ok found) :
    ∃ gs, gs ≠ [] ∧ (∀ group ∈ gs, group ≠ []) ∧ words = criteriaWords gs ∧
      found = numbered slot gs ∧ ∀ group ∈ gs, ∀ c ∈ group, c.IsFound schema entity := by
  -- Reading goes on behind a clause and its joiner, so the induction is on the number of words.
  induction hlength : words.length using Nat.strongRecOn generalizing slot words found with
  | ind length ih =>
  subst hlength
  obtain ⟨c, hc, ⟨rfl, rfl⟩ | ⟨joiner, more, others, rfl, hothers, hjoin⟩⟩ :=
    exists_clause_of_groups h
  · refine ⟨[[c]], List.cons_ne_nil _ _, ?_, ?_, rfl, ?_⟩
    · exact List.forall_mem_singleton.2 (List.cons_ne_nil _ _)
    · rw [criteriaWords_singleton, groupWords_singleton]
    · exact List.forall_mem_singleton.2 (List.forall_mem_singleton.2 hc)
  have hshorter : more.length < (c.words ++ joiner :: more).length := by
    rw [List.length_append, List.length_cons]
    omega
  obtain ⟨gs, hgs, hgroups, rfl, rfl, hfound⟩ := ih _ hshorter hothers rfl
  obtain ⟨group, gs, rfl⟩ := List.exists_cons_of_ne_nil hgs
  rcases hjoin with ⟨rfl, rfl⟩ | ⟨rfl, rfl⟩
  · -- The clause joins the first of the groups behind it.
    obtain ⟨d, group, rfl⟩ := List.exists_cons_of_ne_nil (hgroups group List.mem_cons_self)
    obtain ⟨hfirst, hrest⟩ := List.forall_mem_cons.1 hfound
    refine ⟨(c :: d :: group) :: gs, List.cons_ne_nil _ _, ?_, ?_, ?_, ?_⟩
    · exact List.forall_mem_cons.2 ⟨List.cons_ne_nil _ _, (List.forall_mem_cons.1 hgroups).2⟩
    · rw [criteriaWords_cons_of_and]
    · simp only [numbered, numberedGroup, joinFirst, arity, Nat.add_assoc]
    · exact List.forall_mem_cons.2 ⟨List.forall_mem_cons.2 ⟨hc, hfirst⟩, hrest⟩
  · -- The clause is a group of its own.
    refine ⟨[c] :: group :: gs, List.cons_ne_nil _ _, ?_, ?_, ?_, ?_⟩
    · exact List.forall_mem_cons.2 ⟨List.cons_ne_nil _ _, hgroups⟩
    · rw [criteriaWords_cons_cons, groupWords_singleton]
    · rfl
    · exact List.forall_mem_cons.2 ⟨List.forall_mem_singleton.2 hc, hfound⟩

/-! ### Order -/

/-- The words of a directive: those of its property, and a direction that may be left out where it
    is the ascending one. -/
structure SortClause where
  property : List String
  path : Path
  spelling : List String
  direction : Direction

namespace SortClause

/-- The words of a clause of an order: its property, then its direction. -/
def words (c : SortClause) : List String := c.property ++ c.spelling

/-- The sort directive that such a clause stands for. -/
def directive (c : SortClause) : SortDirective := ⟨c.path, c.direction⟩

/-- A sort clause that was found in words. -/
structure IsFound (schema : Schema) (entity : Entity) (c : SortClause) : Prop where
  isProperty : Matches schema 1 entity c.property c.path c.property.length
  spelled : (c.spelling, c.direction) ∈
    [([], .ascending), (["Asc"], .ascending), (["Desc"], Direction.descending)]

end SortClause

/-- A direction is taken together with the word that spells it, or is ascending without one. -/
theorem takeDirection_spelled (words : List String) :
    ∃ spelling, words = spelling ++ (takeDirection words).2 ∧
      (spelling, (takeDirection words).1) ∈
        [([], .ascending), (["Asc"], .ascending), (["Desc"], Direction.descending)] := by
  unfold takeDirection
  split
  · exact ⟨["Desc"], rfl, by simp⟩
  · exact ⟨["Asc"], rfl, by simp⟩
  · exact ⟨[], rfl, by simp⟩

/-- **An order that is accepted** consists of directives, and each of its words has a part in
    them. -/
theorem exists_sortClauses_of_directives {words : List String} {order : SortOrder}
    (h : directives schema entity words = .ok order) :
    ∃ cs : List SortClause, words = cs.flatMap SortClause.words ∧
      order = cs.map SortClause.directive ∧ ∀ c ∈ cs, c.IsFound schema entity := by
  induction hlength : words.length using Nat.strongRecOn generalizing words order with
  | ind length ih =>
  subst hlength
  rw [directives] at h
  split at h
  · rename_i hempty
    cases h
    exact ⟨[], List.isEmpty_iff.1 hempty, rfl, nofun⟩
  split at h
  · cases h
  rename_i path used hmatched
  obtain ⟨rest, hrest, h⟩ := bind_eq_ok_iff.1 h
  obtain rfl := pure_eq_ok_iff.1 h
  have hmatch := Schema.matches_of_matchWithin hmatched
  obtain ⟨spelling, hspelling, hspelled⟩ := takeDirection_spelled (words.drop used)
  obtain ⟨hproperty, hwords⟩ := hmatch.cut hspelling
  -- Every clause takes at least its property, so there are fewer words each time.
  have hshorter : (takeDirection (words.drop used)).2.length < words.length := by
    have hle := length_takeDirection_le (words.drop used)
    have hpos := hmatch.pos
    have hused := hmatch.le
    rw [List.length_drop] at hle
    omega
  obtain ⟨cs, heq, rfl, hfound⟩ := ih _ hshorter hrest rfl
  let c : SortClause := ⟨words.take used, path, spelling, (takeDirection (words.drop used)).1⟩
  have hc : c.IsFound schema entity := ⟨hproperty, hspelled⟩
  refine ⟨c :: cs, ?_, rfl, List.forall_mem_cons.2 ⟨hc, hfound⟩⟩
  rw [List.flatMap_cons, ← heq]
  exact hwords

end MethodQuery

end EntityQuery
