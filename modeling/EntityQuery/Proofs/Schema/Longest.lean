import EntityQuery.Proofs.Schema.Matching
import EntityQuery.Proofs.Schema.Resolved
import EntityQuery.Proofs.Text.Words

namespace EntityQuery

open Text

/-!
# Longest spelled properties

Words spell a property if they fall into groups from which its names are joined, one group for each
name (`Path.JoinedFrom`).  That is what the search looks for: its matches are the properties that the
first words spell (`Matches.spells`, `Schema.Spells.matches`).  So it finds something exactly if
anything is spelled, and then nothing longer is (`Schema.matchProperty_longest`).

What is found can be followed in the schema, with one exception: a property without a name is spelled
by an empty word, but no path leads to it (`Schema.matchProperty_nameless`).
-/

/-- The names of a path are joined from groups of words that stand side by side. -/
def Path.JoinedFrom (path : Path) (words : List String) : Prop :=
  ∃ groups : List (List String), (∀ group ∈ groups, group ≠ []) ∧
    groups.map lowerCamel = path.segments ∧ groups.flatten = words

/-- The first `n` words spell a property over at most one association. -/
structure Schema.Spells (schema : Schema) (root : Entity) (words : List String) (path : Path)
    (n : Nat) : Prop where
  property : IsProperty schema root path
  within : n ≤ words.length
  joined : path.JoinedFrom (words.take n)

/-- No field has the name of an association. -/
def Entity.NamesApart (e : Entity) : Prop :=
  ∀ f ∈ e.fields, ∀ a ∈ e.associations, f.name ≠ a.name

instance (e : Entity) : Decidable e.NamesApart :=
  inferInstanceAs (Decidable (∀ f ∈ e.fields, ∀ a ∈ e.associations, f.name ≠ a.name))

variable {schema : Schema} {root : Entity} {words : List String} {path : Path} {n : Nat}

/-! ### Matches and groups of words -/

/-- At least one word is taken. -/
theorem take_ne_nil {n : Nat} (hpos : 0 < n) (hle : n ≤ words.length) : words.take n ≠ [] :=
  List.ne_nil_of_length_pos (by rw [List.length_take_of_le hle]; exact hpos)

/-- A match of the reader is a spelling of the property. -/
theorem Matches.spells (h : Matches schema 1 root words path n) : schema.Spells root words path n where
  property := h.isProperty
  within := h.le
  joined := by
    cases h with
    | own hpos hle _ =>
      exact ⟨[words.take n], List.forall_mem_singleton.2 (take_ne_nil hpos hle), rfl,
        List.append_nil _⟩
    | @across _ _ _ k _ _ _ used hpos hle _ _ _ hbeyond =>
      cases hbeyond with
      | own hpos' hle' _ =>
        -- One group for the association, and one behind it for the property of its target.
        refine ⟨[words.take k, (words.drop k).take used], ?_, rfl, ?_⟩
        · exact List.forall_mem_cons.2 ⟨take_ne_nil hpos hle,
            List.forall_mem_singleton.2 (take_ne_nil hpos' hle')⟩
        · rw [List.flatten_cons, List.flatten_singleton, ← List.take_add]

/-- A name is joined from the words of its own group. -/
theorem Matches.of_group {e : Entity} {depth : Nat} {group rest : List String}
    (hne : group ≠ []) (hdeclared : e.Declares (lowerCamel group)) :
    Matches schema depth e (group ++ rest) ⟨[lowerCamel group]⟩ group.length :=
  .of_joined (List.length_pos_of_ne_nil hne) (by rw [List.length_append]; omega)
    (by rw [List.take_left]) hdeclared

/-- Every spelling of a property is a match of the reader. -/
theorem Schema.Spells.matches (h : schema.Spells root words path n) :
    Matches schema 1 root words path n := by
  obtain ⟨groups, hne, hnames, hfront⟩ := h.joined
  have hwords : words = groups.flatten ++ words.drop n := by rw [hfront, List.take_append_drop]
  have hlength : groups.flatten.length = n := by rw [hfront, List.length_take_of_le h.within]
  rw [hwords, ← hlength]
  -- The groups of words are one for each step, so there are one or two of them.
  cases h.property with
  | own declared =>
    obtain ⟨group, rfl, rfl⟩ := List.map_eq_singleton_iff.1 hnames
    rw [List.flatten_singleton]
    exact .of_group (hne _ List.mem_cons_self) declared
  | across named toOne reached declared =>
    obtain ⟨first, rest, rfl, rfl, hrest⟩ := List.map_eq_cons_iff.1 hnames
    obtain ⟨second, rfl, rfl⟩ := List.map_eq_singleton_iff.1 hrest
    obtain ⟨hfirst, hsecond⟩ := List.forall_mem_cons.1 hne
    rw [List.flatten_cons, List.flatten_singleton, List.append_assoc, List.length_append]
    exact .of_joined_association (List.length_pos_of_ne_nil hfirst)
      (by rw [List.length_append]; omega) (by rw [List.take_left]) named toOne reached
      List.drop_left (.of_group (hsecond _ List.mem_cons_self) declared)

/-! ### Properties and paths -/

/-- What is the name of an association is that of no field. -/
theorem Entity.NamesApart.fieldNamed?_eq_none (h : root.NamesApart) {name : String} {a : Association}
    (ha : root.associationNamed? name = some a) : root.fieldNamed? name = none := by
  cases hf : root.fieldNamed? name with
  | none => rfl
  | some f =>
    obtain ⟨hfield, hfname⟩ := Entity.mem_of_fieldNamed? hf
    obtain ⟨hassociation, haname⟩ := Entity.mem_of_associationNamed? ha
    exact absurd (hfname.trans haname.symm) (h f hfield a hassociation)

/-- A declared name is that of a property. -/
theorem Entity.Declares.exists_property? {e : Entity} {name : String} (h : e.Declares name) :
    ∃ terminal, e.property? name = some terminal := by
  unfold Entity.property?
  split
  · exact ⟨_, rfl⟩
  · rename_i hfield
    obtain ⟨a, ha⟩ := Option.isSome_iff_exists.1 (h.resolve_left (by simp [hfield]))
    exact ⟨.association a, by rw [ha, Option.map_some]⟩

/-- A property is followed by its names, if those of the entity are told apart. -/
theorem IsProperty.exists_crosses (hnames : root.NamesApart) (h : IsProperty schema root path) :
    ∃ hops owner terminal, Crosses schema root path.segments hops owner terminal := by
  cases h with
  | own declared =>
    obtain ⟨terminal, hterminal⟩ := declared.exists_property?
    exact ⟨_, _, _, .last hterminal⟩
  | across named toOne reached declared =>
    obtain ⟨terminal, hterminal⟩ := declared.exists_property?
    refine ⟨_, _, _, .across ?_ toOne reached (.last hterminal)⟩
    rw [Entity.property?, hnames.fieldNamed?_eq_none named, named, Option.map_some]

/-- **A property can be followed** from an entity whose names are told apart, unless it is reached
    over an empty name. -/
theorem IsProperty.resolve_iff (hnames : root.NamesApart) (h : IsProperty schema root path) :
    (∃ r, schema.resolve root path = .ok r) ↔ ∀ name ∈ path.segments, name ≠ "" := by
  simp only [resolve_eq_ok_iff]
  constructor
  · rintro ⟨_, hsegments, _⟩
    exact hsegments
  · intro hsegments
    obtain ⟨hops, owner, terminal, hcrosses⟩ := h.exists_crosses hnames
    exact ⟨⟨path, hops, owner, terminal⟩, hsegments, rfl, hcrosses⟩

/-- The names of a match are made up of words. -/
theorem Matches.segments_ne_empty {depth n : Nat} {words : List String}
    (h : Matches schema depth root words path n) (hwords : ∀ w ∈ words, w ≠ "") :
    ∀ s ∈ path.segments, s ≠ "" := by
  have hname : ∀ {words : List String} {k : Nat}, 0 < k → k ≤ words.length →
      (∀ w ∈ words, w ≠ "") → lowerCamel (words.take k) ≠ "" := by
    intro words k hpos hle hwords
    exact lowerCamel_ne_empty (take_ne_nil hpos hle) fun w hw => hwords w (List.mem_of_mem_take hw)
  induction h with
  | own hpos hle => exact List.forall_mem_singleton.2 (hname hpos hle hwords)
  | across hpos hle _ _ _ _ ih =>
    exact List.forall_mem_cons.2
      ⟨hname hpos hle hwords, ih fun w hw => hwords w (List.mem_of_mem_drop hw)⟩

/-! ### What is found -/

/-- **Property matching is sound and longest.**  It finds something exactly if the first words spell a
    property; then it is a property that just so many words spell, and no more of them spell one.  What
    is found can be followed exactly if none of its names is empty, and so whenever no word is. -/
theorem Schema.matchProperty_longest (hnames : root.NamesApart) (words : List String) :
    ((∃ path n, schema.matchProperty root words = some (path, n)) ↔
      ∃ path n, schema.Spells root words path n) ∧
    ∀ path n, schema.matchProperty root words = some (path, n) →
      schema.Spells root words path n ∧
      (∀ other k, schema.Spells root words other k → k ≤ n) ∧
      ((∃ r, schema.resolve root path = .ok r) ↔ ∀ name ∈ path.segments, name ≠ "") ∧
      ((∀ w ∈ words, w ≠ "") → ∃ r, schema.resolve root path = .ok r) := by
  refine ⟨⟨?_, ?_⟩, ?_⟩
  · rintro ⟨path, n, h⟩
    exact ⟨path, n, (matches_of_matchWithin h).spells⟩
  · rintro ⟨path, n, h⟩
    obtain ⟨best, used, hbest, _⟩ := le_matchWithin h.matches
    exact ⟨best, used, hbest⟩
  · intro path n h
    -- What is found is a match, and no match is longer, so no spelling is.
    have hmatch := matches_of_matchWithin h
    have hresolve := hmatch.isProperty.resolve_iff hnames
    refine ⟨hmatch.spells, fun other k hother => ?_, hresolve,
      fun hwords => hresolve.2 (hmatch.segments_ne_empty hwords)⟩
    obtain ⟨best, used, hbest, hle⟩ := le_matchWithin hother.matches
    cases h.symm.trans hbest
    exact hle

/-- Of the words `Team`, `Parent`, `Id` the first two spell the parent of a team, and no property of a
    member is spelled by all three. -/
theorem Schema.matchProperty_longest_teamParent :
    Sample.league.matchProperty Sample.member ["Team", "Parent", "Id"] =
        some (⟨["team", "parent"]⟩, 2) ∧
      (∀ other k, Sample.league.Spells Sample.member ["Team", "Parent", "Id"] other k → k ≤ 2) ∧
      ∃ r, Sample.league.resolve Sample.member ⟨["team", "parent"]⟩ = .ok r := by
  have hfound : Sample.league.matchProperty Sample.member ["Team", "Parent", "Id"] =
      some (⟨["team", "parent"]⟩, 2) := by decide
  have hnames : Sample.member.NamesApart := by decide
  obtain ⟨_, hlongest⟩ := @matchProperty_longest Sample.league _ hnames ["Team", "Parent", "Id"]
  obtain ⟨_, hle, hresolve, _⟩ := hlongest _ _ hfound
  exact ⟨hfound, hle, hresolve.2 (by decide)⟩

namespace Sample

/-- Memos have a text that was given no name. -/
def memo : Entity :=
  (({ name := "Memo", table := "memo" } : Entity).withId "id" "memo_id").withFieldIn
    "" "text" .text false

/-- A schema of memos. -/
def memos : Schema := ⟨[memo]⟩

end Sample

/-- **A property without a name is found but cannot be followed.**  The schema is built, and an empty
    word is joined to the empty name; a path with an empty segment leads nowhere. -/
theorem Schema.matchProperty_nameless :
    Schema.build [Sample.memo] = .ok Sample.memos ∧ Sample.memo.NamesApart ∧
      Sample.memos.matchProperty Sample.memo [""] = some (⟨[""]⟩, 1) ∧
      Sample.memos.Spells Sample.memo [""] ⟨[""]⟩ 1 ∧
      Sample.memos.resolve Sample.memo ⟨[""]⟩ = .error (.emptySegment ⟨[""]⟩) := by
  have hfound : Sample.memos.matchProperty Sample.memo [""] = some (⟨[""]⟩, 1) := by decide
  exact ⟨by decide, by decide, hfound, (matches_of_matchWithin hfound).spells, by decide⟩

end EntityQuery
