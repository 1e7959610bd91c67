import EntityQuery.Proofs.Result.Parameters
import EntityQuery.Proofs.Schema.Longest

namespace EntityQuery

open Text

/-!
# Properties under their own names

The words of a declared name are also those of a path over an association if the names of this path
are spelled alike (`Schema.Shadows`): `teamName` may be a field, or the `name` of a `team`.  All of the
words are found (`Schema.matchProperty_ownName`), but of two matches that take all of them the search
keeps the one it met first, and it meets what lies behind an association before the name that was
declared.  Constructors look for a declared name first (`SelectList.parameterPath?_ownName`), so methods
and parameters of one name mean the same property exactly if nothing shadows it.
-/

/-- The names of fields and associations are lower camel. -/
def Entity.LowerCamelNames (e : Entity) : Prop :=
  (∀ f ∈ e.fields, isLowerCamel f.name = true) ∧ ∀ a ∈ e.associations, isLowerCamel a.name = true

instance (e : Entity) : Decidable e.LowerCamelNames := inferInstanceAs (Decidable (_ ∧ _))

/-- All names of properties are lower camel. -/
def Schema.LowerCamelNames (schema : Schema) : Prop := ∀ e ∈ schema.entities, e.LowerCamelNames

instance (schema : Schema) : Decidable schema.LowerCamelNames :=
  inferInstanceAs (Decidable (∀ e ∈ schema.entities, e.LowerCamelNames))

/-- A property over an association that is spelled like a name. -/
structure Schema.Shadows (schema : Schema) (e : Entity) (name first second : String) : Prop where
  property : IsProperty schema e ⟨[first, second]⟩
  alike : Path.camelCase ⟨[first, second]⟩ = name

/-- What the words of a declared name are taken for: the name itself, or else the property over the
    association with the shortest name. -/
inductive Schema.TakenFor (schema : Schema) (e : Entity) (name : String) : Path → Prop where
  | own (unshadowed : ∀ first second, ¬schema.Shadows e name first second) :
    TakenFor schema e name ⟨[name]⟩
  | shadow {first second} (shadows : schema.Shadows e name first second)
    (shortest : ∀ first' second', schema.Shadows e name first' second' →
      first.length ≤ first'.length) :
    TakenFor schema e name ⟨[first, second]⟩

variable {schema : Schema} {e : Entity} {name : String} {path : Path} {words : List String}

/-! ### Lower camel names -/

/-- What an entity declares has a name in camel case, if all its names are. -/
theorem Entity.LowerCamelNames.of_declares (h : e.LowerCamelNames) (hdeclares : e.Declares name) :
    isLowerCamel name = true := by
  rcases List.mem_append.1 hdeclares.mem_names with hname | hname
  · obtain ⟨f, hf, rfl⟩ := List.mem_map.1 hname
    exact h.1 f hf
  · obtain ⟨a, ha, rfl⟩ := List.mem_map.1 hname
    exact h.2 a ha

/-- So has each step of a property. -/
theorem IsProperty.isLowerCamel (hcase : schema.LowerCamelNames) (he : e ∈ schema.entities)
    (h : IsProperty schema e path) : path.IsLowerCamel := by
  cases h with
  | own declared => exact List.forall_mem_singleton.2 ((hcase e he).of_declares declared)
  | across named toOne reached declared =>
    have htarget := Schema.mem_entities_of_entity? reached
    exact List.forall_mem_cons.2 ⟨(hcase e he).of_declares (.inr (by rw [named]; rfl)),
      List.forall_mem_singleton.2 ((hcase _ htarget).of_declares declared)⟩

/-- A path of one step is written as its name. -/
theorem Path.camelCase_single (name : String) : Path.camelCase ⟨[name]⟩ = name := by
  simp [Path.camelCase]

/-- A lower camel name has no dot in it, so it is the path of one segment. -/
theorem Path.parse_of_isLowerCamel (h : Text.isLowerCamel name = true) :
    Path.parse name = ⟨[name]⟩ := by
  have hdot : '.' ∉ name.toList := by
    unfold Text.isLowerCamel at h
    split at h
    · cases h
    rename_i c rest hname
    rw [Bool.and_eq_true, List.all_eq_true] at h
    rw [hname]
    -- Camel case has letters and digits only, hence no dot.
    intro hmem
    rcases List.mem_cons.1 hmem with rfl | hmem
    · exact absurd h.1 (by decide)
    · exact absurd (h.2 _ hmem) (by decide)
  rw [Path.parse, List.splitOn_eq_singleton hdot, List.map_singleton, String.ofList_toList]

/-- Fewer words make up a shorter name. -/
theorem length_lowerCamel_take_le {i k : Nat} (h : i ≤ k) (words : List String) :
    (lowerCamel (words.take i)).length ≤ (lowerCamel (words.take k)).length := by
  cases words with
  | nil => simp
  | cons word words =>
    cases i with
    | zero => simp [lowerCamel]
    | succ i =>
      obtain ⟨k, rfl⟩ : ∃ j, k = j + 1 := ⟨k - 1, by omega⟩
      have hfront : (words.take k).take i = words.take i := by
        rw [List.take_take, Nat.min_eq_left (by omega)]
      -- The longer name is the shorter one with the words in between behind it.
      have hjoin : String.join (words.take k) =
          String.join (words.take i) ++ String.join ((words.take k).drop i) := by
        rw [← hfront, ← String.join_append, List.take_append_drop]
      simp only [List.take_succ_cons, lowerCamel, String.length_append, hjoin]
      omega

/-! ### The first of the longest matches -/

namespace Schema

/-- Nothing is given up for a match that is no longer. -/
theorem foldl_longer_of_le {candidates : List PropertyMatch} {best : PropertyMatch}
    (h : ∀ c ∈ candidates, c.2 ≤ best.2) : candidates.foldl longer (some best) = some best := by
  induction candidates with
  | nil => rfl
  | cons c candidates ih =>
    obtain ⟨hc, hrest⟩ := List.forall_mem_cons.1 h
    have hkept : longer (some best) c = some best := if_pos hc
    rw [List.foldl_cons, hkept, ih hrest]

/-- If nothing behind is longer than a match in front, what is found is in front. -/
theorem exists_longest_append {front behind : List PropertyMatch} {c : PropertyMatch}
    (hc : c ∈ front) (hle : ∀ d ∈ behind, d.2 ≤ c.2) :
    ∃ m ∈ front, longest (front ++ behind) = some m := by
  obtain ⟨m, hm, hcm⟩ := le_longest hc
  refine ⟨m, mem_of_longest hm, ?_⟩
  rw [longest, List.foldl_append]
  have hfront : front.foldl longer none = some m := hm
  rw [hfront]
  apply foldl_longer_of_le
  intro d hd
  exact (hle d hd).trans hcm

/-- **Shorter first names come first.**  Of the matches that take all words, the one that is found has
    no longer first name than any other. -/
theorem exists_front_of_matchWithin {depth k : Nat} {m : PropertyMatch} (hpos : 0 < k)
    (hle : k ≤ words.length) (hm : m ∈ matchesOf (schema.beyond depth) e words k)
    (hall : m.2 = words.length) :
    ∃ i found, 0 < i ∧ i ≤ k ∧ found ∈ matchesOf (schema.beyond depth) e words i ∧
      schema.matchWithin depth e words = some found := by
  have hsplit : List.range' 1 words.length =
      List.range' 1 k ++ List.range' (1 + k) (words.length - k) := by
    rw [List.range'_append_1, Nat.add_sub_cancel' hle]
  have hfront : m ∈ (List.range' 1 k).flatMap (matchesOf (schema.beyond depth) e words) :=
    List.mem_flatMap.2 ⟨k, List.mem_range'_1.2 (by omega), hm⟩
  -- No match takes more words than there are.
  have hbound : ∀ d ∈ (List.range' (1 + k) (words.length - k)).flatMap
      (matchesOf (schema.beyond depth) e words), d.2 ≤ m.2 := by
    intro d hd
    obtain ⟨i, hi, hd⟩ := List.mem_flatMap.1 hd
    have hrange := List.mem_range'_1.1 hi
    have hd := (matches_of_mem_matchesOf (by omega) (by omega) hd).le
    omega
  obtain ⟨found, hmem, hfound⟩ := exists_longest_append hfront hbound
  obtain ⟨i, hi, hfoundIn⟩ := List.mem_flatMap.1 hmem
  have hrange := List.mem_range'_1.1 hi
  refine ⟨i, found, by omega, by omega, hfoundIn, ?_⟩
  rw [matchWithin_eq, hsplit, List.flatMap_append, hfound]

end Schema

/-! ### The words of a declared name -/

namespace Schema

/-- All the words of a declared name are found. -/
theorem exists_matchWithin_nameWords (schema : Schema) (depth : Nat)
    (hname : isLowerCamel name = true) (h : e.Declares name) :
    ∃ path, schema.matchWithin depth e (nameWords name) =
      some (path, (nameWords name).length) := by
  have hself : Matches schema depth e (nameWords name ++ [])
      ⟨[lowerCamel (nameWords name)]⟩ (nameWords name).length :=
    .of_group (nameWords_ne_nil hname) (by rwa [lowerCamel_nameWords hname])
  rw [List.append_nil] at hself
  obtain ⟨path, used, hfound, hle⟩ := le_matchWithin hself
  have hused : used = (nameWords name).length :=
    Nat.le_antisymm (matches_of_matchWithin hfound).le hle
  exact ⟨path, by rw [hfound, hused]⟩

/-- What is found by all the words of a name is the name itself or shadows it. -/
theorem eq_or_shadows_of_matchProperty (hname : isLowerCamel name = true)
    (h : schema.matchProperty e (nameWords name) = some (path, (nameWords name).length)) :
    path = ⟨[name]⟩ ∨ ∃ first second, path = ⟨[first, second]⟩ ∧
      schema.Shadows e name first second := by
  obtain ⟨hmatch, hlength⟩ := schema.matchProperty_words_name e hname
  rw [← hmatch, ← hlength] at h
  have hsingle : Path.IsLowerCamel ⟨[name]⟩ := List.forall_mem_singleton.2 hname
  rw [← Path.camelCase_single name] at h
  obtain ⟨hproperty, _, halike⟩ :=
    SelectList.camelCase_of_matchProperty hsingle (List.cons_ne_nil _ _) h rfl
  rw [Path.camelCase_single] at halike
  -- The match is spelled as the name is. So it is that name, or a path across an association that reads the
  -- same.
  cases hproperty with
  | own declared =>
    rw [Path.camelCase_single] at halike
    exact .inl (by rw [halike])
  | across named toOne reached declared =>
    exact .inr ⟨_, _, rfl, .across named toOne reached declared, halike⟩

/-- What shadows a name is found before it, over an association with no longer a name. -/
theorem Shadows.exists_found {first second : String} (hcase : schema.LowerCamelNames)
    (he : e ∈ schema.entities) (h : schema.Shadows e name first second)
    (hfound : schema.matchProperty e (nameWords name) = some (path, (nameWords name).length)) :
    ∃ first' second', path = ⟨[first', second']⟩ ∧ first'.length ≤ first.length := by
  obtain ⟨hfirst, hsecond⟩ := List.forall_mem_cons.1 (h.property.isLowerCamel hcase he)
  have hsecond : isLowerCamel second = true := hsecond second List.mem_cons_self
  have hwords : nameWords name = nameWords first ++ nameWords second := by
    rw [← h.alike, Path.nameWords_camelCase (h.property.isLowerCamel hcase he), Path.words_cons,
      Path.words_single]
  have hfirstPos := List.length_pos_of_ne_nil (nameWords_ne_nil hfirst)
  have hsecondPos := List.length_pos_of_ne_nil (nameWords_ne_nil hsecond)
  have hlength := congrArg List.length hwords
  rw [List.length_append] at hlength
  have hjoined : lowerCamel ((nameWords name).take (nameWords first).length) = first := by
    rw [hwords, List.take_left, lowerCamel_nameWords hfirst]
  have hbehind : (nameWords name).drop (nameWords first).length = nameWords second := by
    rw [hwords, List.drop_left]
  cases h.property with
  | @across _ _ a target named toOne reached declared =>
    -- What is found behind the association takes all of the words there.
    obtain ⟨rest, hrest⟩ := exists_matchWithin_nameWords schema 0 hsecond declared
    have hcandidate : (⟨first :: rest.segments⟩, (nameWords first).length + (nameWords second).length) ∈
        matchesOf (schema.beyond 1) e (nameWords name) (nameWords first).length := by
      have hbeyond : schema.beyond 1 a (nameWords second) =
          some (rest, (nameWords second).length) :=
        beyond_eq_some_iff.2 ⟨0, target, rfl, toOne, reached, hrest⟩
      rw [mem_matchesOf, hjoined, hbehind]
      exact .inr ⟨a, rest, _, named, hbeyond, rfl⟩
    obtain ⟨i, found, hpos, hle, hmem, hfirstFound⟩ :=
      exists_front_of_matchWithin hfirstPos (by omega) hcandidate hlength.symm
    cases hfound.symm.trans hfirstFound
    rcases mem_matchesOf.1 hmem with ⟨heq, _⟩ | ⟨a', rest', used, _, hbeyond, heq⟩
    · -- A name that is declared takes fewer words.
      have htaken : (nameWords name).length = i := congrArg Prod.snd heq
      omega
    · obtain ⟨_, target', hdepth, _, _, hrest'⟩ := beyond_eq_some_iff.1 hbeyond
      cases hdepth
      cases matches_of_matchWithin hrest' with
      | own =>
        refine ⟨_, _, congrArg Prod.fst heq, ?_⟩
        have hshorter := length_lowerCamel_take_le hle (nameWords name)
        rwa [hjoined] at hshorter

/-- **What the words of a declared name are taken for.** -/
theorem takenFor_of_matchProperty (hcase : schema.LowerCamelNames) (he : e ∈ schema.entities)
    (hname : isLowerCamel name = true)
    (hfound : schema.matchProperty e (nameWords name) = some (path, (nameWords name).length)) :
    schema.TakenFor e name path := by
  rcases eq_or_shadows_of_matchProperty hname hfound with rfl | ⟨first, second, rfl, hshadows⟩
  · refine .own fun first second hshadows => ?_
    obtain ⟨_, _, htwo, _⟩ := hshadows.exists_found hcase he hfound
    cases htwo
  · refine .shadow hshadows fun first' second' hother => ?_
    obtain ⟨_, _, hsame, hle⟩ := hother.exists_found hcase he hfound
    cases hsame
    exact hle

end Schema

/-! ### Methods and parameters -/

namespace MethodQuery

/-- Finds what has a given value. -/
def byEquality (path : Path) : MethodQuery where
  subject := .find
  limit := none
  distinct := false
  predicate := some (comparison path .equals 0)
  slots := [⟨0, none⟩]
  order := []

/-- Fields are what can be compared with a value. -/
theorem checkComparison_equals_iff (hself : schema.entity? e.name = some e) :
    checkComparison schema e path .equals = .ok () ↔ schema.EndsInField e path := by
  have hlift : ∀ r, (liftM (schema.resolve e path) : Except MethodDefect Resolution) = .ok r ↔
      schema.resolve e path = .ok r := fun r => mapError_eq_ok_iff
  unfold checkComparison
  rw [hself]
  dsimp only
  simp only [bind_eq_ok_iff, hlift, Schema.EndsInField]
  refine exists_congr fun r => and_congr_right fun _ => ?_
  unfold Resolution.isField Resolution.field?
  cases r.terminal with
  | field f => simp [pure, Except.pure]
  | association a =>
    -- Equality takes an argument, and a null test is all that can be asked of an association.
    have harity : (Operator.equals.arity == 0) = false := rfl
    simp [harity, throw, throwThe, MonadExceptOf.throw]

/-- **A method on a declared name** compares the field that the name is taken for. -/
theorem parse_findBy_iff (hself : schema.entity? e.name = some e) (hname : isLowerCamel name = true)
    (hplain : ¬"OrderBy".toList <:+: Text.capitalised name)
    (hfound : schema.matchProperty e (nameWords name) = some (path, (nameWords name).length))
    {q : MethodQuery} :
    parse schema e (String.ofList ("findBy".toList ++ Text.capitalised name)) = .ok q ↔
      q = byEquality path ∧ schema.EndsInField e path := by
  have hwords : ∀ w ∈ nameWords name, IsWord w.toList := by
    intro w hw
    exact isWord_of_mem_nameWords hname hw
  rw [← flatMap_nameWords hname] at hplain ⊢
  have hparse := @Descriptor.parse?_spelled _ [] hwords nofun (Descriptor.isChain_notOrderBy hplain)
  have hend : Descriptor.orderText [] = [] := if_pos rfl
  rw [hend, List.append_nil, if_pos rfl] at hparse
  unfold parse
  rw [hparse]
  dsimp only
  rw [words_flatMap hwords, predicateOf_property hfound]
  -- The property is found whatever it is; only the check decides whether it may be compared.
  cases hcheck : checkComparison schema e path .equals with
  | error defect =>
    refine iff_of_false nofun ?_
    rintro ⟨_, hfield⟩
    cases hcheck.symm.trans ((checkComparison_equals_iff hself).2 hfield)
  | ok _ =>
    have hfield := (checkComparison_equals_iff hself).1 hcheck
    constructor
    · intro h
      cases h
      exact ⟨rfl, hfield⟩
    · rintro ⟨rfl, _⟩
      rfl

end MethodQuery

namespace SelectList

/-- A lower camel name leads to a field exactly if it is that of one. -/
theorem endsInField_single_iff (hname : isLowerCamel name = true) :
    schema.EndsInField e ⟨[name]⟩ ↔ (e.fieldNamed? name).isSome = true := by
  have hne : name.isEmpty = false := by
    rw [← Bool.not_eq_true, String.isEmpty_iff]
    rintro rfl
    cases hname
  have hresolve : schema.resolve e ⟨[name]⟩ = schema.follow ⟨[name]⟩ [] e [name] := by
    simp [Schema.resolve, hne]
  rw [Schema.EndsInField, hresolve, Schema.follow]
  -- A field is looked for first, and what is no field ends in an association or nowhere.
  cases e.fieldNamed? name with
  | some f => exact iff_of_true ⟨_, rfl, rfl⟩ rfl
  | none =>
    refine iff_of_false ?_ Bool.false_ne_true
    rintro ⟨r, hr, hfield⟩
    dsimp only at hr
    split at hr
    · cases hr
    · cases hr
      cases hfield

/-- **A parameter is the declared field of its name**; only without one it is what the words of the
    name are taken for. -/
theorem parameterPath?_ownName (hname : isLowerCamel name = true)
    (hfound : schema.matchProperty e (nameWords name) = some (path, (nameWords name).length))
    (other : Path) :
    parameterPath? schema e name = some other ↔
      if (e.fieldNamed? name).isSome = true then other = ⟨[name]⟩
      else other = path ∧ schema.EndsInField e path := by
  have hparse := Path.parse_of_isLowerCamel hname
  -- The dotted path is tried first, and it is there exactly if a field has the name.
  split
  · rename_i hfield
    have hends : schema.EndsInField e (.parse name) := by
      rw [hparse]
      exact (endsInField_single_iff hname).2 hfield
    rw [parameterPath?_of_endsInField hends, hparse, Option.some.injEq, eq_comm]
  · rename_i hnone
    have hends : ¬schema.EndsInField e (.parse name) := by
      rw [hparse, endsInField_single_iff hname]
      exact hnone
    obtain ⟨hmatch, hlength⟩ := schema.matchProperty_words_name e hname
    rw [parameterPath?_eq_some_iff hends, hmatch, hlength, hfound, Option.some.injEq, Prod.mk.injEq]
    constructor
    · rintro ⟨⟨rfl, _⟩, hfield⟩
      exact ⟨rfl, hfield⟩
    · rintro ⟨rfl, hfield⟩
      exact ⟨⟨rfl, rfl⟩, hfield⟩

end SelectList

/-- **What a declared name is taken for.**  All of its words are found, and what is found is the
    property itself, unless a path over an association shadows it.  A method on the name compares what
    was found, if that is a field.  A parameter of the name is the declared field of this name; where
    there is none, it is what was found, if that is a field. -/
theorem Schema.matchProperty_ownName {entities : List Entity}
    (hbuilt : Schema.build entities = .ok schema) (hcase : schema.LowerCamelNames)
    (he : e ∈ schema.entities) (hdeclared : e.Declares name) :
    ∃ path, schema.matchProperty e (nameWords name) = some (path, (nameWords name).length) ∧
      schema.TakenFor e name path ∧
      (¬"OrderBy".toList <:+: Text.capitalised name → ∀ q,
        MethodQuery.parse schema e (String.ofList ("findBy".toList ++ Text.capitalised name)) = .ok q ↔
          q = .byEquality path ∧ schema.EndsInField e path) ∧
      ∀ other, SelectList.parameterPath? schema e name = some other ↔
        if (e.fieldNamed? name).isSome = true then other = ⟨[name]⟩
        else other = path ∧ schema.EndsInField e path := by
  have hname := (hcase e he).of_declares hdeclared
  obtain ⟨path, hfound⟩ := exists_matchWithin_nameWords schema 1 hname hdeclared
  refine ⟨path, hfound, takenFor_of_matchProperty hcase he hname hfound, ?_, ?_⟩
  · intro hplain q
    exact MethodQuery.parse_findBy_iff (entity?_of_build hbuilt he) hname hplain hfound
  · exact SelectList.parameterPath?_ownName hname hfound

/-- No path is spelled like the age of a member. -/
theorem Schema.matchProperty_ownName_age :
    Sample.league.matchProperty Sample.member ["Age"] = some (⟨["age"]⟩, 1) ∧
      MethodQuery.parse Sample.league Sample.member "findByAge" = .ok (.byEquality ⟨["age"]⟩) ∧
      SelectList.parameterPath? Sample.league Sample.member "age" = some ⟨["age"]⟩ := by
  have hbuilt : Schema.build [Sample.team, Sample.member] = .ok Sample.league := by decide
  have hfound : Sample.league.matchProperty Sample.member (nameWords "age") =
      some (⟨["age"]⟩, 1) := by decide
  obtain ⟨path, hpath, htaken, hmethod, hparameter⟩ :=
    @matchProperty_ownName _ Sample.member "age" _ hbuilt (by decide) (by decide) (.inl (by decide))
  cases hpath.symm.trans hfound
  exact ⟨hfound, (hmethod (by decide) _).2 ⟨rfl, by decide⟩, (hparameter _).2 rfl⟩

namespace Sample

/-- Players keep the identifier of their team beside the association. -/
def player : Entity :=
  ((({ name := "Player", table := "player" } : Entity).withId "id" "player_id").withField
    "teamId" .integer true).belongsTo "team" "Team" "team_key"

/-- A league in which a player's field is spelled like a path across the association to the team. -/
def squad : Schema := ⟨[team, player]⟩

end Sample

/-- **A declared field is shadowed.**  The words of `teamId` are taken for the identifier of the team,
    and a method on the name compares that, while a parameter of the name is the field. -/
theorem Schema.matchProperty_shadowed :
    Schema.build [Sample.team, Sample.player] = .ok Sample.squad ∧ Sample.squad.LowerCamelNames ∧
      (Sample.player.fieldNamed? "teamId").isSome = true ∧
      Sample.squad.matchProperty Sample.player (nameWords "teamId") = some (⟨["team", "id"]⟩, 2) ∧
      MethodQuery.parse Sample.squad Sample.player "findByTeamId" =
        .ok (.byEquality ⟨["team", "id"]⟩) ∧
      SelectList.parameterPath? Sample.squad Sample.player "teamId" = some ⟨["teamId"]⟩ := by
  have hfound : Sample.squad.matchProperty Sample.player (nameWords "teamId") =
      some (⟨["team", "id"]⟩, 2) := by decide
  have hmethod := @MethodQuery.parse_findBy_iff Sample.squad Sample.player "teamId" _ (by decide)
    (by decide) (by decide) hfound (.byEquality ⟨["team", "id"]⟩)
  exact ⟨by decide, by decide, by decide, hfound, hmethod.2 ⟨rfl, by decide⟩, by decide⟩

end EntityQuery
