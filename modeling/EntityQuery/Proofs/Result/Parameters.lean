import EntityQuery.Proofs.Method.Spelling
import EntityQuery.Proofs.Plan.Acceptance

namespace EntityQuery

open Text

/-!
# Fields that parameters name

A parameter of a constructor names a field by its path, or by the camel-case spelling of a path over at
most one association.  The words of such a spelling match more than one path only if these paths are
spelled alike, so a parameter that names one field (`Schema.NamesField`) is never taken for another
(`SelectList.eq_of_parameterPath?`), and it is found if no association shares the spelling
(`SelectList.parameterPath?_of_namesField`).
-/

/-- The names of a path joined to one, with a capital for each but the first. -/
def Path.camelCase (path : Path) : String :=
  match path.segments with
  | [] => ""
  | first :: rest => String.ofList (first.toList ++ rest.flatMap Text.capitalised)

/-- A path of lower camel names. -/
def Path.IsLowerCamel (path : Path) : Prop := ∀ name ∈ path.segments, isLowerCamel name = true

instance (path : Path) : Decidable path.IsLowerCamel :=
  inferInstanceAs (Decidable (∀ name ∈ path.segments, isLowerCamel name = true))

/-- A field over at most one association, by lower camel names. -/
structure Schema.NearField (schema : Schema) (root : Entity) (path : Path) : Prop where
  ends : schema.EndsInField root path
  near : path.segments.length ≤ 2
  names : path.IsLowerCamel

/-- A parameter is the path of a field, or else the camel-case spelling of exactly one field over at
    most one association. -/
inductive Schema.NamesField (schema : Schema) (root : Entity) (parameter : String) : Path → Prop where
  | written (ends : schema.EndsInField root (.parse parameter)) :
    NamesField schema root parameter (.parse parameter)
  | spelled {path} (unwritten : ¬ schema.EndsInField root (.parse parameter))
    (field : schema.NearField root path) (spelling : path.camelCase = parameter)
    (only : ∀ other, schema.NearField root other → other.camelCase = parameter → other = path) :
    NamesField schema root parameter path

/-! ### Spellings -/

namespace Path

variable {path : Path}

/-- The camel case of a path, with a capital in front, is its steps with capitals. -/
theorem capitalised_camelCase (h : path.IsLowerCamel) :
    Text.capitalised path.camelCase = path.capitalised := by
  obtain ⟨segments⟩ := path
  cases segments with
  | nil => rfl
  | cons first rest =>
    obtain ⟨c, s, hfirst, _⟩ := capitalised_of_isLowerCamel (h first List.mem_cons_self)
    -- Only the first character changes, so what follows it does not matter.
    have happend : ∀ more, Text.capitalised (String.ofList (first.toList ++ more)) =
        Text.capitalised first ++ more := by
      intro more
      unfold Text.capitalised
      rw [String.toList_ofList, hfirst]
      rfl
    rw [camelCase, happend, Path.capitalised, List.flatMap_cons]

/-- A spelling has the words of its path. -/
theorem nameWords_camelCase (h : path.IsLowerCamel) : nameWords path.camelCase = path.words := by
  rw [nameWords, capitalised_camelCase h, ← Path.flatMap_words h,
    words_flatMap (Path.isWord_of_mem_words h)]

/-- A path that is not empty has words. -/
theorem words_ne_nil (h : path.IsLowerCamel) (hne : path.segments ≠ []) : path.words ≠ [] := by
  obtain ⟨first, rest, hsegments⟩ := List.exists_cons_of_ne_nil hne
  rw [Path.words, hsegments, List.flatMap_cons]
  exact List.append_ne_nil_of_left_ne_nil
    (nameWords_ne_nil (h first (hsegments ▸ List.mem_cons_self))) _

/-- A spelling is a lower camel name itself, and it is joined from the words of its path. -/
theorem isLowerCamel_camelCase (h : path.IsLowerCamel) (hne : path.segments ≠ []) :
    isLowerCamel path.camelCase = true ∧ lowerCamel path.words = path.camelCase := by
  have hname : isLowerCamel path.camelCase = true := by
    obtain ⟨segments⟩ := path
    obtain ⟨first, rest, rfl⟩ := List.exists_cons_of_ne_nil hne
    obtain ⟨hfirst, hrest⟩ := List.forall_mem_cons.1 h
    unfold isLowerCamel at hfirst ⊢
    rw [camelCase, String.toList_ofList]
    split at hfirst
    · cases hfirst
    rename_i c s hchars
    rw [Bool.and_eq_true] at hfirst
    rw [hchars, List.cons_append]
    simp only [hfirst.1, Bool.true_and, List.all_append, hfirst.2, List.all_eq_true]
    -- The later steps are capitalised, and their characters are those of words.
    intro d hd
    obtain ⟨name, hname, hd⟩ := List.mem_flatMap.1 hd
    obtain ⟨_, _, _, hcapitalised, hbegins, hall⟩ := capitalised_of_isLowerCamel (hrest name hname)
    rw [hcapitalised] at hd
    rcases List.mem_cons.1 hd with rfl | hd
    · rw [inWord, hbegins, Bool.true_or]
    · exact hall d hd
  exact ⟨hname, by rw [← nameWords_camelCase h, lowerCamel_nameWords hname]⟩

/-- Paths with the same words are spelled alike. -/
theorem camelCase_eq_of_words {other : Path} (h : path.IsLowerCamel) (hother : other.IsLowerCamel)
    (hne : path.segments ≠ []) (hwords : other.words = path.words) :
    other.camelCase = path.camelCase := by
  have hneOther : other.segments ≠ [] := by
    intro hnil
    refine words_ne_nil h hne ?_
    rw [← hwords, Path.words, hnil, List.flatMap_nil]
  rw [← (isLowerCamel_camelCase h hne).2, ← (isLowerCamel_camelCase hother hneOther).2, hwords]

end Path

/-! ### Words that match -/

section Matching

variable {schema : Schema} {root : Entity} {depth : Nat} {words : List String} {path : Path}
  {n : Nat}

/-- The case of the first letter plays no part in the search. -/
theorem Schema.matchWithin_cons {first capital : String} (h : lowerFirst first = lowerFirst capital)
    (rest : List String) :
    schema.matchWithin depth root (first :: rest) = schema.matchWithin depth root (capital :: rest) := by
  rw [matchWithin_eq, matchWithin_eq]
  refine congrArg longest (List.flatMap_congr fun n hn => ?_)
  -- At least one word is taken, so the first one is only seen where it is joined to a name.
  obtain ⟨n, rfl⟩ : ∃ k, n = k + 1 := ⟨n - 1, by have := List.mem_range'_1.1 hn; omega⟩
  have hname : lowerCamel ((first :: rest).take (n + 1)) =
      lowerCamel ((capital :: rest).take (n + 1)) := by
    rw [List.take_succ_cons, List.take_succ_cons, lowerCamel, lowerCamel, h]
  unfold matchesOf
  rw [hname, List.drop_succ_cons, List.drop_succ_cons]

/-- A lower camel name is searched for by its words in their capitalised form. -/
theorem Schema.matchProperty_words_name (schema : Schema) (root : Entity) {name : String}
    (h : isLowerCamel name = true) :
    schema.matchProperty root (Text.words name) = schema.matchProperty root (nameWords name) ∧
      (Text.words name).length = (nameWords name).length := by
  obtain ⟨first, capital, rest, hwords, hnameWords, hcase⟩ := exists_words_of_isLowerCamel h
  rw [hwords, hnameWords]
  exact ⟨matchWithin_cons hcase rest, rfl⟩

/-- Words lead to lower camel names. -/
theorem isLowerCamel_of_matches (h : Matches schema depth root words path n)
    (hwords : ∀ w ∈ words, IsWord w.toList) : path.IsLowerCamel := by
  -- At least one word is taken each time, and words join to a name in camel case.
  have hname : ∀ {words : List String} {k : Nat}, 0 < k → k ≤ words.length →
      (∀ w ∈ words, IsWord w.toList) → isLowerCamel (lowerCamel (words.take k)) = true := by
    intro words k hpos hle hwords
    refine isLowerCamel_lowerCamel (fun hnil => ?_) fun w hw => hwords w (List.mem_of_mem_take hw)
    have hlength := List.length_take_of_le hle
    rw [hnil] at hlength
    exact absurd hlength (by simp; omega)
  induction h with
  | own hpos hle => exact List.forall_mem_singleton.2 (hname hpos hle hwords)
  | across hpos hle _ _ _ _ ih =>
    refine List.forall_mem_cons.2 ⟨hname hpos hle hwords, ih fun w hw => ?_⟩
    exact hwords w (List.mem_of_mem_drop hw)

/-- A property has one step or two. -/
theorem IsProperty.length_le (h : IsProperty schema root path) : path.segments.length ≤ 2 := by
  cases h <;> simp

end Matching

/-! ### Parameters -/

namespace SelectList

variable {schema : Schema} {root : Entity} {parameter : String} {path other : Path}

/-- A parameter is looked for as a path first. -/
theorem parameterPath?_of_endsInField (h : schema.EndsInField root (.parse parameter)) :
    parameterPath? schema root parameter = some (.parse parameter) := by
  unfold parameterPath?
  exact if_pos (any_toOption_iff.2 h)

/-- What is no path is looked for by all of its words. -/
theorem parameterPath?_eq_some_iff (h : ¬ schema.EndsInField root (.parse parameter)) :
    parameterPath? schema root parameter = some path ↔
      schema.matchProperty root (Text.words parameter) = some (path, (Text.words parameter).length) ∧
        schema.EndsInField root path := by
  -- The parameter's own path is tried first and ends in no field.
  have hdirect : ¬ (schema.resolve root (.parse parameter)).toOption.any (·.isField) = true :=
    fun hany => h (any_toOption_iff.1 hany)
  unfold parameterPath?
  dsimp only
  rw [if_neg hdirect]
  cases schema.matchProperty root (Text.words parameter) with
  | none => simp
  | some found =>
    obtain ⟨best, used⟩ := found
    simp only [Option.ite_none_right_eq_some, Bool.and_eq_true, beq_iff_eq, any_toOption_iff,
      Option.some.injEq, Prod.mk.injEq]
    constructor
    · rintro ⟨⟨rfl, hends⟩, rfl⟩
      exact ⟨⟨rfl, rfl⟩, hends⟩
    · rintro ⟨⟨rfl, rfl⟩, hends⟩
      exact ⟨⟨rfl, hends⟩, rfl⟩

/-- All words of a spelling lead to a property that is spelled alike. -/
theorem camelCase_of_matchProperty (hpath : path.IsLowerCamel) (hne : path.segments ≠ [])
    {used : Nat}
    (h : schema.matchProperty root (Text.words path.camelCase) = some (other, used))
    (hused : used = (Text.words path.camelCase).length) :
    IsProperty schema root other ∧ other.IsLowerCamel ∧ other.camelCase = path.camelCase := by
  obtain ⟨hmatch, hlength⟩ :=
    schema.matchProperty_words_name root (Path.isLowerCamel_camelCase hpath hne).1
  rw [hmatch, Path.nameWords_camelCase hpath] at h
  rw [hlength, Path.nameWords_camelCase hpath] at hused
  have hmatches := Schema.matches_of_matchWithin h
  have hwords := Path.isWord_of_mem_words hpath
  have hsame : other.words = path.words := by
    rw [words_of_matches hmatches hwords, hused, List.take_length]
  have hother := isLowerCamel_of_matches hmatches hwords
  exact ⟨hmatches.isProperty, hother, Path.camelCase_eq_of_words hpath hother hne hsame⟩

/-- **A parameter is not taken for another field** than the one that it names. -/
theorem eq_of_parameterPath? (h : schema.NamesField root parameter path)
    (hfound : parameterPath? schema root parameter = some other) : other = path := by
  cases h with
  | written ends =>
    rw [parameterPath?_of_endsInField ends] at hfound
    exact (Option.some.inj hfound).symm
  | spelled unwritten field spelling only =>
    obtain ⟨hmatch, hends⟩ := (parameterPath?_eq_some_iff unwritten).1 hfound
    subst spelling
    obtain ⟨r, hr, _⟩ := field.ends
    obtain ⟨hproperty, hnames, halike⟩ :=
      camelCase_of_matchProperty field.names (resolved_of_resolve hr).nonempty hmatch rfl
    exact only other ⟨hends, hproperty.length_le, hnames⟩ halike

/-- **A parameter is found** if the field that it names shares its spelling with no other property, not
    even with an association. -/
theorem parameterPath?_of_namesField (h : schema.NamesField root parameter path)
    (honly : ∀ other, IsProperty schema root other → other.IsLowerCamel →
      other.camelCase = parameter → other = path) :
    parameterPath? schema root parameter = some path := by
  cases h with
  | written ends => exact parameterPath?_of_endsInField ends
  | spelled unwritten field spelling =>
    subst spelling
    obtain ⟨r, hr, _⟩ := field.ends
    have hne := (resolved_of_resolve hr).nonempty
    obtain ⟨hmatch, hlength⟩ :=
      schema.matchProperty_words_name root (Path.isLowerCamel_camelCase field.names hne).1
    rw [Path.nameWords_camelCase field.names] at hmatch hlength
    -- The search finds the words of the path itself, so what it finds takes all of them.
    have hself := matches_words (isProperty_of_resolve hr field.near) field.names []
    rw [List.append_nil] at hself
    obtain ⟨best, used, hbest, hle⟩ := Schema.le_matchWithin hself
    have hused : used = path.words.length :=
      Nat.le_antisymm (Schema.matches_of_matchWithin hbest).le hle
    have hfound : schema.matchProperty root (Text.words path.camelCase) = some (best, used) :=
      hmatch.trans hbest
    obtain ⟨hproperty, hnames, halike⟩ :=
      camelCase_of_matchProperty field.names hne hfound (hused.trans hlength.symm)
    obtain rfl := honly best hproperty hnames halike
    refine (parameterPath?_eq_some_iff unwritten).2 ⟨?_, field.ends⟩
    rw [hfound, hlength, hused]

end SelectList

end EntityQuery
