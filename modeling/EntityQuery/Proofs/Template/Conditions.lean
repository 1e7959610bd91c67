import EntityQuery.Proofs.Template.Printed

namespace EntityQuery.Grammar

open Text Text.Reader

/-!
# Conditions and selects

The grammar reads a printed predicate back (`atom_append`, by induction on the predicate), and with
it the select of everything that satisfies the predicate (`parse?_selectText`).
-/

variable {s : List Char}

/-! ### Conditions -/

/-- **A comparison is read.** -/
theorem comparison_append {path : Path} {operator : Operator} {o : Operand}
    (hpath : ∀ name ∈ path.segments, isName name = true) (ho : o.Fits operator) (hs : Ends s) :
    comparison (((Predicate.comparison path operator o).templateText "m").toList ++ s) =
      some ((Predicate.comparison path operator o).written "m", s) := by
  have hchars : ((Predicate.comparison path operator o).templateText "m").toList ++ s =
      (WrittenPath.text ⟨"m", path.segments⟩).toList ++
        ' ' :: ((testText operator o).toList ++ s) := by
    show (WrittenPath.text _ ++ " " ++ testText operator o).toList ++ s = _
    rw [String.toList_append, String.toList_append, List.append_assoc, List.append_assoc]
    rfl
  -- The blank behind the path ends it.
  have hread : Grammar.path ((WrittenPath.text ⟨"m", path.segments⟩).toList ++
      ' ' :: ((testText operator o).toList ++ s)) =
      some (⟨"m", path.segments⟩, ' ' :: ((testText operator o).toList ++ s)) :=
    path_append "m" path.segments (by decide) hpath (stops_cons (by decide)) (by rintro ⟨⟩)
  have htest : test (' ' :: ((testText operator o).toList ++ s)) =
      some (writtenTest operator o, s) := by
    rw [skipsBlanks_test, test_append ho hs]
  rw [hchars, comparison, bind_of_eq_some hread]
  exact bind_of_eq_some htest

/-- An atom may stand behind blanks. -/
theorem skipsBlanks_atom : ∀ depth, SkipsBlanks (atom depth)
  | 0 => skipsBlanks_path.bind
  | _ + 1 => (skipsBlanks_symbol "(").bind.orElse skipsBlanks_path.bind

/-- One item is all there is where no separator follows it. -/
theorem separated_single {α : Type} {p : Reader α} {word : String} {t : List Char} {a : α}
    (hfirst : p t = some (a, s)) (hstop : keyword word s = none) :
    separated p (keyword word) t = some ([a], s) :=
  separated_of_repeats hfirst (.stop (bind_of_eq_none hstop))

/-- Two items with a keyword between them. -/
theorem separated_pair {α : Type} {p : Reader α} {word : String} {t u : List Char} {a b : α}
    (hword : word ∈ keywords) (hp : SkipsBlanks p)
    (hfirst : p t = some (a, ' ' :: (word.toList ++ ' ' :: (u ++ s))))
    (hsecond : p (u ++ s) = some (b, s)) (hstop : keyword word s = none) :
    separated p (keyword word) t = some ([a, b], s) := by
  have hkeyword : keyword word (' ' :: (word.toList ++ ' ' :: (u ++ s))) =
      some ((), ' ' :: (u ++ s)) := by
    rw [skipsBlanks_keyword, keyword_append hword (stops_cons (by decide))]
  have hstep : (do let _ ← keyword word; p) (' ' :: (word.toList ++ ' ' :: (u ++ s))) =
      some (b, s) := by
    rw [bind_of_eq_some hkeyword, hp, hsecond]
  have hshorter : s.length < (' ' :: (word.toList ++ ' ' :: (u ++ s))).length := by
    simp only [List.length_cons, List.length_append]
    omega
  exact separated_of_repeats hfirst (.step hstep hshorter (.stop (bind_of_eq_none hstop)))

/-- A condition in brackets. -/
theorem atom_group {depth : Nat} {t s : List Char} {inner : WrittenCondition}
    (h : alternatives (atom depth) t = some (inner, ')' :: s)) :
    atom (depth + 1) ('(' :: t) = some (.group inner, s) := by
  have hopen : symbol "(" ('(' :: t) = some ((), t) := symbol_append "(" t (by decide)
  have hclose : symbol ")" (')' :: s) = some ((), s) := symbol_append ")" s (by decide)
  refine orElse_of_eq_some ?_
  rw [bind_of_eq_some hopen, bind_of_eq_some h, bind_of_eq_some hclose]
  rfl

/-- **Printed predicates are read**, in front of everything that can follow an operand. -/
theorem atom_append {p : Predicate} (hp : p.Printable) {depth : Nat} (hdepth : p.depth ≤ depth)
    (hs : Ends s) : atom depth ((p.templateText "m").toList ++ s) = some (p.written "m", s) := by
  have hbracket : ∀ word ∈ ["and", "or"], ∀ s, keyword word (')' :: s) = none := by
    intro word hword s
    have hdiffer : ∀ word ∈ ["and", "or"],
        differ word.toList (")".toList.map Char.toLower) = true := by decide
    exact keyword_of_differ ")" s (hdiffer word hword) (by decide)
  -- Each pair of brackets takes one of the depth that is left.
  induction p generalizing depth s with
  | comparison path operator o =>
    have hread := comparison_append hp.1 hp.2 hs
    cases depth with
    | zero => exact hread
    | succ depth =>
      -- A comparison begins with the alias and not with a bracket.
      have hopen : symbol "("
          (((Predicate.comparison path operator o).templateText "m").toList ++ s) = none := by
        show symbol "(" ((WrittenPath.text _ ++ " " ++ testText operator o).toList ++ s) = none
        rw [String.toList_append, String.toList_append, toList_pathText, List.append_assoc,
          List.append_assoc, List.append_assoc]
        exact symbol_of_differ "m" _ (by decide) (by decide)
      rw [atom, orElse_of_eq_none (bind_of_eq_none hopen), hread]
  | and l r ihl ihr =>
    obtain ⟨hl, hr⟩ := hp
    cases depth with
    | zero => exact absurd hdepth (Nat.not_succ_le_zero _)
    | succ depth =>
      have hdepth : max l.depth r.depth ≤ depth := Nat.le_of_succ_le_succ hdepth
      have hchars : ((Predicate.and l r).templateText "m").toList ++ s =
          '(' :: ((l.templateText "m").toList ++ ' ' :: ("and".toList ++ ' ' ::
            ((r.templateText "m").toList ++ ')' :: s))) := by
        show ("(" ++ _ ++ " and " ++ _ ++ ")").toList ++ s = _
        simp only [String.toList_append, List.append_assoc]
        rfl
      have hfirst : atom depth ((l.templateText "m").toList ++ ' ' :: ("and".toList ++ ' ' ::
          ((r.templateText "m").toList ++ ')' :: s))) = some (l.written "m", _) :=
        ihl hl (by omega) (ends_cons (by decide))
      have hsecond : atom depth ((r.templateText "m").toList ++ ')' :: s) =
          some (r.written "m", ')' :: s) :=
        ihr hr (by omega) (ends_cons (by decide))
      -- Both atoms make up one conjunction, which is the only alternative.
      have hatoms := separated_pair (by decide) (skipsBlanks_atom depth) hfirst hsecond
        (hbracket "and" (by decide) s)
      have halternatives := separated_single hatoms (hbracket "or" (by decide) s)
      rw [hchars]
      exact atom_group halternatives
  | or l r ihl ihr =>
    obtain ⟨hl, hr⟩ := hp
    cases depth with
    | zero => exact absurd hdepth (Nat.not_succ_le_zero _)
    | succ depth =>
      have hdepth : max l.depth r.depth ≤ depth := Nat.le_of_succ_le_succ hdepth
      have hchars : ((Predicate.or l r).templateText "m").toList ++ s =
          '(' :: ((l.templateText "m").toList ++ ' ' :: ("or".toList ++ ' ' ::
            ((r.templateText "m").toList ++ ')' :: s))) := by
        show ("(" ++ _ ++ " or " ++ _ ++ ")").toList ++ s = _
        simp only [String.toList_append, List.append_assoc]
        rfl
      have hfirst : atom depth ((l.templateText "m").toList ++ ' ' :: ("or".toList ++ ' ' ::
          ((r.templateText "m").toList ++ ')' :: s))) = some (l.written "m", _) :=
        ihl hl (by omega) (ends_cons (by decide))
      have hsecond : atom depth ((r.templateText "m").toList ++ ')' :: s) =
          some (r.written "m", ')' :: s) :=
        ihr hr (by omega) (ends_cons (by decide))
      have hor : keyword "and" (' ' :: ("or".toList ++ ' ' ::
          ((r.templateText "m").toList ++ ')' :: s))) = none := by
        rw [skipsBlanks_keyword]
        exact keyword_of_differ "or" _ (by decide) (by decide)
      -- Each atom is a conjunction of its own.
      have hskips : SkipsBlanks (separated (atom depth) (keyword "and")) :=
        (skipsBlanks_atom depth).bind
      have hleft := separated_single hfirst hor
      have hright := separated_single hsecond (hbracket "and" (by decide) s)
      have halternatives := separated_pair (by decide) hskips hleft hright
        (hbracket "or" (by decide) s)
      rw [hchars]
      exact atom_group halternatives

/-! ### Selects -/

/-- The select of all records of an entity that satisfy a condition. -/
def selectText (entity : String) (p : Predicate) : String :=
  "select m from " ++ entity ++ " m where " ++ p.templateText "m"

/-- What is written there. -/
def writtenSelect (entity : String) (p : Predicate) : WrittenSelect where
  distinct := false
  clause := .items [⟨⟨"m", []⟩, none⟩]
  entity := entity
  knownAs := "m"
  joins := []
  condition := some [[p.written "m"]]
  order := []

/-- Brackets are nested no deeper than there are opening ones. -/
theorem depth_le_count (p : Predicate) : p.depth ≤ (p.templateText "m").toList.count '(' := by
  -- A pair has a bracket of its own, beside those of its parts.
  have hgroup : ∀ (joiner : String) (l r : Predicate), ("(" ++ l.templateText "m" ++ joiner ++
      r.templateText "m" ++ ")").toList.count '(' = 1 + (l.templateText "m").toList.count '(' +
        joiner.toList.count '(' + (r.templateText "m").toList.count '(' := by
    intro joiner l r
    have hopen : "(".toList.count '(' = 1 := by decide
    have hclose : ")".toList.count '(' = 0 := by decide
    simp only [String.toList_append, List.count_append, hopen, hclose]
    omega
  induction p with
  | comparison => exact Nat.zero_le _
  | and l r ihl ihr =>
    have hcount := hgroup " and " l r
    rw [Predicate.templateText, hcount, Predicate.depth]
    omega
  | or l r ihl ihr =>
    have hcount := hgroup " or " l r
    rw [Predicate.templateText, hcount, Predicate.depth]
    omega

/-- A keyword is no name. -/
theorem name_of_keyword {word : String} (hword : word ∈ keywords) (hs : Stops isNameChar s) :
    name (word.toList ++ s) = none := by
  -- Every keyword is spelled like a name, in small letters.
  have hchars : ∀ word ∈ keywords, word.toList.head?.any isNameStart = true ∧
      word.toList.tail.all isNameChar = true ∧ word.toList.map Char.toLower = word.toList := by
    decide
  obtain ⟨hstart, htail, hlower⟩ := hchars word hword
  have hmap : word.map Char.toLower = word := by rw [← String.toList_inj, String.toList_map, hlower]
  cases hcons : word.toList with
  | nil =>
    rw [hcons] at hstart
    cases hstart
  | cons c cs =>
    rw [hcons] at hstart htail
    have hc : isNameStart c = true := hstart
    have hcs : ∀ d ∈ cs, isNameChar d = true := List.all_eq_true.1 htail
    have hspace : Stops isSpace ((c :: cs) ++ s) :=
      stops_cons (not_isSpace_of_isNameChar (isNameChar_of_isNameStart hc))
    have htext : String.ofList (c :: cs) = word := by rw [← hcons, String.ofList_toList]
    -- It is read as a name is, and then given up.
    have hkeyword : keywords.contains (word.map Char.toLower) = true := by
      rw [hmap, List.contains_iff_mem]
      exact hword
    rw [name, token_of_stops hspace, bareName, List.cons_append, bind_of_eq_some (char_cons hc),
      bind_of_eq_some (run_append hcs hs), htext, if_pos hkeyword]
    rfl

/-- No keyword stands at the end. -/
theorem keyword_nil {word : String} (hword : word ∈ keywords) : keyword word [] = none := by
  have hne : ∀ word ∈ keywords, word.toList ≠ [] := by decide
  obtain ⟨c, cs, hcons⟩ := List.exists_cons_of_ne_nil (hne word hword)
  rw [keyword, token_of_stops stops_nil, hcons]
  rfl

/-- A blank ends a name. -/
theorem stops_blank (s : List Char) : Stops isNameChar (' ' :: s) := stops_cons (by decide)

/-- No keyword but itself begins a text like another one. -/
theorem keyword_refused {word : String} (front : String) (s : List Char)
    (h : differ word.toList (front.toList.map Char.toLower) = true)
    (hfront : beginsToken front.toList = true) : keyword word (' ' :: (front.toList ++ s)) = none :=
  (skipsBlanks_keyword _ _).trans (keyword_of_differ front s h hfront)

/-- A keyword between two blanks is read. -/
theorem keyword_taken (word : String) (hword : word ∈ keywords) (s : List Char) :
    keyword word (' ' :: (word.toList ++ ' ' :: s)) = some ((), ' ' :: s) :=
  (skipsBlanks_keyword _ _).trans (keyword_append hword (stops_blank s))

/-- The alias alone is selected: what follows it is no alias of its own and no further item. -/
theorem selectClause_append (s : List Char) :
    selectClause (' ' :: ("m".toList ++ ' ' :: ("from".toList ++ ' ' :: s))) =
      some (.items [⟨⟨"m", []⟩, none⟩], ' ' :: ("from".toList ++ ' ' :: s)) := by
  have hpath : path (' ' :: ("m".toList ++ ' ' :: ("from".toList ++ ' ' :: s))) =
      some (⟨"m", []⟩, ' ' :: ("from".toList ++ ' ' :: s)) := by
    rw [skipsBlanks_path]
    exact path_append "m" [] (by decide) nofun (stops_blank _) (by rintro ⟨⟩)
  -- `from` is no name, so the item ends without an alias.
  have halias : aliasName (' ' :: ("from".toList ++ ' ' :: s)) = none := by
    have has : has "as" (' ' :: ("from".toList ++ ' ' :: s)) =
        some (false, ' ' :: ("from".toList ++ ' ' :: s)) :=
      has_of_eq_none (keyword_refused "from" _ (by decide) (by decide))
    have hname : name (' ' :: ("from".toList ++ ' ' :: s)) = none :=
      (skipsBlanks_token _).trans (name_of_keyword (by decide) (stops_blank s))
    rw [aliasName, bind_of_eq_some has, hname]
  have hitem : selectItem (' ' :: ("m".toList ++ ' ' :: ("from".toList ++ ' ' :: s))) =
      some (⟨⟨"m", []⟩, none⟩, ' ' :: ("from".toList ++ ' ' :: s)) := by
    rw [selectItem, bind_of_eq_some hpath, bind_of_eq_some (optional_of_eq_none halias)]
    rfl
  have hcomma : symbol "," (' ' :: ("from".toList ++ ' ' :: s)) = none :=
    (skipsBlanks_symbol _ _).trans (symbol_of_differ "from" _ (by decide) (by decide))
  have hitems : commaSeparated selectItem
      (' ' :: ("m".toList ++ ' ' :: ("from".toList ++ ' ' :: s))) =
      some ([⟨⟨"m", []⟩, none⟩], ' ' :: ("from".toList ++ ' ' :: s)) :=
    separated_of_repeats hitem (.stop (bind_of_eq_none hcomma))
  -- The other kinds of clauses, which are tried first, begin with keywords.
  have hconstruct : constructItem
      (' ' :: ("m".toList ++ ' ' :: ("from".toList ++ ' ' :: s))) = none :=
    bind_of_eq_none (keyword_refused "m" _ (by decide) (by decide))
  have hcount : countItem (' ' :: ("m".toList ++ ' ' :: ("from".toList ++ ' ' :: s))) = none :=
    bind_of_eq_none (keyword_refused "m" _ (by decide) (by decide))
  rw [selectClause, orElse_of_eq_none hconstruct, orElse_of_eq_none hcount, map_of_eq_some hitems]

/-- An alias without `as` before it. -/
theorem aliasName_append (s : List Char) :
    aliasName (' ' :: ("m".toList ++ ' ' :: s)) = some ("m", ' ' :: s) := by
  have has : has "as" (' ' :: ("m".toList ++ ' ' :: s)) =
      some (false, ' ' :: ("m".toList ++ ' ' :: s)) :=
    has_of_eq_none (keyword_refused "m" _ (by decide) (by decide))
  have hname : name (' ' :: ("m".toList ++ ' ' :: s)) = some ("m", ' ' :: s) :=
    (skipsBlanks_token _).trans (name_append (by decide) (stops_blank s))
  rw [aliasName, bind_of_eq_some has, hname]

/-- No join stands before the condition. -/
theorem joinClause_where (s : List Char) : joinClause (' ' :: ("where".toList ++ s)) = none := by
  have hleft : keyword "left" (' ' :: ("where".toList ++ s)) = none :=
    keyword_refused "where" s (by decide) (by decide)
  have hinner : keyword "inner" (' ' :: ("where".toList ++ s)) = none :=
    keyword_refused "where" s (by decide) (by decide)
  have hkind : joinKind (' ' :: ("where".toList ++ s)) = none := by
    rw [joinKind, orElse_of_eq_none (bind_of_eq_none hleft), bind_of_eq_none hinner]
  rw [joinClause, bind_of_eq_some (optional_of_eq_none hkind)]
  exact bind_of_eq_none (keyword_refused "where" s (by decide) (by decide))

/-- **The condition of a select is read** up to the end of the text. -/
theorem whereClause_append {p : Predicate} (hp : p.Printable) {depth : Nat}
    (hdepth : p.depth ≤ depth) :
    whereClause depth (' ' :: ("where".toList ++ ' ' :: (p.templateText "m").toList)) =
      some ([[p.written "m"]], []) := by
  have hatom : atom depth (' ' :: (p.templateText "m").toList) = some (p.written "m", []) := by
    have hread := atom_append hp hdepth ends_nil
    rw [List.append_nil] at hread
    rw [skipsBlanks_atom, hread]
  have hwhere := keyword_taken "where" (by decide) (p.templateText "m").toList
  rw [whereClause, bind_of_eq_some hwhere]
  -- No keyword follows, so the one atom is the one conjunction, and that the one alternative.
  have hatoms : separated (atom depth) (keyword "and") (' ' :: (p.templateText "m").toList) =
      some ([p.written "m"], []) :=
    separated_single hatom (keyword_nil (by decide))
  exact separated_single hatoms (keyword_nil (by decide))

/-- The words of a printed template are read as the statement it was printed from. -/
theorem selectStatement_append {entity : String} (hentity : isName entity = true) {p : Predicate}
    (hp : p.Printable) {depth : Nat} (hdepth : p.depth ≤ depth) :
    selectStatement depth ("select".toList ++ ' ' :: ("m".toList ++ ' ' :: ("from".toList ++ ' ' ::
      (entity.toList ++ ' ' :: ("m".toList ++ ' ' :: ("where".toList ++ ' ' ::
        (p.templateText "m").toList)))))) = some (writtenSelect entity p, []) := by
  have hwhere := optional_of_eq_some (whereClause_append hp hdepth)
  -- For the parts before it, the condition is any text.
  generalize (' ' :: (p.templateText "m").toList : List Char) = condition at hwhere ⊢
  have hselect : keyword "select" ("select".toList ++ ' ' :: ("m".toList ++ ' ' :: ("from".toList ++
      ' ' :: (entity.toList ++ ' ' :: ("m".toList ++ ' ' :: ("where".toList ++ condition)))))) =
      some ((), ' ' :: ("m".toList ++ ' ' :: ("from".toList ++ ' ' :: (entity.toList ++ ' ' ::
        ("m".toList ++ ' ' :: ("where".toList ++ condition)))))) :=
    keyword_append (by decide) (stops_blank _)
  have hdistinct : has "distinct" (' ' :: ("m".toList ++ ' ' :: ("from".toList ++ ' ' ::
      (entity.toList ++ ' ' :: ("m".toList ++ ' ' :: ("where".toList ++ condition)))))) =
      some (false, _) :=
    has_of_eq_none (keyword_refused "m" _ (by decide) (by decide))
  have hclause := selectClause_append
    (entity.toList ++ ' ' :: ("m".toList ++ ' ' :: ("where".toList ++ condition)))
  have hfrom := keyword_taken "from" (by decide)
    (entity.toList ++ ' ' :: ("m".toList ++ ' ' :: ("where".toList ++ condition)))
  have hname : name (' ' :: (entity.toList ++ ' ' :: ("m".toList ++ ' ' ::
      ("where".toList ++ condition)))) =
      some (entity, ' ' :: ("m".toList ++ ' ' :: ("where".toList ++ condition))) :=
    (skipsBlanks_token _).trans (name_append hentity (stops_blank _))
  have halias := aliasName_append ("where".toList ++ condition)
  have hjoins := many_of_repeats (.stop (joinClause_where condition))
  have horder : optional orderClause [] = some (none, []) :=
    optional_of_eq_none (bind_of_eq_none (keyword_nil (by decide)))
  rw [selectStatement, bind_of_eq_some hselect, bind_of_eq_some hdistinct, bind_of_eq_some hclause,
    bind_of_eq_some hfrom, bind_of_eq_some hname, bind_of_eq_some halias, bind_of_eq_some hjoins,
    bind_of_eq_some hwhere]
  exact bind_of_eq_some horder

/-- **A select by a printed predicate is read.** -/
theorem parse?_selectText {entity : String} (hentity : isName entity = true) {p : Predicate}
    (hp : p.Printable) :
    parse? (selectText entity p) = some (.select (writtenSelect entity p)) := by
  have hchars : (selectText entity p).toList = "select".toList ++ ' ' :: ("m".toList ++ ' ' ::
      ("from".toList ++ ' ' :: (entity.toList ++ ' ' :: ("m".toList ++ ' ' ::
        ("where".toList ++ ' ' :: (p.templateText "m").toList))))) := by
    show ("select m from " ++ _ ++ " m where " ++ _).toList = _
    simp only [String.toList_append, List.append_assoc]
    rfl
  -- The text has a bracket for each level, so the reader goes deep enough.
  have hdepth : p.depth ≤ (selectText entity p).toList.count '(' := by
    have hcount := depth_le_count p
    show _ ≤ ("select m from " ++ _ ++ " m where " ++ _).toList.count '('
    simp only [String.toList_append, List.count_append]
    omega
  have hselect := selectStatement_append hentity hp hdepth
  rw [← hchars] at hselect
  have hstatement :
      statement ((selectText entity p).toList.count '(') (selectText entity p).toList =
      some (.select (writtenSelect entity p), []) := by
    have hend : token atEnd [] = some ((), []) := rfl
    rw [statement, bind_of_eq_some (orElse_of_eq_some (map_of_eq_some hselect)),
      bind_of_eq_some hend]
    rfl
  rw [parse?, Reader.whole, hstatement]

end EntityQuery.Grammar
