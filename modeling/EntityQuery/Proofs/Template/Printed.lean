import EntityQuery.Proofs.Template.Tokens
import EntityQuery.Query.Predicate

namespace EntityQuery

/-!
# Predicates as conditions of templates

A predicate is printed with brackets around every conjunction and disjunction (`templateText`), and
what the grammar reads off it is the predicate as it was written (`Predicate.written`).  Literals
are nothing, truth values, integers and texts, in which every quote is doubled; after `in` there may
be a list of them.
-/

/-! ### Printing -/

namespace Value

/-- The values that have a literal of their own. -/
def isLiteral : Value → Bool
  | .null | .integer _ | .boolean _ | .text _ => true
  | _ => false

/-- A literal as it is written in a template: a text in quotes, with the quotes in it doubled. -/
def literalText : Value → String
  | .text s => "'" ++ String.ofList (s.toList.flatMap Grammar.doubled) ++ "'"
  | v => v.shown

end Value

/-- An operand as it is written in a template. -/
def Operand.templateText : Operand → String
  | .slot s => s.text
  | .literal (.list items) => "(" ++ ", ".intercalate (items.map Value.literalText) ++ ")"
  | .literal v => v.literalText
  | .none => ""

/-- An operator as it is written in a template; where it is a word, it is the small one. -/
def Operator.templateText : Operator → String
  | .isIn => "in"
  | .like => "like"
  | .isNull => "is null"
  | .isNotNull => "is not null"
  | operator => operator.sql

/-- What is asked of a property. -/
def testText (operator : Operator) (operand : Operand) : String :=
  if operator.arity = 0 then operator.templateText
  else operator.templateText ++ " " ++ operand.templateText

namespace Predicate

/-- The condition over the properties of an entity that is known under an alias. -/
def templateText (knownAs : String) : Predicate → String
  | .comparison path operator operand =>
    WrittenPath.text ⟨knownAs, path.segments⟩ ++ " " ++ testText operator operand
  | .and l r => "(" ++ l.templateText knownAs ++ " and " ++ r.templateText knownAs ++ ")"
  | .or l r => "(" ++ l.templateText knownAs ++ " or " ++ r.templateText knownAs ++ ")"

end Predicate

/-! ### What is written -/

/-- What the grammar reads for a literal. -/
def Value.written : Value → WrittenLiteral
  | .integer n => .integer (toString n.toInt).toList
  | .text s => .text s
  | .boolean b => .boolean b
  | _ => .null

/-- And for a slot: its name, or its position counted from one. -/
def Slot.written (slot : Slot) : WrittenOperand :=
  match slot.name with
  | some name => .named name
  | none => .positional (Nat.toDigits 10 (slot.index + 1))

/-- And for an operand. -/
def Operand.written : Operand → WrittenOperand
  | .slot s => s.written
  | .literal v => .literal v.written
  | .none => .literal .null

/-- And for a whole test. -/
def writtenTest : Operator → Operand → WrittenTest
  | .isNull, _ => .isNull
  | .isNotNull, _ => .isNotNull
  | .isIn, .literal (.list items) => .oneOf (items.map Value.written)
  | operator, operand => .compare operator operand.written

namespace Predicate

/-- The atom that the condition of a predicate is. -/
def written (knownAs : String) : Predicate → WrittenAtom
  | .comparison path operator operand =>
    .comparison ⟨knownAs, path.segments⟩ (writtenTest operator operand)
  | .and l r => .group [[l.written knownAs, r.written knownAs]]
  | .or l r => .group [[l.written knownAs], [r.written knownAs]]

/-- How deep brackets are nested. -/
def depth : Predicate → Nat
  | .comparison _ _ _ => 0
  | .and l r | .or l r => max l.depth r.depth + 1

end Predicate

/-- The operands that can stand behind an operator. -/
def Operand.Fits (operator : Operator) : Operand → Prop
  | .none => operator.arity = 0
  | .slot s => operator.arity = 1 ∧ ∀ name, s.name = some name → Grammar.isName name = true
  | .literal (.list items) => operator = .isIn ∧ items ≠ [] ∧ ∀ v ∈ items, v.isLiteral = true
  | .literal v => operator.arity = 1 ∧ v.isLiteral = true

/-- A single operand: a slot whose name, if it has one, can be read, or a value that has a
    literal. -/
inductive Operand.IsSingle : Operand → Prop where
  | slot {s : Slot} (named : ∀ name, s.name = some name → Grammar.isName name = true) :
    IsSingle (.slot s)
  | literal {v : Value} (isLiteral : v.isLiteral = true) : IsSingle (.literal v)

/-- An operand that fits is missing, a list of literals, or a single one. -/
theorem Operand.Fits.missing_or_list_or_single {operator : Operator} {o : Operand}
    (ho : o.Fits operator) :
    (o = .none ∧ operator.arity = 0) ∨
      (∃ items, o = .literal (.list items) ∧ operator = .isIn ∧ items ≠ [] ∧
        ∀ v ∈ items, v.isLiteral = true) ∨
      (operator.arity = 1 ∧ o.IsSingle) := by
  cases o with
  | none => exact .inl ⟨rfl, ho⟩
  | slot s => exact .inr (.inr ⟨ho.1, .slot ho.2⟩)
  | literal v =>
    cases v with
    | list items => exact .inr (.inl ⟨items, rfl, ho⟩)
    | _ => exact .inr (.inr ⟨ho.1, .literal ho.2⟩)

/-- Behind an operator that takes one operand and is not `in`, there is a single one. -/
theorem Operand.Fits.isSingle {operator : Operator} {o : Operand} (ho : o.Fits operator)
    (harity : operator.arity = 1) (hin : operator ≠ .isIn) : o.IsSingle := by
  rcases ho.missing_or_list_or_single with ⟨_, hnone⟩ | ⟨_, _, hlist, _⟩ | ⟨_, hsingle⟩
  · rw [harity] at hnone
    cases hnone
  · exact absurd hlist hin
  · exact hsingle

/-- A literal that is no list is written by itself. -/
theorem templateText_literal {v : Value} (hv : v.isLiteral = true) :
    (Operand.literal v).templateText = v.literalText := by
  cases v with
  | list items => cases hv
  | _ => rfl

/-- A test of one operand is a comparison, unless the operand is a list. -/
theorem writtenTest_of_isSingle {operator : Operator} {o : Operand} (harity : operator.arity = 1)
    (ho : o.IsSingle) : writtenTest operator o = .compare operator o.written := by
  unfold writtenTest
  split
  · cases harity
  · cases harity
  · cases ho with
    | literal hv => cases hv
  · rfl

/-- A predicate whose condition can be read: its paths are made of names, and its operands fit. -/
def Predicate.Printable : Predicate → Prop
  | .comparison path operator operand =>
    (∀ name ∈ path.segments, Grammar.isName name = true) ∧ operand.Fits operator
  | .and l r | .or l r => l.Printable ∧ r.Printable

namespace Grammar

open Text Text.Reader

variable {s : List Char}

/-! ### Operands -/

/-- A number is written as its sign and at least one digit. -/
theorem exists_digits (n : Int) :
    ∃ negative ds, (toString n).toList = sign negative ++ ds ∧ ds ≠ [] ∧
      ∀ c ∈ ds, isAsciiDigit c = true := by
  rw [Whole.toList_toString]
  split
  · exact ⟨false, _, rfl, Nat.toDigits_ne_nil, fun c => Whole.isAsciiDigit_of_mem_toDigits⟩
  · exact ⟨true, _, rfl, Nat.toDigits_ne_nil, fun c => Whole.isAsciiDigit_of_mem_toDigits⟩

/-- **A literal is read.** -/
theorem literal_append {v : Value} (hv : v.isLiteral = true) (hs : Ends s) :
    literal (v.literalText.toList ++ s) = some (v.written, s) := by
  have hname : Stops isNameChar s := hs.stops (by decide)
  -- The readers are tried in a fixed order; those before the right one refuse the first character.
  cases v with
  | null =>
    have hkeyword : keyword "null" ("null".toList ++ s) = some ((), s) :=
      keyword_append (by decide) hname
    show literal ("null".toList ++ s) = _
    rw [literal, orElse_of_eq_none rfl, orElse_of_eq_none rfl, orElse_of_eq_none rfl,
      orElse_of_eq_none rfl, orElse_of_eq_none rfl, bind_of_eq_some hkeyword]
    rfl
  | boolean b =>
    cases b with
    | true =>
      have hkeyword : keyword "true" ("true".toList ++ s) = some ((), s) :=
        keyword_append (by decide) hname
      show literal ("true".toList ++ s) = _
      rw [literal, orElse_of_eq_none rfl, orElse_of_eq_none rfl, orElse_of_eq_none rfl,
        orElse_of_eq_some (bind_of_eq_some hkeyword)]
      rfl
    | false =>
      have hkeyword : keyword "false" ("false".toList ++ s) = some ((), s) :=
        keyword_append (by decide) hname
      show literal ("false".toList ++ s) = _
      rw [literal, orElse_of_eq_none rfl, orElse_of_eq_none rfl, orElse_of_eq_none rfl,
        orElse_of_eq_none rfl, orElse_of_eq_some (bind_of_eq_some hkeyword)]
      rfl
  | integer n =>
    obtain ⟨negative, ds, hchars, hne, hds⟩ := exists_digits n.toInt
    show literal ((toString n.toInt).toList ++ s) = some (.integer (toString n.toInt).toList, s)
    -- A real number is tried before, but it would go on with a decimal point.
    rw [hchars, List.append_assoc, literal, orElse_of_eq_none (real_of_digits hne hds hs),
      orElse_of_eq_some (integer_append hne hds hs)]
  | text t =>
    have hchars : (Value.text t).literalText.toList ++ s =
        '\'' :: (t.toList.flatMap doubled ++ '\'' :: s) := by
      show ("'" ++ String.ofList (t.toList.flatMap doubled) ++ "'").toList ++ s = _
      simp only [String.toList_append, String.toList_ofList, List.append_assoc]
      rfl
    rw [hchars, literal, orElse_of_eq_none rfl, orElse_of_eq_none rfl,
      orElse_of_eq_some (textLiteral_append t hs)]
    rfl
  | _ => cases hv

/-- A literal may stand behind blanks. -/
theorem skipsBlanks_literal : SkipsBlanks literal :=
  skipsBlanks_token.orElse (skipsBlanks_token.orElse (skipsBlanks_token.orElse
    (skipsBlanks_token.bind.orElse (skipsBlanks_token.bind.orElse skipsBlanks_token.bind))))

/-- So may an operand. -/
theorem skipsBlanks_operand : SkipsBlanks operand :=
  skipsBlanks_token.orElse (skipsBlanks_token.orElse skipsBlanks_literal.map)

/-- A literal does not begin like a parameter or like a list. -/
theorem literalText_begins {v : Value} (hv : v.isLiteral = true) (s : List Char) :
    ∃ c t, v.literalText.toList ++ s = c :: t ∧ isSpace c = false ∧ c ∉ [':', '?', '('] := by
  cases v with
  | null => exact ⟨'n', _, rfl, by decide, by decide⟩
  | boolean b => cases b <;> exact ⟨_, _, rfl, by decide, by decide⟩
  | integer n =>
    obtain ⟨negative, ds, hchars, hne, hds⟩ := exists_digits n.toInt
    obtain ⟨d, ds, rfl⟩ := List.exists_cons_of_ne_nil hne
    have htext : (Value.integer n).literalText.toList = sign negative ++ d :: ds := hchars
    rw [htext]
    -- A number begins with its sign or with a digit.
    cases negative with
    | true => exact ⟨'-', _, rfl, by decide, by decide⟩
    | false =>
      have hd := hds d List.mem_cons_self
      refine ⟨d, _, rfl, not_isSpace_of_isNameChar ?_, fun hmem => ?_⟩
      · rw [isNameChar, hd, Bool.or_true]
      · -- None of the marks is a digit.
        have hnone : [':', '?', '('].any isAsciiDigit = false := by decide
        exact absurd hd (List.any_eq_false.1 hnone d hmem)
  | text t =>
    have htext : (Value.text t).literalText.toList =
        '\'' :: (String.ofList (t.toList.flatMap doubled) ++ "'").toList := by
      show ("'" ++ String.ofList _ ++ "'").toList = _
      rw [String.append_assoc, String.toList_append]
      rfl
    rw [htext]
    exact ⟨'\'', _, rfl, by decide, by decide⟩
  | _ => cases hv

/-- **An operand is read**: a parameter by its name or position, or a literal. -/
theorem operand_append {o : Operand} (ho : o.IsSingle) (hs : Ends s) :
    operand (o.templateText.toList ++ s) = some (o.written, s) := by
  cases ho with
  | @slot slot hnamed =>
    obtain ⟨index, name?⟩ := slot
    cases name? with
    | some name =>
      have hname : isName name = true := hnamed name rfl
      have hparameter : namedParameter (':' :: (name.toList ++ s)) = some (.named name, s) := by
        have hcolon : exactly [':'] (':' :: (name.toList ++ s)) = some ((), name.toList ++ s) := rfl
        rw [namedParameter, token_of_stops (stops_cons (by decide)), bind_of_eq_some hcolon,
          bind_of_eq_some (bareName_append hname (hs.stops (by decide)))]
        rfl
      have hchars : (Operand.slot ⟨index, some name⟩).templateText.toList ++ s =
          ':' :: (name.toList ++ s) := by
        show (":" ++ name).toList ++ s = _
        rw [String.toList_append]
        rfl
      rw [hchars, operand, orElse_of_eq_some hparameter]
      rfl
    | none =>
      have hparameter : positionalParameter ('?' :: (Nat.toDigits 10 (index + 1) ++ s)) =
          some (.positional (Nat.toDigits 10 (index + 1)), s) := by
        have hmark : exactly ['?'] ('?' :: (Nat.toDigits 10 (index + 1) ++ s)) =
            some ((), Nat.toDigits 10 (index + 1) ++ s) := rfl
        rw [positionalParameter, token_of_stops (stops_cons (by decide)), bind_of_eq_some hmark,
          bind_of_eq_some (digits_append Nat.toDigits_ne_nil
            (fun c => Whole.isAsciiDigit_of_mem_toDigits) hs)]
        rfl
      have hchars : (Operand.slot ⟨index, none⟩).templateText.toList ++ s =
          '?' :: (Nat.toDigits 10 (index + 1) ++ s) := by
        show ("?" ++ toString (index + 1)).toList ++ s = _
        rw [String.toList_append, Nat.toString_eq_repr, Nat.toList_repr]
        rfl
      rw [hchars, operand, orElse_of_eq_none rfl, orElse_of_eq_some hparameter]
      rfl
  | @literal v hv =>
    obtain ⟨c, t, hchars, hspace, hbegins⟩ := literalText_begins hv s
    have hread := literal_append hv hs
    -- The first character is not the mark of a parameter.
    have hrefused : ∀ {α : Type} (mark : Char) (p : Unit → Reader α), mark ∈ [':', '?', '('] →
        (token (exactly [mark] >>= p)) (c :: t) = none := by
      intro α mark p hmark
      rw [token_of_stops (stops_cons hspace)]
      refine bind_of_eq_none (exactly_of_head? fun hhead => hbegins ?_)
      rwa [Option.some.inj hhead]
    have hnamed : namedParameter (c :: t) = none := hrefused ':' _ (by decide)
    have hpositional : positionalParameter (c :: t) = none := hrefused '?' _ (by decide)
    rw [templateText_literal hv, hchars, operand, orElse_of_eq_none hnamed,
      orElse_of_eq_none hpositional, ← hchars, map_of_eq_some hread]
    rfl

/-- Only a list begins with a bracket. -/
theorem literalList_of_operand {o : Operand} (ho : o.IsSingle) (s : List Char) :
    literalList (' ' :: (o.templateText.toList ++ s)) = none := by
  -- A list begins with a bracket, and no single operand does.
  have hrefused : ∀ {c : Char} {t : List Char}, isSpace c = false → c ≠ '(' →
      literalList (' ' :: c :: t) = none := by
    intro c t hspace hc
    refine bind_of_eq_none ?_
    have hbracket : symbol "(" (c :: t) = none := by
      rw [symbol, token_of_stops (stops_cons hspace)]
      exact exactly_of_head? fun hhead => hc (Option.some.inj hhead)
    exact (skipsBlanks_token _).trans hbracket
  cases ho with
  | @slot slot _ =>
    obtain ⟨index, name?⟩ := slot
    cases name? with
    | some name =>
      show literalList (' ' :: ((":" ++ name).toList ++ s)) = none
      rw [String.toList_append]
      exact hrefused (by decide) (by decide)
    | none =>
      show literalList (' ' :: (("?" ++ toString (index + 1)).toList ++ s)) = none
      rw [String.toList_append]
      exact hrefused (by decide) (by decide)
  | @literal v hv =>
    obtain ⟨c, t, hchars, hspace, hbegins⟩ := literalText_begins hv s
    have hc : c ≠ '(' := by
      rintro rfl
      exact hbegins (by decide)
    rw [templateText_literal hv, hchars]
    exact hrefused hspace hc

/-- **A list of literals is read.** -/
theorem literalList_append {items : List Value} (hne : items ≠ [])
    (hitems : ∀ v ∈ items, v.isLiteral = true) (s : List Char) :
    literalList (' ' :: ((Operand.literal (.list items)).templateText.toList ++ s)) =
      some (.oneOf (items.map Value.written), s) := by
  -- Each further value stands behind a comma, up to the closing bracket.
  have hmore : ∀ {items : List Value}, (∀ v ∈ items, v.isLiteral = true) →
      Ends ((items.flatMap fun v => ',' :: ' ' :: v.literalText.toList) ++ ')' :: s) ∧
      Repeats (do let _ ← symbol ","; literal)
        ((items.flatMap fun v => ',' :: ' ' :: v.literalText.toList) ++ ')' :: s)
        (items.map Value.written) (')' :: s) := by
    intro items hitems
    induction items with
    | nil => exact ⟨ends_cons (by decide), .stop rfl⟩
    | cons v items ih =>
      obtain ⟨hv, hitems⟩ := List.forall_mem_cons.1 hitems
      obtain ⟨hends, hrepeats⟩ := ih hitems
      rw [List.flatMap_cons, List.cons_append, List.cons_append, List.append_assoc]
      refine ⟨ends_cons (by decide), .step (t := _) ?_ ?_ hrepeats⟩
      · have hcomma := symbol_append "," (' ' :: (v.literalText.toList ++
          ((items.flatMap fun v => ',' :: ' ' :: v.literalText.toList) ++ ')' :: s))) (by decide)
        refine (bind_of_eq_some hcomma).trans ?_
        rw [skipsBlanks_literal, literal_append hv hends]
      · simp only [List.length_cons, List.length_append]
        omega
  obtain ⟨v, items, rfl⟩ := List.exists_cons_of_ne_nil hne
  obtain ⟨hv, hitems⟩ := List.forall_mem_cons.1 hitems
  obtain ⟨hends, hrepeats⟩ := hmore hitems
  have hchars : (Operand.literal (.list (v :: items))).templateText.toList ++ s =
      '(' :: (v.literalText.toList ++
        ((items.flatMap fun v => ',' :: ' ' :: v.literalText.toList) ++ ')' :: s)) := by
    show ("(" ++ ", ".intercalate ((v :: items).map Value.literalText) ++ ")").toList ++ s = _
    simp only [String.toList_append, String.toList_intercalate, List.map_cons, intercalate_cons,
      List.flatMap_map, List.append_assoc]
    rfl
  have hopen : symbol "(" (' ' :: '(' :: (v.literalText.toList ++
      ((items.flatMap fun v => ',' :: ' ' :: v.literalText.toList) ++ ')' :: s))) =
      some ((), v.literalText.toList ++
        ((items.flatMap fun v => ',' :: ' ' :: v.literalText.toList) ++ ')' :: s)) := rfl
  have hclose : symbol ")" (')' :: s) = some ((), s) := rfl
  have hseparated : commaSeparated literal (v.literalText.toList ++
      ((items.flatMap fun v => ',' :: ' ' :: v.literalText.toList) ++ ')' :: s)) =
      some (v.written :: items.map Value.written, ')' :: s) :=
    separated_of_repeats (literal_append hv hends) hrepeats
  rw [hchars, literalList, bind_of_eq_some hopen, bind_of_eq_some hseparated,
    bind_of_eq_some hclose]
  rfl

/-! ### Tests -/

/-- What can be asked of a property. -/
def test : Reader WrittenTest := nullTest <|> inTest <|> likeTest <|> binaryTest

/-- A test may stand behind blanks. -/
theorem skipsBlanks_test : SkipsBlanks test :=
  skipsBlanks_token.bind.orElse (skipsBlanks_token.bind.orElse (skipsBlanks_token.bind.orElse
    (SkipsBlanks.bind (skipsBlanks_token.bind.orElse (skipsBlanks_token.bind.orElse
      (skipsBlanks_token.bind.orElse (skipsBlanks_token.bind.orElse (skipsBlanks_token.bind.orElse
        (skipsBlanks_token.bind.orElse skipsBlanks_token.bind)))))))))

/-- The test for null is read back. -/
theorem test_isNull (hs : Ends s) : test ("is null".toList ++ s) = some (.isNull, s) := by
  have hchars : "is null".toList ++ s = "is".toList ++ ' ' :: ("null".toList ++ s) := rfl
  have his : keyword "is" ("is".toList ++ ' ' :: ("null".toList ++ s)) =
      some ((), ' ' :: ("null".toList ++ s)) :=
    keyword_append (by decide) (stops_cons (by decide))
  have hnot : has "not" (' ' :: ("null".toList ++ s)) =
      some (false, ' ' :: ("null".toList ++ s)) := by
    apply has_of_eq_none
    rw [skipsBlanks_keyword]
    exact keyword_of_differ "null" s (by decide) (by decide)
  have hnull : keyword "null" (' ' :: ("null".toList ++ s)) = some ((), s) := by
    rw [skipsBlanks_keyword, keyword_append (by decide) (hs.stops (by decide))]
  have htest : nullTest ("is".toList ++ ' ' :: ("null".toList ++ s)) = some (.isNull, s) := by
    rw [nullTest, bind_of_eq_some his, bind_of_eq_some hnot, bind_of_eq_some hnull]
    rfl
  rw [hchars]
  exact orElse_of_eq_some htest

/-- So is the one for something else. -/
theorem test_isNotNull (hs : Ends s) : test ("is not null".toList ++ s) = some (.isNotNull, s) := by
  have hchars : "is not null".toList ++ s =
      "is".toList ++ ' ' :: ("not".toList ++ ' ' :: ("null".toList ++ s)) := rfl
  have his : keyword "is" ("is".toList ++ ' ' :: ("not".toList ++ ' ' :: ("null".toList ++ s))) =
      some ((), ' ' :: ("not".toList ++ ' ' :: ("null".toList ++ s))) :=
    keyword_append (by decide) (stops_cons (by decide))
  -- The word between the two is what the reader looks for next.
  have hnot : has "not" (' ' :: ("not".toList ++ ' ' :: ("null".toList ++ s))) =
      some (true, ' ' :: ("null".toList ++ s)) := by
    apply has_of_eq_some
    rw [skipsBlanks_keyword]
    exact keyword_append (by decide) (stops_cons (by decide))
  have hnull : keyword "null" (' ' :: ("null".toList ++ s)) = some ((), s) := by
    rw [skipsBlanks_keyword, keyword_append (by decide) (hs.stops (by decide))]
  have htest : nullTest ("is".toList ++ ' ' :: ("not".toList ++ ' ' :: ("null".toList ++ s))) =
      some (.isNotNull, s) := by
    rw [nullTest, bind_of_eq_some his, bind_of_eq_some hnot, bind_of_eq_some hnull]
    rfl
  rw [hchars]
  exact orElse_of_eq_some htest

/-- Behind `in` stands a list or a single operand. -/
theorem test_in {o : Operand} (ho : o.Fits .isIn) (hs : Ends s) :
    test ("in".toList ++ ' ' :: (o.templateText.toList ++ s)) = some (writtenTest .isIn o, s) := by
  have hin : keyword "in" ("in".toList ++ ' ' :: (o.templateText.toList ++ s)) =
      some ((), ' ' :: (o.templateText.toList ++ s)) :=
    keyword_append (by decide) (stops_cons (by decide))
  -- The test for null begins with another word.
  have hnull : nullTest ("in".toList ++ ' ' :: (o.templateText.toList ++ s)) = none :=
    bind_of_eq_none (keyword_of_differ "in" _ (by decide) (by decide))
  rw [test, orElse_of_eq_none hnull]
  apply orElse_of_eq_some
  rw [inTest, bind_of_eq_some hin]
  rcases ho.missing_or_list_or_single with ⟨_, hnone⟩ | ⟨items, rfl, _, hne, hitems⟩ | ⟨_, hsingle⟩
  · cases hnone
  · exact orElse_of_eq_some (literalList_append hne hitems s)
  · -- The list is tried first, but a single operand has no bracket.
    have hoperand : operand (' ' :: (o.templateText.toList ++ s)) = some (o.written, s) := by
      rw [skipsBlanks_operand, operand_append hsingle hs]
    rw [orElse_of_eq_none (literalList_of_operand hsingle s), map_of_eq_some hoperand,
      writtenTest_of_isSingle rfl hsingle]

/-- So is a pattern. -/
theorem test_like {o : Operand} (ho : o.Fits .like) (hs : Ends s) :
    test ("like".toList ++ ' ' :: (o.templateText.toList ++ s)) =
      some (.compare .like o.written, s) := by
  have hsingle : o.IsSingle := ho.isSingle rfl nofun
  have hoperand : operand (' ' :: (o.templateText.toList ++ s)) = some (o.written, s) := by
    rw [skipsBlanks_operand, operand_append hsingle hs]
  have hlike : keyword "like" ("like".toList ++ ' ' :: (o.templateText.toList ++ s)) =
      some ((), ' ' :: (o.templateText.toList ++ s)) :=
    keyword_append (by decide) (stops_cons (by decide))
  have hnull : nullTest ("like".toList ++ ' ' :: (o.templateText.toList ++ s)) = none :=
    bind_of_eq_none (keyword_of_differ "like" _ (by decide) (by decide))
  have hin : inTest ("like".toList ++ ' ' :: (o.templateText.toList ++ s)) = none :=
    bind_of_eq_none (keyword_of_differ "like" _ (by decide) (by decide))
  rw [test, orElse_of_eq_none hnull, orElse_of_eq_none hin]
  apply orElse_of_eq_some
  rw [likeTest, bind_of_eq_some hlike, bind_of_eq_some hoperand]
  rfl

/-- The operators that are written as symbols. -/
def isSymbolic : Operator → Bool
  | .isIn | .like | .isNull | .isNotNull => false
  | _ => true

/-- A comparator is read where a blank follows it, so that no longer one is begun. -/
theorem comparator_append {operator : Operator} (h : isSymbolic operator = true) (s : List Char) :
    comparator (operator.sql.toList ++ ' ' :: s) = some (operator, ' ' :: s) := by
  -- The comparators are tried one by one; the text differs from all before the one it begins with.
  have hrefused : ∀ {text front : String} {found : Operator},
      differ text.toList front.toList = true → beginsToken front.toList = true →
      (do symbol text; return found : Reader Operator) (front.toList ++ s) = none := by
    intro text front found hdiffer hfront
    exact bind_of_eq_none (symbol_of_differ front s hdiffer hfront)
  have htaken : ∀ {text front : String} (found : Operator),
      text.toList ++ ' ' :: s = front.toList ++ s → beginsToken text.toList = true →
      (do symbol text; return found : Reader Operator) (front.toList ++ s) =
        some (found, ' ' :: s) := by
    intro text front found hchars htext
    rw [← hchars, bind_of_eq_some (symbol_append text (' ' :: s) htext)]
    rfl
  cases operator with
  | greaterThanEqual =>
    have hchars : ">=".toList ++ ' ' :: s = ">= ".toList ++ s := rfl
    show comparator (">=".toList ++ ' ' :: s) = _
    rw [hchars, comparator, orElse_of_eq_some (htaken .greaterThanEqual hchars (by decide))]
  | lessThanEqual =>
    have hchars : "<=".toList ++ ' ' :: s = "<= ".toList ++ s := rfl
    show comparator ("<=".toList ++ ' ' :: s) = _
    rw [hchars, comparator, orElse_of_eq_none (hrefused (by decide) (by decide)),
      orElse_of_eq_some (htaken .lessThanEqual hchars (by decide))]
  | notEquals =>
    have hchars : "<>".toList ++ ' ' :: s = "<> ".toList ++ s := rfl
    show comparator ("<>".toList ++ ' ' :: s) = _
    rw [hchars, comparator, orElse_of_eq_none (hrefused (by decide) (by decide)),
      orElse_of_eq_none (hrefused (by decide) (by decide)),
      orElse_of_eq_some (htaken .notEquals hchars (by decide))]
  | equals =>
    have hchars : "=".toList ++ ' ' :: s = "= ".toList ++ s := rfl
    show comparator ("=".toList ++ ' ' :: s) = _
    rw [hchars, comparator, orElse_of_eq_none (hrefused (by decide) (by decide)),
      orElse_of_eq_none (hrefused (by decide) (by decide)),
      orElse_of_eq_none (hrefused (by decide) (by decide)),
      orElse_of_eq_none (hrefused (by decide) (by decide)),
      orElse_of_eq_some (htaken .equals hchars (by decide))]
  | greaterThan =>
    have hchars : ">".toList ++ ' ' :: s = "> ".toList ++ s := rfl
    show comparator (">".toList ++ ' ' :: s) = _
    rw [hchars, comparator, orElse_of_eq_none (hrefused (by decide) (by decide)),
      orElse_of_eq_none (hrefused (by decide) (by decide)),
      orElse_of_eq_none (hrefused (by decide) (by decide)),
      orElse_of_eq_none (hrefused (by decide) (by decide)),
      orElse_of_eq_none (hrefused (by decide) (by decide)),
      orElse_of_eq_some (htaken .greaterThan hchars (by decide))]
  | lessThan =>
    have hchars : "<".toList ++ ' ' :: s = "< ".toList ++ s := rfl
    show comparator ("<".toList ++ ' ' :: s) = _
    rw [hchars, comparator, orElse_of_eq_none (hrefused (by decide) (by decide)),
      orElse_of_eq_none (hrefused (by decide) (by decide)),
      orElse_of_eq_none (hrefused (by decide) (by decide)),
      orElse_of_eq_none (hrefused (by decide) (by decide)),
      orElse_of_eq_none (hrefused (by decide) (by decide)),
      orElse_of_eq_none (hrefused (by decide) (by decide)), htaken .lessThan hchars (by decide)]
  | _ => cases h

/-- **A comparison with an operand is read.** -/
theorem test_symbolic {operator : Operator} {o : Operand} (h : isSymbolic operator = true)
    (ho : o.Fits operator) (hs : Ends s) :
    test (operator.sql.toList ++ ' ' :: (o.templateText.toList ++ s)) =
      some (.compare operator o.written, s) := by
  have harity : operator.arity = 1 := by cases operator <;> first | rfl | cases h
  have hin : operator ≠ .isIn := by
    rintro rfl
    cases h
  have hoperand : operand (' ' :: (o.templateText.toList ++ s)) = some (o.written, s) := by
    rw [skipsBlanks_operand, operand_append (ho.isSingle harity hin) hs]
  -- No symbol begins like one of the words that are tried before.
  have hword : ∀ word : String, word ∈ ["is", "in", "like"] →
      keyword word (operator.sql.toList ++ ' ' :: (o.templateText.toList ++ s)) = none := by
    have hdiffer : ∀ word ∈ ["is", "in", "like"], ∀ text ∈ ["=", "<>", ">", ">=", "<", "<="],
        differ word.toList (text.toList.map Char.toLower) = true ∧
          beginsToken text.toList = true := by
      decide
    have hmem : operator.sql ∈ ["=", "<>", ">", ">=", "<", "<="] := by
      cases operator <;> first | decide | cases h
    intro word hword
    obtain ⟨hdiffers, hbegins⟩ := hdiffer word hword _ hmem
    exact keyword_of_differ _ _ hdiffers hbegins
  have hnull : nullTest (operator.sql.toList ++ ' ' :: (o.templateText.toList ++ s)) = none :=
    bind_of_eq_none (hword "is" (by decide))
  have hinTest : inTest (operator.sql.toList ++ ' ' :: (o.templateText.toList ++ s)) = none :=
    bind_of_eq_none (hword "in" (by decide))
  have hlike : likeTest (operator.sql.toList ++ ' ' :: (o.templateText.toList ++ s)) = none :=
    bind_of_eq_none (hword "like" (by decide))
  rw [test, orElse_of_eq_none hnull, orElse_of_eq_none hinTest, orElse_of_eq_none hlike, binaryTest,
    bind_of_eq_some (comparator_append h _), bind_of_eq_some hoperand]
  rfl

/-- **Every test is read.** -/
theorem test_append {operator : Operator} {o : Operand} (ho : o.Fits operator) (hs : Ends s) :
    test ((testText operator o).toList ++ s) = some (writtenTest operator o, s) := by
  have hwith : ∀ {text : String}, (text ++ " " ++ o.templateText).toList ++ s =
      text.toList ++ ' ' :: (o.templateText.toList ++ s) := by
    intro text
    rw [String.toList_append, String.toList_append, List.append_assoc, List.append_assoc]
    rfl
  -- What is written with signs is read by one rule, and each word has its own.
  have hsymbolic : isSymbolic operator = true →
      testText operator o = operator.sql ++ " " ++ o.templateText →
      writtenTest operator o = .compare operator o.written →
      test ((testText operator o).toList ++ s) = some (writtenTest operator o, s) := by
    intro h htext hwritten
    rw [htext, hwritten, hwith, test_symbolic h ho hs]
  cases operator with
  | isNull => exact test_isNull hs
  | isNotNull => exact test_isNotNull hs
  | isIn =>
    show test (("in" ++ " " ++ o.templateText).toList ++ s) = _
    rw [hwith, test_in ho hs]
  | like =>
    show test (("like" ++ " " ++ o.templateText).toList ++ s) = _
    rw [hwith, test_like ho hs]
    rfl
  | _ => exact hsymbolic rfl rfl rfl

end Grammar

end EntityQuery
