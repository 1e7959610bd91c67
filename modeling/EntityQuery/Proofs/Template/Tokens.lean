import EntityQuery.Proofs.Number.WholeText
import EntityQuery.Proofs.Text.Reading
import EntityQuery.Template.Grammar

namespace EntityQuery.Grammar

open Text Text.Reader

/-!
# Tokens of templates

What the readers of keywords, names and literals take off a text that begins with one.  Blanks
before a token make no difference (`SkipsBlanks`), so the texts here begin with the token itself;
behind an operand there is a blank, a bracket, a comma or nothing at all (`Ends`).
-/

/-! ### Blanks -/

/-- A reader that does not care for a blank in front. -/
def SkipsBlanks {α : Type} (p : Reader α) : Prop := ∀ s, p (' ' :: s) = p s

section Blanks

variable {α β : Type} {p q : Reader α}

/-- A token may stand behind blanks. -/
theorem skipsBlanks_token : SkipsBlanks (token p) := fun _ => rfl

/-- So may what begins with one. -/
theorem SkipsBlanks.bind {f : α → Reader β} (h : SkipsBlanks p) : SkipsBlanks (p >>= f) := by
  intro s
  show (p (' ' :: s)).bind _ = (p s).bind _
  rw [h]

/-- And what is made of one. -/
theorem SkipsBlanks.map {f : α → β} (h : SkipsBlanks p) : SkipsBlanks (f <$> p) := by
  intro s
  show (p (' ' :: s)).bind _ = (p s).bind _
  rw [h]

/-- And a choice between two that may. -/
theorem SkipsBlanks.orElse (hp : SkipsBlanks p) (hq : SkipsBlanks q) : SkipsBlanks (p <|> q) := by
  intro s
  show (p (' ' :: s) <|> q (' ' :: s)) = (p s <|> q s)
  rw [hp, hq]

/-- A text that begins with the token itself. -/
theorem token_of_stops {s : List Char} (h : Stops isSpace s) : token p s = p s := by
  show p (s.dropWhile isSpace) = p s
  rw [(takeWhile_of_stops h).2]

end Blanks

/-- What can follow an operand. -/
def Ends (s : List Char) : Prop := ∀ c, s.head? = some c → c ∈ [' ', ')', ',']

/-- The end of the text ends an operand. -/
theorem ends_nil : Ends [] := nofun

/-- So do a blank, a closing bracket and a comma. -/
theorem ends_cons {c : Char} {s : List Char} (h : c ∈ [' ', ')', ',']) : Ends (c :: s) := by
  intro d hd
  cases hd
  exact h

/-- What ends an operand stops every run that takes none of the three. -/
theorem Ends.stops {s : List Char} (h : Ends s) {accepts : Char → Bool}
    (haccepts : [' ', ')', ','].any accepts = false) : Stops accepts s := by
  intro c hc
  have hno := List.any_eq_false.1 haccepts c (h c hc)
  rwa [Bool.not_eq_true] at hno

/-- And no other character comes next. -/
theorem Ends.head?_ne {s : List Char} (h : Ends s) {c : Char} (hc : c ∉ [' ', ')', ',']) :
    s.head? ≠ some c :=
  fun hhead => hc (h c hhead)

/-- No character of a name is a blank. -/
theorem not_isSpace_of_isNameChar {c : Char} (h : isNameChar c = true) : isSpace c = false := by
  cases hspace : isSpace c with
  | false => rfl
  | true =>
    simp only [isSpace, Bool.or_eq_true, beq_iff_eq] at hspace
    rcases hspace with ((rfl | rfl) | rfl) | rfl <;> exact absurd h (by decide)

/-! ### Keywords and symbols -/

/-- A word in small letters is read. -/
theorem anyCase_append {cs : List Char} (h : cs.map Char.toLower = cs) (s : List Char) :
    anyCase cs (cs ++ s) = some ((), s) := by
  induction cs with
  | nil => rfl
  | cons c cs ih =>
    obtain ⟨hc, hcs⟩ := List.cons.inj h
    have hchar : char (·.toLower == c) (c :: (cs ++ s)) = some (c, cs ++ s) :=
      char_cons (by rw [hc, beq_self_eq_true])
    rw [anyCase, List.cons_append, bind_of_eq_some hchar, ih hcs]

/-- **A keyword is read** where no name goes on behind it. -/
theorem keyword_append {word : String} (hword : word ∈ keywords) {s : List Char}
    (hs : Stops isNameChar s) : keyword word (word.toList ++ s) = some ((), s) := by
  -- Keywords are in lower case and begin with a letter.
  have hlower : ∀ word ∈ keywords, word.toList.map Char.toLower = word.toList := by decide
  have hstart : ∀ word ∈ keywords, (word.toList.head?.any isNameChar) = true := by decide
  have hspace : Stops isSpace (word.toList ++ s) := by
    have hhead := hstart word hword
    cases hchars : word.toList with
    | nil =>
      rw [hchars] at hhead
      cases hhead
    | cons c cs =>
      rw [hchars] at hhead
      exact stops_cons (not_isSpace_of_isNameChar hhead)
  rw [keyword, token_of_stops hspace, bind_of_eq_some (anyCase_append (hlower word hword) s),
    notBefore_of_stops hs]

/-- A keyword may stand behind blanks. -/
theorem skipsBlanks_keyword (word : String) : SkipsBlanks (keyword word) := skipsBlanks_token

/-- So may a symbol. -/
theorem skipsBlanks_symbol (text : String) : SkipsBlanks (symbol text) := skipsBlanks_token

/-- An optional word is found if it is there. -/
theorem has_of_eq_some {word : String} {s t : List Char} (h : keyword word s = some ((), t)) :
    has word s = some (true, t) :=
  map_of_eq_some (optional_of_eq_some h)

/-- And passed over if it is not. -/
theorem has_of_eq_none {word : String} {s : List Char} (h : keyword word s = none) :
    has word s = some (false, s) :=
  map_of_eq_some (optional_of_eq_none h)

/-- Two texts that differ somewhere, however they go on. -/
def differ : List Char → List Char → Bool
  | c :: cs, d :: ds => c != d || differ cs ds
  | _, _ => false

/-- A word is not read from a text that differs from it in a letter. -/
theorem anyCase_of_differ {cs front : List Char} (h : differ cs (front.map Char.toLower) = true)
    (s : List Char) : anyCase cs (front ++ s) = none := by
  induction cs generalizing front with
  | nil => cases h
  | cons c cs ih =>
    cases front with
    | nil => cases h
    | cons d front =>
      rw [anyCase, List.cons_append]
      -- As long as the letters agree, both texts go on.
      by_cases hd : d.toLower = c
      · have hrest : differ cs (front.map Char.toLower) = true := by
          have h : (c != d.toLower || differ cs (front.map Char.toLower)) = true := h
          rwa [hd, bne_self_eq_false, Bool.false_or] at h
        have hchar : char (·.toLower == c) (d :: (front ++ s)) = some (d, front ++ s) :=
          char_cons (beq_iff_eq.2 hd)
        rw [bind_of_eq_some hchar, ih hrest]
      · have hchar : char (·.toLower == c) (d :: (front ++ s)) = none :=
          if_neg fun heq => hd (beq_iff_eq.1 heq)
        exact bind_of_eq_none hchar

/-- Nor are characters that must be met exactly. -/
theorem exactly_of_differ {cs front : List Char} (h : differ cs front = true) (s : List Char) :
    exactly cs (front ++ s) = none := by
  induction cs generalizing front with
  | nil => cases h
  | cons c cs ih =>
    cases front with
    | nil => cases h
    | cons d front =>
      by_cases hd : d = c
      · have hrest : differ cs front = true := by
          have h : (c != d || differ cs front) = true := h
          rwa [hd, bne_self_eq_false, Bool.false_or] at h
        have hchar : char (· == c) (d :: (front ++ s)) = some (d, front ++ s) :=
          char_cons (beq_iff_eq.2 hd)
        rw [exactly, List.cons_append, bind_of_eq_some hchar, ih hrest]
      · exact exactly_of_head? fun hhead => hd (Option.some.inj hhead)

/-- A text that begins with a character other than a blank. -/
def beginsToken (front : List Char) : Bool := front.head?.any fun c => !isSpace c

/-- No blank stands in front of what begins a token. -/
theorem stops_of_beginsToken {front : List Char} (h : beginsToken front = true) (s : List Char) :
    Stops isSpace (front ++ s) := by
  cases front with
  | nil => cases h
  | cons c front =>
    have hc : (!isSpace c) = true := h
    exact stops_cons (Bool.not_eq_true' (isSpace c) ▸ hc)

/-- A keyword is refused where something else begins. -/
theorem keyword_of_differ {word : String} (front : String) (s : List Char)
    (h : differ word.toList (front.toList.map Char.toLower) = true)
    (hfront : beginsToken front.toList = true) : keyword word (front.toList ++ s) = none := by
  rw [keyword, token_of_stops (stops_of_beginsToken hfront s)]
  exact bind_of_eq_none (anyCase_of_differ h s)

/-- A symbol is read. -/
theorem symbol_append (text : String) (s : List Char) (htext : beginsToken text.toList = true) :
    symbol text (text.toList ++ s) = some ((), s) := by
  rw [symbol, token_of_stops (stops_of_beginsToken htext s), exactly_append]

/-- And not from a text that differs from it. -/
theorem symbol_of_differ {text : String} (front : String) (s : List Char)
    (h : differ text.toList front.toList = true) (hfront : beginsToken front.toList = true) :
    symbol text (front.toList ++ s) = none := by
  rw [symbol, token_of_stops (stops_of_beginsToken hfront s), exactly_of_differ h]

/-! ### Names and paths -/

/-- A text that is read as a name. -/
def isName (text : String) : Bool :=
  match text.toList with
  | [] => false
  | c :: cs =>
    isNameStart c && cs.all isNameChar &&
      !(keywords.map String.toList).contains ((c :: cs).map Char.toLower)

/-- A name is a letter or an underscore, then more of them or digits, and no keyword. -/
theorem isName_iff {text : String} :
    isName text = true ↔ ∃ c cs, text.toList = c :: cs ∧ isNameStart c = true ∧
      (∀ d ∈ cs, isNameChar d = true) ∧ keywords.contains (text.map Char.toLower) = false := by
  -- Keywords are compared character by character or as texts, with one result.
  have hkeywords : (keywords.map String.toList).contains (text.toList.map Char.toLower) =
      keywords.contains (text.map Char.toLower) := by
    rw [Bool.eq_iff_iff, List.contains_iff_mem, List.contains_iff_mem, ← String.toList_map]
    exact List.mem_map_of_injective fun _ _ h => String.toList_inj.1 h
  rw [← hkeywords]
  unfold isName
  cases hchars : text.toList with
  | nil =>
    constructor
    · exact nofun
    · rintro ⟨_, _, h, _⟩
      cases h
  | cons c cs =>
    simp only [Bool.and_eq_true, List.all_eq_true, Bool.not_eq_true']
    constructor
    · rintro ⟨⟨hc, hcs⟩, hkeyword⟩
      exact ⟨c, cs, rfl, hc, hcs, hkeyword⟩
    · rintro ⟨_, _, heq, hc, hcs, hkeyword⟩
      cases heq
      exact ⟨⟨hc, hcs⟩, hkeyword⟩

/-- What begins a name may also stand in it. -/
theorem isNameChar_of_isNameStart {c : Char} (h : isNameStart c = true) : isNameChar c = true := by
  rw [isNameChar, h, Bool.true_or]

/-- A name is read up to the first character that is not of one. -/
theorem bareName_append {text : String} (h : isName text = true) {s : List Char}
    (hs : Stops isNameChar s) : bareName (text.toList ++ s) = some (text, s) := by
  obtain ⟨c, cs, hchars, hc, hcs, hkeyword⟩ := isName_iff.1 h
  have htext : String.ofList (c :: cs) = text := by rw [← hchars, String.ofList_toList]
  have hnot : ¬keywords.contains (text.map Char.toLower) = true := by
    rw [hkeyword]
    exact Bool.false_ne_true
  rw [bareName, hchars, List.cons_append, bind_of_eq_some (char_cons hc),
    bind_of_eq_some (run_append hcs hs), htext, if_neg hnot]
  rfl

/-- No blank stands in front of it. -/
theorem stops_isSpace_of_isName {text : String} (h : isName text = true) (s : List Char) :
    Stops isSpace (text.toList ++ s) := by
  obtain ⟨c, cs, hchars, hc, _⟩ := isName_iff.1 h
  rw [hchars]
  exact stops_cons (not_isSpace_of_isNameChar (isNameChar_of_isNameStart hc))

/-- **A name is read.** -/
theorem name_append {text : String} (h : isName text = true) {s : List Char}
    (hs : Stops isNameChar s) : name (text.toList ++ s) = some (text, s) := by
  rw [name, token_of_stops (stops_isSpace_of_isName h s), bareName_append h hs]

/-- A list with a separator between its items, from the first item on. -/
theorem intercalate_cons {α : Type} (separator first : List α) (items : List (List α)) :
    separator.intercalate (first :: items) = first ++ items.flatMap (separator ++ ·) := by
  induction items generalizing first with
  | nil => exact List.intercalate_singleton.trans (List.append_nil first).symm
  | cons item items ih =>
    rw [List.intercalate_cons_cons, ih, List.flatMap_cons, List.append_assoc, List.append_assoc]

/-- The characters of a path are those of its parts, with dots between. -/
theorem toList_pathText (base : String) (properties : List String) :
    (WrittenPath.text ⟨base, properties⟩).toList =
      base.toList ++ properties.flatMap fun p => '.' :: p.toList := by
  rw [WrittenPath.text, String.toList_intercalate, List.map_cons, intercalate_cons,
    List.flatMap_map]
  rfl

/-- **A path is read.** -/
theorem path_append (base : String) (properties : List String) (hbase : isName base = true)
    (hproperties : ∀ p ∈ properties, isName p = true) {s : List Char} (hs : Stops isNameChar s)
    (hdot : s.head? ≠ some '.') :
    path ((WrittenPath.text ⟨base, properties⟩).toList ++ s) = some (⟨base, properties⟩, s) := by
  have hmore : ∀ {properties : List String}, (∀ p ∈ properties, isName p = true) →
      Stops isNameChar ((properties.flatMap fun p => '.' :: p.toList) ++ s) ∧
      Repeats (do exactly ['.']; bareName) ((properties.flatMap fun p => '.' :: p.toList) ++ s)
        properties s := by
    intro properties hproperties
    -- Every property begins with a dot, which ends the name before it.
    induction properties with
    | nil => exact ⟨hs, .stop (bind_of_eq_none (exactly_of_head? hdot))⟩
    | cons p properties ih =>
      obtain ⟨hp, hproperties⟩ := List.forall_mem_cons.1 hproperties
      obtain ⟨hstops, hrepeats⟩ := ih hproperties
      rw [List.flatMap_cons, List.cons_append, List.cons_append, List.append_assoc]
      refine ⟨stops_cons (by decide), .step (t := _) ?_ ?_ hrepeats⟩
      · have hdot : exactly ['.'] ('.' :: (p.toList ++
            ((properties.flatMap fun p => '.' :: p.toList) ++ s))) =
            some ((), p.toList ++ ((properties.flatMap fun p => '.' :: p.toList) ++ s)) := rfl
        rw [bind_of_eq_some hdot, bareName_append hp hstops]
      · simp only [List.length_cons, List.length_append]
        omega
  obtain ⟨hstops, hrepeats⟩ := hmore hproperties
  have hnames : dottedNames ((WrittenPath.text ⟨base, properties⟩).toList ++ s) =
      some (base :: properties, s) := by
    rw [toList_pathText, List.append_assoc, dottedNames, bind_of_eq_some (name_append hbase hstops),
      bind_of_eq_some (many_of_repeats hrepeats)]
    rfl
  rw [path, bind_of_eq_some hnames]
  rfl

/-- A path may stand behind blanks. -/
theorem skipsBlanks_path : SkipsBlanks path := (skipsBlanks_token.bind).bind

/-! ### Numbers -/

/-- Digits are read up to what ends them. -/
theorem digits_append {ds s : List Char} (hne : ds ≠ []) (hds : ∀ c ∈ ds, isAsciiDigit c = true)
    (hs : Ends s) : digits (ds ++ s) = some (ds, s) :=
  run1_append hne hds (hs.stops (by decide))

/-- The sign of a number. -/
def sign (negative : Bool) : List Char := if negative then ['-'] else []

/-- The sign is read, if there is one. -/
theorem minus_append {negative : Bool} {ds : List Char} (hne : ds ≠ [])
    (hds : ∀ c ∈ ds, isAsciiDigit c = true) (s : List Char) :
    minus (sign negative ++ (ds ++ s)) = some (negative, ds ++ s) := by
  cases negative with
  | true => rfl
  | false =>
    obtain ⟨c, ds, rfl⟩ := List.exists_cons_of_ne_nil hne
    have hhead : ((c :: ds) ++ s).head? ≠ some '-' := by
      intro hhead
      cases hhead
      exact absurd (hds '-' List.mem_cons_self) (by decide)
    exact map_of_eq_some (optional_of_eq_none (exactly_of_head? hhead))

/-- No blank stands in front of a number. -/
theorem stops_isSpace_of_digits {negative : Bool} {ds : List Char} (hne : ds ≠ [])
    (hds : ∀ c ∈ ds, isAsciiDigit c = true) (s : List Char) :
    Stops isSpace (sign negative ++ (ds ++ s)) := by
  cases negative with
  | true => exact stops_cons (by decide)
  | false =>
    obtain ⟨c, ds, rfl⟩ := List.exists_cons_of_ne_nil hne
    have hc : isNameChar c = true := by
      rw [isNameChar, hds c List.mem_cons_self, Bool.or_true]
    exact stops_cons (not_isSpace_of_isNameChar hc)

/-- Whole numbers are not real ones. -/
theorem real_of_digits {negative : Bool} {ds s : List Char} (hne : ds ≠ [])
    (hds : ∀ c ∈ ds, isAsciiDigit c = true) (hs : Ends s) :
    real (sign negative ++ (ds ++ s)) = none := by
  rw [real, token_of_stops (stops_isSpace_of_digits hne hds s),
    bind_of_eq_some (minus_append hne hds s), bind_of_eq_some (digits_append hne hds hs)]
  -- Behind the digits there is no decimal point.
  exact bind_of_eq_none (exactly_of_head? (hs.head?_ne (by decide)))

/-- **A whole number is read.** -/
theorem integer_append {negative : Bool} {ds s : List Char} (hne : ds ≠ [])
    (hds : ∀ c ∈ ds, isAsciiDigit c = true) (hs : Ends s) :
    integer (sign negative ++ (ds ++ s)) = some (.integer (sign negative ++ ds), s) := by
  rw [integer, token_of_stops (stops_isSpace_of_digits hne hds s),
    bind_of_eq_some (minus_append hne hds s), bind_of_eq_some (digits_append hne hds hs)]
  cases negative <;> rfl

/-! ### Texts -/

/-- The characters of a text literal. -/
def doubled (c : Char) : List Char := if c = '\'' then ['\'', '\''] else [c]

/-- A character of a literal is read back, a quote from two. -/
theorem literalChar_doubled (c : Char) (s : List Char) :
    literalChar (doubled c ++ s) = some (c, s) := by
  unfold doubled
  split
  · rename_i hc
    rw [hc]
    rfl
  · rename_i hc
    have hhead : (c :: s).head? ≠ some '\'' := fun h => hc (Option.some.inj h)
    have hquote : (do exactly ['\'', '\'']; return '\'' : Reader Char) (c :: s) = none :=
      bind_of_eq_none (exactly_of_head? hhead)
    have hother : char (· != '\'') (c :: s) = some (c, s) := char_cons (bne_iff_ne.2 hc)
    show ((do exactly ['\'', '\'']; return '\'') <|> char (· != '\'') : Reader Char) (c :: s) = _
    rw [orElse_of_eq_none hquote]
    exact hother

/-- A single quote ends the text. -/
theorem literalChar_quote {s : List Char} (hs : Ends s) : literalChar ('\'' :: s) = none := by
  have hquote : (do exactly ['\'', '\'']; return '\'' : Reader Char) ('\'' :: s) = none := by
    refine bind_of_eq_none ?_
    have hfirst : char (· == '\'') ('\'' :: s) = some ('\'', s) := rfl
    rw [exactly, bind_of_eq_some hfirst]
    exact exactly_of_head? (hs.head?_ne (by decide))
  show ((do exactly ['\'', '\'']; return '\'') <|> char (· != '\'') : Reader Char) ('\'' :: s) = _
  rw [orElse_of_eq_none hquote]
  rfl

/-- **A text is read**, whatever it holds. -/
theorem textLiteral_append (text : String) {s : List Char} (hs : Ends s) :
    textLiteral ('\'' :: (text.toList.flatMap doubled ++ '\'' :: s)) = some (.text text, s) := by
  have hrepeats : ∀ chars : List Char,
      Repeats literalChar (chars.flatMap doubled ++ '\'' :: s) chars ('\'' :: s) := by
    intro chars
    -- The quote at the end is a single one, because no other quote follows it.
    induction chars with
    | nil => exact .stop (literalChar_quote hs)
    | cons c chars ih =>
      rw [List.flatMap_cons, List.append_assoc]
      refine .step (literalChar_doubled c _) ?_ ih
      have hpos : 0 < (doubled c).length := by
        unfold doubled
        split <;> exact Nat.succ_pos _
      simp only [List.length_append]
      omega
  have hopen : exactly ['\''] ('\'' :: (text.toList.flatMap doubled ++ '\'' :: s)) =
      some ((), text.toList.flatMap doubled ++ '\'' :: s) := rfl
  have hclose : exactly ['\''] ('\'' :: s) = some ((), s) := rfl
  rw [textLiteral, token_of_stops (stops_cons (by decide)), bind_of_eq_some hopen,
    bind_of_eq_some (many_of_repeats (hrepeats text.toList)), bind_of_eq_some hclose,
    String.ofList_toList]
  rfl

end EntityQuery.Grammar
