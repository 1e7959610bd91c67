import EntityQuery.Proofs.Template.Comparisons
import EntityQuery.Proofs.Template.Precedence
import EntityQuery.Proofs.Text.Reading
import Mathlib.Data.List.TakeWhile

namespace EntityQuery

/-!
# Parameters in a text

Outside of text literals a colon begins a named parameter and a question mark a positional one, and no
other token has such a character.  So the parameters of a text can be told without its grammar
(`Grammar.parametersOf`).  Whatever template the grammar reads, it reads just these parameters, and in
the order of the text (`Grammar.parameters_of_parse?`): what each reader takes holds the parameters of
what it gives (`Grammar.Finds`).
-/

/-- A parameter as it is written. -/
inductive WrittenParameter where
  | named (name : String)
  | positional (digits : List Char)
deriving DecidableEq, Repr

/-! ### Parameters of what is written -/

/-- The parameter that an operand is, if it is one. -/
def WrittenOperand.parameters : WrittenOperand → List WrittenParameter
  | .named name => [.named name]
  | .positional digits => [.positional digits]
  | .literal _ => []

/-- The parameters of a test are those of its operand. -/
def WrittenTest.parameters : WrittenTest → List WrittenParameter
  | .compare _ o => o.parameters
  | _ => []

/-- The parameters of comparisons, one for each occurrence. -/
def WrittenComparison.parametersOfAll (cs : List WrittenComparison) : List WrittenParameter :=
  cs.flatMap fun c => c.test.parameters

/-- Those of an atom are those of its comparisons. -/
def WrittenAtom.parameters (a : WrittenAtom) : List WrittenParameter :=
  WrittenComparison.parametersOfAll a.comparisons

/-- The parameters of a condition that may be missing. -/
def WrittenCondition.parameters (c : Option WrittenCondition) : List WrittenParameter :=
  WrittenComparison.parametersOfAll (WrittenCondition.comparisons c)

/-- What is told of leaves, told of tokens: brackets and operators have none of it. -/
def ArithmeticToken.ofLeaf {α β : Type} (f : α → List β) : ArithmeticToken α → List β
  | .leaf a => f a
  | _ => []

/-- A leaf of an expression may be one. -/
def WrittenLeaf.parameters : WrittenLeaf → List WrittenParameter
  | .operand o => o.parameters
  | .path _ => []

/-- The parameters of an expression, as its tokens have them. -/
def WrittenValue.parameters (w : WrittenValue) : List WrittenParameter :=
  w.termTokens.flatMap (ArithmeticToken.ofLeaf WrittenLeaf.parameters)

/-- The parameters of a mutation are those of the values it assigns. -/
def WrittenMutation.parameters : WrittenMutation → List WrittenParameter
  | .update assignments => assignments.flatMap fun a => a.2.parameters
  | .delete => []

/-- The parameters of a template in written order: assignments stand before the condition. -/
def WrittenTemplate.parameters : WrittenTemplate → List WrittenParameter
  | .select w => WrittenCondition.parameters w.condition
  | .bulk w => w.mutation.parameters ++ WrittenCondition.parameters w.condition

namespace WrittenAtom

/-- A comparison has those of its test. -/
theorem parameters_comparison (p : WrittenPath) (t : WrittenTest) :
    (WrittenAtom.comparison p t).parameters = t.parameters := by
  rw [parameters, comparisons]
  exact List.append_nil _

/-- A condition has those of its atoms. -/
theorem parameters_comparisonsOfAll (c : WrittenCondition) :
    WrittenCondition.parameters (some c) = c.flatMap fun atoms => atoms.flatMap parameters := by
  have hatoms : ∀ atoms : List WrittenAtom,
      WrittenComparison.parametersOfAll (comparisonsOf atoms) = atoms.flatMap parameters := by
    intro atoms
    induction atoms with
    | nil => rw [comparisonsOf]; rfl
    | cons a more ih =>
      rw [comparisonsOf, WrittenComparison.parametersOfAll, List.flatMap_append, List.flatMap_cons, ← ih]
      rfl
  show WrittenComparison.parametersOfAll (comparisonsOfAll c) = _
  induction c with
  | nil => rw [comparisonsOfAll]; rfl
  | cons atoms more ih =>
    rw [comparisonsOfAll, WrittenComparison.parametersOfAll, List.flatMap_append, List.flatMap_cons,
      ← ih, ← hatoms]
    rfl

/-- And so has a group. -/
theorem parameters_group (c : WrittenCondition) :
    (WrittenAtom.group c).parameters = WrittenCondition.parameters (some c) := by
  rw [parameters, comparisons]
  rfl

end WrittenAtom

/-- A chain has those of its terms. -/
theorem WrittenValue.parameters_chain (first : WrittenValue)
    (more : List (ArithmeticOperator × WrittenValue)) :
    (WrittenValue.chain first more).parameters =
      first.parameters ++ more.flatMap fun link => link.2.parameters := by
  have hmore : (moreTokens more).flatMap (ArithmeticToken.ofLeaf WrittenLeaf.parameters) =
      more.flatMap fun link => link.2.parameters := by
    induction more with
    | nil => rfl
    | cons link more ih =>
      rw [moreTokens, List.flatMap_cons, List.flatMap_append, ih, List.flatMap_cons, parameters]
      rfl
  rw [← hmore, parameters, termTokens, List.flatMap_cons, List.flatMap_append, List.flatMap_append]
  exact List.append_nil _

namespace Grammar

open Text Text.Reader

/-! ### Parameters of a text -/

/-- The parameters from some place of a text on, which is inside of a text literal or outside of one.
    A doubled quote leaves a literal and goes back into it. -/
def parametersFrom : Bool → List Char → List WrittenParameter
  | _, [] => []
  | inside, c :: s =>
    if c = '\'' then parametersFrom (!inside) s
    else if inside then parametersFrom true s
    else if c = ':' then .named (String.ofList (s.takeWhile isNameChar)) :: parametersFrom false s
    else if c = '?' then .positional (s.takeWhile isAsciiDigit) :: parametersFrom false s
    else parametersFrom false s

/-- The parameters of a text in the order of their appearance, one for each occurrence. -/
def parametersOf (text : String) : List WrittenParameter := parametersFrom false text.toList

example : parametersOf "delete from Member m where m.name = ':x' and m.age < :y or m.name = :x" =
    [.named "y", .named "x"] := by decide

/-- The characters that matter to the parameters of a text. -/
def marks : List Char := ['\'', ':', '?']

/-- A character that is no mark begins no parameter. -/
theorem parametersFrom_cons {c : Char} (h : c ∉ marks) (inside : Bool) (s : List Char) :
    parametersFrom inside (c :: s) = parametersFrom inside s := by
  simp only [marks, List.mem_cons, List.not_mem_nil, or_false, not_or] at h
  obtain ⟨hquote, hcolon, hquestion⟩ := h
  cases inside with
  | true => rw [parametersFrom, if_neg hquote, if_pos rfl]
  | false => rw [parametersFrom, if_neg hquote, if_neg nofun, if_neg hcolon, if_neg hquestion]

/-- Nor does a text without marks. -/
theorem parametersFrom_append {cs : List Char} (h : ∀ c ∈ cs, c ∉ marks) (inside : Bool)
    (s : List Char) : parametersFrom inside (cs ++ s) = parametersFrom inside s := by
  induction cs with
  | nil => rfl
  | cons c cs ih =>
    obtain ⟨hc, hcs⟩ := List.forall_mem_cons.1 h
    rw [List.cons_append, parametersFrom_cons hc, ih hcs]

/-! ### Readers and what they find -/

variable {α β : Type}

/-- What a reader takes, inside of a literal or outside of one, holds the parameters of what it gives,
    behind those that were found before. -/
def Finds (inside : Bool) (before : List WrittenParameter) (p : Reader α)
    (found : α → List WrittenParameter) : Prop :=
  ∀ s a t, p s = some (a, t) →
    before ++ parametersFrom inside s = found a ++ parametersFrom inside t

/-- A reader that takes no parameters. -/
abbrev Silent (p : Reader α) : Prop := Finds false [] p fun _ => []

namespace Finds

variable {inside : Bool} {before : List WrittenParameter} {mid found : α → List WrittenParameter}
  {last : β → List WrittenParameter} {p q : Reader α} {f : α → Reader β}

/-- A result without reading finds what was found before. -/
theorem pure {a : α} (h : found a = before) : Finds inside before (Pure.pure a) found := by
  intro s b t hb
  cases hb
  rw [h]

/-- Two parts find what both find. -/
theorem bind (hp : Finds inside [] p mid) (hf : ∀ a, Finds inside (before ++ mid a) (f a) last) :
    Finds inside before (p >>= f) last := by
  intro s b t hb
  obtain ⟨a, u, ha, hb⟩ := bind_eq_some_iff.1 hb
  have hfirst : parametersFrom inside s = mid a ++ parametersFrom inside u := hp s a u ha
  rw [hfirst, ← List.append_assoc, hf a u b t hb]

/-- A reader that takes no parameters leaves what was found as it was. -/
theorem after (hp : Finds inside [] p fun _ => []) (hf : ∀ a, Finds inside before (f a) last) :
    Finds inside before (p >>= f) last :=
  hp.bind fun a => by
    rw [List.append_nil]
    exact hf a

/-- What is made of a result has its parameters. -/
theorem map {g : α → β} (h : Finds inside [] p fun a => last (g a)) : Finds inside [] (g <$> p) last :=
  h.bind (f := fun a => Pure.pure (g a)) fun _ => .pure rfl

/-- What is found may be written in another way. -/
theorem congr (h : Finds inside before p mid) (heq : ∀ a, mid a = found a) :
    Finds inside before p found := by
  intro s a t ha
  rw [← heq a]
  exact h s a t ha

/-- Either choice finds what it reads. -/
theorem orElse (hp : Finds inside before p found) (hq : Finds inside before q found) :
    Finds inside before (p <|> q) found := by
  intro s a t ha
  cases hs : p s with
  | none =>
    rw [orElse_of_eq_none hs] at ha
    exact hq s a t ha
  | some result =>
    rw [orElse_of_eq_some hs] at ha
    exact hp s a t (hs.trans ha)

/-- An optional part finds nothing where it is missing. -/
theorem optional (h : Finds inside [] p found) : Finds inside [] (optional p) fun a => a.elim [] found :=
  Finds.orElse (.map h) (.pure rfl)

/-- A repeated part finds what each of its turns does. -/
theorem many (h : Finds inside [] p found) : Finds inside [] (many p) fun as => as.flatMap found := by
  have hupTo : ∀ n, Finds inside [] (upTo p n) fun as => as.flatMap found := by
    intro n
    induction n with
    | zero => exact .pure rfl
    | succ n ih =>
      exact Finds.orElse (h.bind fun a => ih.bind fun as => .pure List.flatMap_cons) (.pure rfl)
  exact fun s as t has => hupTo s.length s as t has

/-- Repetition of a reader that takes no parameters takes none. -/
theorem silentMany (h : Finds inside [] p fun _ => []) : Finds inside [] (Reader.many p) fun _ => [] :=
  h.many.congr fun _ => List.flatMap_eq_nil_iff.2 fun _ _ => rfl

/-- So does a separated one, if the separator finds nothing. -/
theorem separated (h : Finds inside [] p found) {separator : Reader β}
    (hseparator : Finds inside [] separator fun _ => []) :
    Finds inside [] (separated p separator) fun as => as.flatMap found :=
  h.bind fun _ => (hseparator.after fun _ => h).many.bind fun _ => .pure List.flatMap_cons

end Finds

/-! ### Tokens without parameters -/

/-- A character that is no mark has no parameter. -/
theorem silent_char {accepts : Char → Bool} (h : marks.any accepts = false) :
    Silent (char accepts) := by
  intro s c t hc
  cases s with
  | nil => cases hc
  | cons d s =>
    rw [char] at hc
    split at hc
    · rename_i haccepts
      cases hc
      exact parametersFrom_cons (fun hmark => List.any_eq_false.1 h c hmark haccepts) false t
    · cases hc

/-- Nor has a run of such characters. -/
theorem silent_run {accepts : Char → Bool} (h : marks.any accepts = false) :
    Silent (run accepts) := by
  intro s cs t hcs
  cases hcs
  have htaken : ∀ c ∈ s.takeWhile accepts, c ∉ marks := fun c hc hmark =>
    List.any_eq_false.1 h c hmark (List.mem_takeWhile_imp hc)
  have hall := parametersFrom_append htaken false (s.dropWhile accepts)
  rwa [List.takeWhile_append_dropWhile] at hall

/-- Nor has one of at least one character. -/
theorem silent_run1 {accepts : Char → Bool} (h : marks.any accepts = false) :
    Silent (run1 accepts) :=
  (silent_char h).after fun _ => (silent_run h).after fun _ => .pure rfl

/-- Nor has a fixed text without marks. -/
theorem silent_exactly {cs : List Char} (h : cs.any marks.contains = false) : Silent (exactly cs) := by
  induction cs with
  | nil => exact .pure rfl
  | cons c cs ih =>
    rw [List.any_cons, Bool.or_eq_false_iff] at h
    refine (silent_char (List.any_eq_false.2 fun d hd hequal => ?_)).after fun _ => ih h.2
    rw [← eq_of_beq hequal, List.contains_iff_mem.2 hd] at h
    cases h.1

/-- In capitals or not. -/
theorem silent_anyCase {cs : List Char} (h : cs.any marks.contains = false) : Silent (anyCase cs) := by
  have hlower : marks.all (fun c => c.toLower == c) = true := by decide
  induction cs with
  | nil => exact .pure rfl
  | cons c cs ih =>
    rw [List.any_cons, Bool.or_eq_false_iff] at h
    refine (silent_char (List.any_eq_false.2 fun d hd hequal => ?_)).after fun _ => ih h.2
    have hsame : d.toLower = d := eq_of_beq (List.all_eq_true.1 hlower d hd)
    rw [← eq_of_beq hequal, hsame, List.contains_iff_mem.2 hd] at h
    cases h.1

/-- Looking ahead reads nothing. -/
theorem silent_notBefore (refuses : Char → Bool) : Silent (notBefore refuses) := by
  intro s a t h
  rw [notBefore] at h
  split at h <;> cases h
  rfl

/-- Neither does the end. -/
theorem silent_atEnd : Silent atEnd := by
  intro s a t h
  cases s <;> cases h
  rfl

/-- The blanks before a token do not matter. -/
theorem Finds.token {before : List WrittenParameter} {found : α → List WrittenParameter} {p : Reader α}
    (h : Finds false before p found) :
    Finds false before (token p) found :=
  (silent_run (by decide)).after fun _ => h

/-- A keyword has no parameter. -/
theorem silent_keyword {word : String} (h : word.toList.any marks.contains = false) :
    Silent (keyword word) :=
  .token ((silent_anyCase h).after fun _ => silent_notBefore _)

/-- A symbol has none. -/
theorem silent_symbol {text : String} (h : text.toList.any marks.contains = false) :
    Silent (symbol text) :=
  .token (silent_exactly h)

/-- Whether something is there that has no parameters. -/
theorem silent_isSome {p : Reader α} (h : Silent p) : Silent (Option.isSome <$> optional p) :=
  .map fun s a t ha => by
    have hfound := h.optional s a t ha
    cases a <;> exact hfound

/-- Nor has an optional word. -/
theorem silent_has {word : String} (h : word.toList.any marks.contains = false) : Silent (has word) :=
  silent_isSome (silent_keyword h)

/-- A name is what characters of names there are. -/
theorem bareName_eq {s t : List Char} {name : String} (h : bareName s = some (name, t)) :
    name = String.ofList (s.takeWhile isNameChar) ∧ parametersFrom false s = parametersFrom false t := by
  obtain ⟨c, u, hc, hnext⟩ := bind_eq_some_iff.1 h
  have hfirst := silent_char (by decide) s c u hc
  obtain ⟨cs, v, hcs, hnext⟩ := bind_eq_some_iff.1 hnext
  have hmore := silent_run (by decide) u cs v hcs
  obtain ⟨hbegins, rfl⟩ := char_eq_some_iff.1 hc
  cases hcs
  have hchar : isNameChar c = true := by rw [isNameChar, hbegins, Bool.true_or]
  split at hnext <;> cases hnext
  exact ⟨by rw [List.takeWhile_cons_of_pos hchar], hfirst.trans hmore⟩

/-- A name has none. -/
theorem silent_bareName : Silent bareName := fun _ _ _ h => (bareName_eq h).2

/-- Behind blanks or not. -/
theorem silent_name : Silent name := .token silent_bareName

/-- Nor has a path. -/
theorem silent_dottedNames : Silent dottedNames :=
  have hmore : Silent (do exactly ['.']; bareName) :=
    (silent_exactly (by decide)).after fun _ => silent_bareName
  silent_name.after fun _ => hmore.silentMany.after fun _ => .pure rfl

/-- And so it is for one with a base. -/
theorem silent_path : Silent path := silent_dottedNames.after fun _ => .pure rfl

/-- Digits have none. -/
theorem silent_digits : Silent digits := silent_run1 (by decide)

/-- Nor has a sign. -/
theorem silent_minus : Silent minus := silent_isSome (silent_exactly (by decide))

/-! ### Operands -/

/-- What stands inside of a literal is no parameter. -/
theorem finds_literalChar : Finds true [] literalChar fun _ => [] := by
  refine Finds.orElse (fun s a t h => ?_) fun s c t h => ?_
  · -- Two quotes leave the literal and go back into it.
    obtain ⟨_, u, hquotes, h⟩ := bind_eq_some_iff.1 h
    cases h
    rw [eq_append_of_exactly hquotes]
    rfl
  · obtain ⟨hc, rfl⟩ := char_eq_some_iff.1 h
    have hquote : c ≠ '\'' := bne_iff_ne.1 hc
    show parametersFrom true (c :: t) = parametersFrom true t
    rw [parametersFrom, if_neg hquote, if_pos rfl]

/-- **A text literal has no parameters**, whatever characters it has. -/
theorem silent_textLiteral : Silent textLiteral := by
  refine .token fun s a t h => ?_
  obtain ⟨_, u, hopen, h⟩ := bind_eq_some_iff.1 h
  obtain ⟨cs, v, hcs, h⟩ := bind_eq_some_iff.1 h
  obtain ⟨_, w, hclose, h⟩ := bind_eq_some_iff.1 h
  cases h
  -- The quote that opens the literal leads inside, and the one that closes it leads back.
  have hinside : parametersFrom true u = parametersFrom true v := finds_literalChar.silentMany u cs v hcs
  rw [eq_append_of_exactly hclose] at hinside
  rw [eq_append_of_exactly hopen]
  exact hinside

/-- A literal has none, whatever is written in it. -/
theorem silent_literal : Silent literal := by
  have hreal : Silent real := .token <| silent_minus.after fun _ => silent_digits.after fun _ =>
    (silent_exactly (by decide)).after fun _ => silent_digits.after fun _ => .pure rfl
  have hinteger : Silent integer :=
    .token <| silent_minus.after fun _ => silent_digits.after fun _ => .pure rfl
  have hword : ∀ (word : String) (l : WrittenLiteral), word.toList.any marks.contains = false →
      Silent (do keyword word; return l) :=
    fun _ _ hword => (silent_keyword hword).after fun _ => .pure rfl
  exact hreal.orElse <| hinteger.orElse <| silent_textLiteral.orElse <|
    (hword "true" _ (by decide)).orElse <| (hword "false" _ (by decide)).orElse <|
      hword "null" _ (by decide)

/-- **A parameter is found** where it is read, with its whole name or all of its digits. -/
theorem finds_operand : Finds false [] operand WrittenOperand.parameters := by
  have hnamed : Finds false [] namedParameter WrittenOperand.parameters := by
    refine .token fun s a t h => ?_
    obtain ⟨_, u, hcolon, h⟩ := bind_eq_some_iff.1 h
    obtain ⟨name, v, hname, h⟩ := bind_eq_some_iff.1 h
    cases h
    -- The scan goes on right behind the colon, where the name takes no further parameters.
    obtain ⟨rfl, hrest⟩ := bareName_eq hname
    rw [eq_append_of_exactly hcolon, List.nil_append, ← hrest]
    rfl
  have hpositional : Finds false [] positionalParameter WrittenOperand.parameters := by
    refine .token fun s a t h => ?_
    obtain ⟨_, u, hquestion, h⟩ := bind_eq_some_iff.1 h
    obtain ⟨ds, v, hdigits, h⟩ := bind_eq_some_iff.1 h
    cases h
    have hrest : parametersFrom false u = parametersFrom false t := silent_digits u ds t hdigits
    have htaken : ds = u.takeWhile isAsciiDigit := by
      obtain ⟨c, v, hc, hmore⟩ := bind_eq_some_iff.1 hdigits
      obtain ⟨hdigit, rfl⟩ := char_eq_some_iff.1 hc
      cases hmore
      rw [List.takeWhile_cons_of_pos hdigit]
    rw [eq_append_of_exactly hquestion, List.nil_append, ← hrest, htaken]
    rfl
  exact hnamed.orElse <| hpositional.orElse <| .map silent_literal

/-! ### Conditions -/

/-- A comparator has none. -/
theorem silent_comparator : Silent comparator := by
  have hsymbol : ∀ (text : String) (operator : Operator), text.toList.any marks.contains = false →
      Silent (do symbol text; return operator) :=
    fun _ _ htext => (silent_symbol htext).after fun _ => .pure rfl
  exact (hsymbol _ _ (by decide)).orElse <| (hsymbol _ _ (by decide)).orElse <|
    (hsymbol _ _ (by decide)).orElse <| (hsymbol _ _ (by decide)).orElse <|
    (hsymbol _ _ (by decide)).orElse <| (hsymbol _ _ (by decide)).orElse (hsymbol _ _ (by decide))

/-- Items with commas between them. -/
theorem Finds.commaSeparated {p : Reader α} {found : α → List WrittenParameter}
    (h : Finds false [] p found) : Finds false [] (commaSeparated p) fun as => as.flatMap found :=
  h.separated (silent_symbol (by decide))

/-- Nor has a list of what has none. -/
theorem silent_commaSeparated {p : Reader α} (h : Silent p) : Silent (commaSeparated p) :=
  h.commaSeparated.congr fun _ => List.flatMap_eq_nil_iff.2 fun _ _ => rfl

/-- A comparison finds the parameters written in it. -/
theorem finds_comparison : Finds false [] comparison WrittenAtom.parameters := by
  have hnull : Finds false [] nullTest WrittenTest.parameters :=
    (silent_keyword (by decide)).after fun _ => (silent_has (by decide)).after fun negated =>
      (silent_keyword (by decide)).after fun _ => .pure (by cases negated <;> rfl)
  have hlist : Finds false [] literalList WrittenTest.parameters :=
    (silent_symbol (by decide)).after fun _ => (silent_commaSeparated silent_literal).after fun _ =>
      (silent_symbol (by decide)).after fun _ => .pure rfl
  have hin : Finds false [] inTest WrittenTest.parameters :=
    (silent_keyword (by decide)).after fun _ => hlist.orElse (.map finds_operand)
  have hlike : Finds false [] likeTest WrittenTest.parameters :=
    (silent_keyword (by decide)).after fun _ => finds_operand.bind fun _ => .pure rfl
  have hbinary : Finds false [] binaryTest WrittenTest.parameters :=
    silent_comparator.after fun _ => finds_operand.bind fun _ => .pure rfl
  -- Each of the four tests has its own reader; the path in front of them has no parameter.
  exact silent_path.after fun p => (hnull.orElse <| hin.orElse <| hlike.orElse hbinary).bind fun t =>
    .pure (WrittenAtom.parameters_comparison p t)

/-- Alternatives find those of their atoms. -/
theorem finds_alternatives {reader : Reader WrittenAtom}
    (h : Finds false [] reader WrittenAtom.parameters) :
    Finds false [] (alternatives reader) fun c => WrittenCondition.parameters (some c) :=
  ((h.separated (silent_keyword (by decide))).separated (silent_keyword (by decide))).congr fun c =>
    (WrittenAtom.parameters_comparisonsOfAll c).symm

/-- **Parameters in brackets are found**, by induction on the depth of the brackets. -/
theorem finds_atom (depth : Nat) : Finds false [] (atom depth) WrittenAtom.parameters := by
  induction depth with
  | zero => exact finds_comparison
  | succ depth ih =>
    refine Finds.orElse ?_ finds_comparison
    exact (silent_symbol (by decide)).after fun _ => (finds_alternatives ih).bind fun inner =>
      (silent_symbol (by decide)).after fun _ => .pure (WrittenAtom.parameters_group inner)

/-- A condition finds its own, if there is one. -/
theorem finds_optionalWhere (depth : Nat) :
    Finds false [] (optional (whereClause depth)) WrittenCondition.parameters := by
  have hwhere : Finds false [] (whereClause depth) fun c => WrittenCondition.parameters (some c) :=
    (silent_keyword (by decide)).after fun _ => finds_alternatives (finds_atom depth)
  exact hwhere.optional.congr fun c => by cases c <;> rfl

/-! ### Values -/

/-- An operator has no parameter. -/
theorem silent_arithmetic : Silent arithmetic := by
  have hsymbol : ∀ (text : String) (operator : ArithmeticOperator),
      text.toList.any marks.contains = false → Silent (do symbol text; return operator) :=
    fun _ _ htext => (silent_symbol htext).after fun _ => .pure rfl
  exact (hsymbol _ _ (by decide)).orElse <| (hsymbol _ _ (by decide)).orElse <|
    (hsymbol _ _ (by decide)).orElse (hsymbol _ _ (by decide))

/-- A chain finds those of its terms. -/
theorem finds_chainOf {term : Reader WrittenValue} (h : Finds false [] term WrittenValue.parameters) :
    Finds false [] (chainOf term) WrittenValue.parameters := by
  have hlink : Finds false [] (do let operator ← arithmetic; return (operator, ← term))
      fun link : ArithmeticOperator × WrittenValue => link.2.parameters :=
    silent_arithmetic.after fun _ => h.bind fun _ => .pure rfl
  exact h.bind fun first => hlink.many.bind fun more => .pure (WrittenValue.parameters_chain first more)

/-- **The parameters of a value are found**, by induction on the depth of its brackets. -/
theorem finds_value (depth : Nat) : Finds false [] (value depth) WrittenValue.parameters := by
  have hplain : Finds false [] plainTerm WrittenValue.parameters :=
    Finds.orElse (.map (finds_operand.congr fun o => (List.append_nil o.parameters).symm))
      (.map silent_path)
  induction depth with
  | zero => exact finds_chainOf hplain
  | succ depth ih =>
    refine finds_chainOf (hplain.orElse ?_)
    exact (silent_symbol (by decide)).after fun _ => ih.bind fun _ =>
      (silent_symbol (by decide)).after fun _ => .pure rfl

/-! ### Statements -/

/-- An alias has none. -/
theorem silent_aliasName : Silent aliasName :=
  (silent_has (by decide)).after fun _ => silent_name

/-- Something that may be missing and has no parameters. -/
theorem silent_optional {p : Reader α} (h : Silent p) : Silent (optional p) :=
  h.optional.congr fun a => by cases a <;> rfl

/-- A select clause has none. -/
theorem silent_selectClause : Silent selectClause := by
  have hitem : Silent selectItem :=
    silent_path.after fun _ => (silent_optional silent_aliasName).after fun _ => .pure rfl
  have hconstruct : Silent constructItem :=
    (silent_keyword (by decide)).after fun _ => silent_dottedNames.after fun _ =>
      (silent_symbol (by decide)).after fun _ => (silent_commaSeparated hitem).after fun _ =>
      (silent_symbol (by decide)).after fun _ => .pure rfl
  have hcount : Silent countItem :=
    (silent_keyword (by decide)).after fun _ => (silent_symbol (by decide)).after fun _ =>
      (silent_has (by decide)).after fun _ => silent_path.after fun _ =>
      (silent_symbol (by decide)).after fun _ => .pure rfl
  exact hconstruct.orElse <| hcount.orElse (.map (silent_commaSeparated hitem))

/-- Nor has a join. -/
theorem silent_joinClause : Silent joinClause := by
  have hkind : Silent joinKind := by
    refine Finds.orElse ?_ ((silent_keyword (by decide)).after fun _ => .pure rfl)
    exact (silent_keyword (by decide)).after fun _ => (silent_has (by decide)).after fun _ => .pure rfl
  exact (silent_optional hkind).after fun _ => (silent_keyword (by decide)).after fun _ =>
    (silent_has (by decide)).after fun _ => silent_path.after fun _ =>
    (silent_optional silent_aliasName).after fun _ => .pure rfl

/-- Nor has an order. -/
theorem silent_orderClause : Silent orderClause := by
  have hdirection : Silent direction :=
    Finds.orElse ((silent_keyword (by decide)).after fun _ => .pure rfl)
      ((silent_keyword (by decide)).after fun _ => .pure rfl)
  have hitem : Silent orderItem :=
    silent_path.after fun _ => (silent_optional hdirection).after fun _ => .pure rfl
  exact (silent_keyword (by decide)).after fun _ => (silent_keyword (by decide)).after fun _ =>
    silent_commaSeparated hitem

/-- A statement finds the parameters written in it, wherever they may stand. -/
theorem finds_statement (depth : Nat) : Finds false [] (statement depth) WrittenTemplate.parameters := by
  have hselect : Finds false [] (WrittenTemplate.select <$> selectStatement depth)
      WrittenTemplate.parameters := by
    refine .map ?_
    exact (silent_keyword (by decide)).after fun _ => (silent_has (by decide)).after fun _ =>
      silent_selectClause.after fun _ => (silent_keyword (by decide)).after fun _ =>
      silent_name.after fun _ => silent_aliasName.after fun _ =>
      silent_joinClause.silentMany.after fun _ => (finds_optionalWhere depth).bind fun _ =>
      (silent_optional silent_orderClause).after fun _ => .pure rfl
  have hassignment : Finds false [] (assignment depth)
      fun a : WrittenPath × WrittenValue => a.2.parameters :=
    silent_path.after fun _ => (silent_symbol (by decide)).after fun _ =>
      (finds_value depth).bind fun _ => .pure rfl
  have hupdate : Finds false [] (WrittenTemplate.bulk <$> updateStatement depth)
      WrittenTemplate.parameters := by
    refine .map ?_
    exact (silent_keyword (by decide)).after fun _ => silent_name.after fun _ =>
      silent_aliasName.after fun _ => (silent_keyword (by decide)).after fun _ =>
      hassignment.commaSeparated.bind fun _ => (finds_optionalWhere depth).bind fun _ => .pure rfl
  have hdelete : Finds false [] (WrittenTemplate.bulk <$> deleteStatement depth)
      WrittenTemplate.parameters := by
    refine .map ?_
    exact (silent_keyword (by decide)).after fun _ => (silent_keyword (by decide)).after fun _ =>
      silent_name.after fun _ => silent_aliasName.after fun _ =>
      (finds_optionalWhere depth).bind fun _ => .pure rfl
  -- The text must end there, so nothing is left that could have more of them.
  exact (hselect.orElse <| hupdate.orElse hdelete).bind fun _ =>
    silent_atEnd.token.after fun _ => .pure rfl

/-- **A template has the parameters of its text**, in the order of the text. -/
theorem parameters_of_parse? {text : String} {w : WrittenTemplate} (h : parse? text = some w) :
    w.parameters = parametersOf text := by
  unfold parse? whole at h
  dsimp only at h
  split at h
  · rename_i hread
    cases h
    have hfound := finds_statement _ _ _ _ hread
    rw [parametersFrom, List.append_nil] at hfound
    exact hfound.symm
  · cases h

end Grammar

end EntityQuery
