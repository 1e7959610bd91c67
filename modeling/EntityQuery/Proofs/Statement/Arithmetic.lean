import EntityQuery.Proofs.Statement.Values
import EntityQuery.Proofs.Template.Precedence

namespace EntityQuery

/-!
# Arithmetic in statements

A value is written into a statement with brackets around every operation.  Read again by the rules of
precedence, the text of the statement denotes the value of its tree, whatever the leaves and operators
stand for (`ValueExpr.denotes_tokens`).  The tokens of a text are its brackets, operators and holes and
the words between them (`Statement.tokens`), so the names of columns have to be words.

`Template.arithmetic_follows_precedence` follows an assignment all the way: from what is written over the
tree that is made of it to the text for the store.
-/

/-! ### Tokens of a text -/

/-- A character of a text or a place for values. -/
inductive Symbol where
  | char (c : Char)
  | hole (fragment : Fragment)

namespace Symbol

/-- The symbols of a fragment. -/
def ofFragment : Fragment → List Symbol
  | .sql text => text.toList.map .char
  | f => [.hole f]

/-- The tokens that end a word and stand for themselves; blanks stand for none. -/
def separator? : Char → Option (List (ArithmeticToken Fragment))
  | ' ' => some []
  | '(' => some [.opening]
  | ')' => some [.closing]
  | '+' => some [.operator .add]
  | '-' => some [.operator .subtract]
  | '*' => some [.operator .multiply]
  | '/' => some [.operator .divide]
  | _ => none

/-- The token of a word that has come to its end. -/
def wordToken (word : List Char) : List (ArithmeticToken Fragment) :=
  if word.isEmpty then [] else [.leaf (.sql (String.ofList word))]

/-- The tokens of symbols behind the beginning of a word. -/
def tokens (word : List Char) : List Symbol → List (ArithmeticToken Fragment)
  | [] => wordToken word
  | .hole f :: rest => wordToken word ++ .leaf f :: tokens [] rest
  | .char c :: rest =>
    match separator? c with
    | some found => wordToken word ++ (found ++ tokens [] rest)
    | none => tokens (word ++ [c]) rest

/-- A word ends in front of these symbols. -/
def Breaks (symbols : List Symbol) : Prop :=
  ∀ word, tokens word symbols = wordToken word ++ tokens [] symbols

/-- A separator ends the word in front of it. -/
theorem tokens_separator {c : Char} {found : List (ArithmeticToken Fragment)}
    (h : separator? c = some found) (word : List Char) (rest : List Symbol) :
    tokens word (.char c :: rest) = wordToken word ++ (found ++ tokens [] rest) := by
  rw [tokens, h]

/-- So a word ends in front of a separator. -/
theorem breaks_separator {c : Char} {found : List (ArithmeticToken Fragment)}
    (h : separator? c = some found) (rest : List Symbol) : Breaks (.char c :: rest) := by
  intro word
  rw [tokens_separator h, tokens_separator h]
  rfl

/-- And at the end. -/
theorem breaks_nil : Breaks [] := fun word => (List.append_nil (wordToken word)).symm

/-- A text that is one word: it is not empty and nothing in it ends a word. -/
def IsWord (text : String) : Prop := text.toList ≠ [] ∧ ∀ c ∈ text.toList, separator? c = none

instance (text : String) : Decidable (IsWord text) := @instDecidableAnd _ _ _ (List.decidableBAll _ _)

/-- A word is a single token. -/
theorem tokens_word {text : String} (h : IsWord text) {rest : List Symbol} (hrest : Breaks rest) :
    tokens [] (ofFragment (.sql text) ++ rest) = .leaf (.sql text) :: tokens [] rest := by
  obtain ⟨hne, hchars⟩ := h
  -- The word is gathered character by character, so the induction is over any word begun so far.
  have hread : ∀ chars : List Char, (∀ c ∈ chars, separator? c = none) → ∀ word,
      tokens word (chars.map .char ++ rest) = tokens (word ++ chars) rest := by
    intro chars hchars
    induction chars with
    | nil => intro word; rw [List.append_nil]; rfl
    | cons c chars ih =>
      obtain ⟨hc, hmore⟩ := List.forall_mem_cons.1 hchars
      intro word
      rw [List.map_cons, List.cons_append, tokens, hc]
      dsimp only
      rw [ih hmore, List.append_assoc, List.singleton_append]
  rw [ofFragment, hread _ hchars, hrest, List.nil_append, wordToken,
    if_neg (by rw [List.isEmpty_iff]; exact hne), String.ofList_toList, List.singleton_append]

end Symbol

namespace Statement

/-- The symbols of a statement. -/
def symbols (s : Statement) : List Symbol := s.fragments.flatMap Symbol.ofFragment

/-- The tokens of the text of a statement. -/
def tokens (s : Statement) : List (ArithmeticToken Fragment) := Symbol.tokens [] s.symbols

/-- Fragments as their symbols. -/
def symbolsReading : Reading (List Symbol) :=
  .ofItems Symbol.ofFragment fun s t => by
    simp only [Symbol.ofFragment, String.toList_append, List.map_append]

/-- However text is merged, its symbols stay what they are. -/
theorem symbols_ofFragments (fs : List Fragment) :
    (ofFragments fs).symbols = fs.flatMap Symbol.ofFragment := by
  have hread : ∀ gs : List Fragment, gs.flatMap Symbol.ofFragment = symbolsReading.read gs :=
    fun gs => (Reading.read_ofItems gs).symm
  rw [symbols, hread, Reading.read_ofFragments, ← hread]

end Statement

/-! ### Values as text -/

/-- The fragment of a leaf. -/
def ValueLeaf.fragment : ValueLeaf → Fragment
  | .operand (.slot s) => .slot s
  | .operand (.literal v) => .value v
  | .operand .none => .sql "NULL"
  | .field f => .sql f.column

/-- The fragment of a token; blanks stand around an operator. -/
def ArithmeticToken.fragment : ArithmeticToken Fragment → Fragment
  | .leaf f => f
  | .operator o => .sql (" " ++ o.sql ++ " ")
  | .opening => .sql "("
  | .closing => .sql ")"

namespace ValueExpr

variable {β : Type}

/-- The value of a tree. -/
def eval (I : ArithmeticMeaning Fragment β) : ValueExpr → β
  | .operand o => I.leaf (ValueLeaf.operand o).fragment
  | .field f => I.leaf (ValueLeaf.field f).fragment
  | .binary operator l r => I.apply operator (l.eval I) (r.eval I)

/-- The tokens of a tree, with brackets around every operation. -/
def bracketed : ValueExpr → List (ArithmeticToken Fragment)
  | .operand o => [.leaf (ValueLeaf.operand o).fragment]
  | .field f => [.leaf (ValueLeaf.field f).fragment]
  | .binary operator l r =>
    .opening :: ((l.bracketed ++ .operator operator :: r.bracketed) ++ [.closing])

/-- A bracketed expression is a term of the grammar. -/
theorem denotes_bracketed (I : ArithmeticMeaning Fragment β) (v : ValueExpr) :
    I.Denotes .term v.bracketed (v.eval I) := by
  induction v with
  | operand o => exact .leaf _
  | field f => exact .leaf _
  | binary operator l r ihl ihr =>
    refine .brackets ?_
    cases hbinds : operator.isProduct with
    | true => exact .oneProduct (.product (.oneTerm ihl) hbinds ihr)
    | false => exact .sum ihl.toSum hbinds (.oneTerm ihr)

/-- **Brackets around every operation** leave nothing to precedence. -/
theorem denotes_bracketed_iff (I : ArithmeticMeaning Fragment β) (v : ValueExpr) (x : β) :
    I.Denotes .sum v.bracketed x ↔ x = v.eval I := by
  constructor
  · exact fun hx => hx.unique (v.denotes_bracketed I)
  · rintro rfl
    exact (v.denotes_bracketed I).toSum

/-- Each token of a tree is a fragment of its own. -/
theorem valueFragments_eq (v : ValueExpr) :
    BulkQuery.valueFragments v = v.bracketed.map ArithmeticToken.fragment := by
  induction v with
  | operand o => cases o <;> rfl
  | field f => rfl
  | binary operator l r ihl ihr =>
    rw [BulkQuery.valueFragments, bracketed, ihl, ihr]
    simp [ArithmeticToken.fragment]

/-- Each operator is written as one separating character. -/
theorem separator?_sql (operator : ArithmeticOperator) :
    ∃ c, operator.sql.toList = [c] ∧ Symbol.separator? c = some [.operator operator] := by
  cases operator <;> exact ⟨_, rfl, rfl⟩

/-- The text of a value has the tokens of its tree, in front of anything that ends a word. -/
theorem tokens_valueFragments {v : ValueExpr} (h : ∀ f ∈ v.fields, Symbol.IsWord f.column)
    {rest : List Symbol} (hrest : Symbol.Breaks rest) :
    Symbol.tokens [] ((BulkQuery.valueFragments v).flatMap Symbol.ofFragment ++ rest) =
      v.bracketed ++ Symbol.tokens [] rest := by
  induction v generalizing rest with
  | operand o =>
    cases o with
    | slot s => rfl
    | literal l => rfl
    | none =>
      rw [BulkQuery.valueFragments, List.flatMap_singleton]
      exact Symbol.tokens_word (by decide) hrest
  | field f =>
    rw [BulkQuery.valueFragments, List.flatMap_singleton]
    exact Symbol.tokens_word (h f (List.mem_singleton_self f)) hrest
  | binary operator l r ihl ihr =>
    obtain ⟨hl, hr⟩ := List.forall_mem_append.1 h
    obtain ⟨c, hsql, hc⟩ := separator?_sql operator
    have hsymbols : (BulkQuery.valueFragments (.binary operator l r)).flatMap Symbol.ofFragment ++ rest =
        .char '(' :: ((BulkQuery.valueFragments l).flatMap Symbol.ofFragment ++ .char ' ' :: .char c ::
          .char ' ' :: ((BulkQuery.valueFragments r).flatMap Symbol.ofFragment ++ .char ')' :: rest)) := by
      have hspaced : (" " ++ operator.sql ++ " ").toList = [' ', c, ' '] := by
        rw [String.toList_append, String.toList_append, hsql]
        rfl
      simp only [BulkQuery.valueFragments, List.flatMap_cons, List.flatMap_append, List.flatMap_nil,
        Symbol.ofFragment, hspaced, List.map_cons, List.map_nil, List.append_assoc, List.cons_append,
        List.nil_append]
      rfl
    -- The left side ends at the blank before the operator, the right side at the closing bracket.
    have hleft := ihl hl (Symbol.breaks_separator (c := ' ') rfl (.char c :: .char ' ' ::
      ((BulkQuery.valueFragments r).flatMap Symbol.ofFragment ++ .char ')' :: rest)))
    have hright := ihr hr (Symbol.breaks_separator (c := ')') rfl rest)
    rw [hsymbols, Symbol.tokens_separator (c := '(') rfl, hleft, Symbol.tokens_separator (c := ' ') rfl,
      Symbol.tokens_separator hc, Symbol.tokens_separator (c := ' ') rfl, hright,
      Symbol.tokens_separator (c := ')') rfl, bracketed]
    simp [Symbol.wordToken]

/-- **The text of a value denotes the value of its tree**, read by the rules of precedence, whatever
    leaves and operators stand for. -/
theorem denotes_tokens {v : ValueExpr} (h : ∀ f ∈ v.fields, Symbol.IsWord f.column)
    (I : ArithmeticMeaning Fragment β) (x : β) :
    I.Denotes .sum (Statement.ofFragments (BulkQuery.valueFragments v)).tokens x ↔ x = v.eval I := by
  have htokens : (Statement.ofFragments (BulkQuery.valueFragments v)).tokens = v.bracketed := by
    have hall := tokens_valueFragments h Symbol.breaks_nil
    rw [List.append_nil, ← Statement.symbols_ofFragments] at hall
    exact hall.trans (List.append_nil _)
  rw [htokens]
  exact v.denotes_bracketed_iff I x

end ValueExpr

/-! ### From assignments to statements -/

/-- **Arithmetic follows precedence.**  Whatever the grammar takes for a sum is written as a chain of
    terms.  A written value is resolved leaf by leaf, in written order, with the same defects, and what
    comes out is the one tree of its tokens.  Its fragments, and its text if columns are words, denote
    what the written tokens denote. -/
theorem Template.arithmetic_follows_precedence (scope : Scope) :
    (∀ (β : Type) (I : ArithmeticMeaning WrittenLeaf β) ts x, I.Denotes .sum ts x →
      ∃ first more, (WrittenValue.chain first more).tokens = ts) ∧
    ∀ (w : WrittenValue) (n : Numbering),
      (∃ e, value scope w n = .error e ∧ w.tokens.mapM (token scope) n = .error e) ∨
      ∃ v ts n', value scope w n = .ok (v, n') ∧ w.tokens.mapM (token scope) n = .ok (ts, n') ∧
        (∀ v', ValueExpr.tree.Denotes .sum ts v' ↔ v' = v) ∧
        BulkQuery.valueFragments v = v.bracketed.map ArithmeticToken.fragment ∧
        ∀ (β : Type) (I : ArithmeticMeaning Fragment β) (x : β),
          (I.Denotes .sum (ts.map (·.map ValueLeaf.fragment)) x ↔ x = v.eval I) ∧
          (I.Denotes .sum v.bracketed x ↔ x = v.eval I) ∧
          ((∀ f ∈ v.fields, Symbol.IsWord f.column) →
            (I.Denotes .sum (Statement.ofFragments (BulkQuery.valueFragments v)).tokens x ↔
              x = v.eval I)) := by
  refine ⟨fun β I ts x h => (WrittenValue.exists_written h).2, fun w n => ?_⟩
  refine (alongside_value w n).imp_right ?_
  rintro ⟨v, ts, n', hv, hts, htree⟩
  refine ⟨v, ts, n', hv, hts, fun v' => ⟨fun h => h.unique htree, fun h => h ▸ htree⟩,
    v.valueFragments_eq, fun β I x => ⟨?_, v.denotes_bracketed_iff I x, fun h => v.denotes_tokens h I x⟩⟩
  have hwritten : I.Denotes .sum (ts.map (·.map ValueLeaf.fragment)) (v.eval I) :=
    htree.map (g := ValueExpr.eval I) (fun a => by cases a <;> rfl) fun _ _ _ => rfl
  exact ⟨fun h => h.unique hwritten, fun h => h ▸ hwritten⟩

namespace Sample

/-- The scope of an update of members. -/
def ages : Template.Scope := ⟨league, member, [("m", ⟨[]⟩)]⟩

/-- A number as a term of a template. -/
def number (digits : String) : WrittenValue := .operand (.literal (.integer digits.toList))

/-- An age minus one minus the product of two and three. -/
def youngerAge : WrittenValue :=
  .chain (.path ⟨"m", ["age"]⟩) [(.subtract, number "1"), (.subtract, number "2"), (.multiply, number "3")]

end Sample

/-- Subtractions go from the left, and the product is made before the second one. -/
theorem Template.arithmetic_follows_precedence_age :
    ∃ v, value Sample.ages Sample.youngerAge {} = .ok (v, {}) ∧
      ∀ (β : Type) (I : ArithmeticMeaning Fragment β) (x : β),
        I.Denotes .sum (Statement.ofFragments (BulkQuery.valueFragments v)).tokens x ↔
          x = I.apply .subtract (I.apply .subtract (I.leaf (.sql "age")) (I.leaf (.value (.integer 1))))
            (I.apply .multiply (I.leaf (.value (.integer 2))) (I.leaf (.value (.integer 3)))) := by
  obtain ⟨v, hv, hfields, heval⟩ : ∃ v, value Sample.ages Sample.youngerAge {} = .ok (v, {}) ∧
      (∀ f ∈ v.fields, Symbol.IsWord f.column) ∧ ∀ (β : Type) (I : ArithmeticMeaning Fragment β),
        v.eval I = I.apply .subtract (I.apply .subtract (I.leaf (.sql "age"))
          (I.leaf (.value (.integer 1))))
            (I.apply .multiply (I.leaf (.value (.integer 2))) (I.leaf (.value (.integer 3)))) :=
    ⟨_, by rfl, by decide, fun _ _ => rfl⟩
  rcases (arithmetic_follows_precedence Sample.ages).2 Sample.youngerAge {} with
    ⟨e, he, _⟩ | ⟨v', _, n', hv', _, _, _, hdenotes⟩
  · cases hv.symm.trans he
  -- The grammar has one reading of the tokens, and this is its value.
  · cases hv.symm.trans hv'
    refine ⟨v, hv, fun β I x => ?_⟩
    rw [← heval]
    exact (hdenotes β I x).2.2 hfields

end EntityQuery
