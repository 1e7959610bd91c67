import EntityQuery.Proofs.Template.Accepted

namespace EntityQuery

/-!
# Precedence

The value of an assignment is written as terms with operators between them.  Products are made before
sums, both of them from the left, and brackets before either: `ArithmeticMeaning.Denotes` is the grammar
of such texts together with what they denote, whatever leaves and operators stand for.  A text denotes
no more than one value (`ArithmeticMeaning.Denotes.unique`), since it can be read from the left with a
stack of what waits at the open brackets.

A chain of terms is first resolved and then folded twice, and what comes out is the tree of this grammar
(`Template.alongside_value`): leaves are resolved in written order, and the tree is the one that their
text denotes.
-/

/-! ### The grammar of arithmetic -/

/-- A token of an arithmetic expression with leaves of some kind. -/
inductive ArithmeticToken (α : Type) where
  | leaf (leaf : α)
  | operator (operator : ArithmeticOperator)
  | opening
  | closing
deriving DecidableEq, Repr

namespace ArithmeticToken

variable {α β : Type}

/-- The token with its leaf replaced. -/
def map (f : α → β) : ArithmeticToken α → ArithmeticToken β
  | .leaf a => .leaf (f a)
  | .operator o => .operator o
  | .opening => .opening
  | .closing => .closing

end ArithmeticToken

/-- What leaves and operators stand for. -/
structure ArithmeticMeaning (α β : Type) where
  leaf : α → β
  apply : ArithmeticOperator → β → β → β

/-- The three levels of the grammar: a leaf or a bracket, factors, and summands. -/
inductive ArithmeticRank where
  | term
  | product
  | sum

namespace ArithmeticMeaning

variable {α β : Type}

/-- What tokens denote: a sum is a product or a sum with a product behind it, a product is a term or a
    product with a term behind it, and a term is a leaf or a sum in brackets. -/
inductive Denotes (I : ArithmeticMeaning α β) : ArithmeticRank → List (ArithmeticToken α) → β → Prop where
  | leaf (a : α) : Denotes I .term [.leaf a] (I.leaf a)
  | brackets {ts : List (ArithmeticToken α)} {x : β} (inner : Denotes I .sum ts x) :
    Denotes I .term (.opening :: (ts ++ [.closing])) x
  | oneTerm {ts : List (ArithmeticToken α)} {x : β} (only : Denotes I .term ts x) :
    Denotes I .product ts x
  | product {ts us : List (ArithmeticToken α)} {x y : β} {operator : ArithmeticOperator}
    (left : Denotes I .product ts x) (binds : operator.isProduct = true) (right : Denotes I .term us y) :
    Denotes I .product (ts ++ .operator operator :: us) (I.apply operator x y)
  | oneProduct {ts : List (ArithmeticToken α)} {x : β} (only : Denotes I .product ts x) :
    Denotes I .sum ts x
  | sum {ts us : List (ArithmeticToken α)} {x y : β} {operator : ArithmeticOperator}
    (left : Denotes I .sum ts x) (binds : operator.isProduct = false) (right : Denotes I .product us y) :
    Denotes I .sum (ts ++ .operator operator :: us) (I.apply operator x y)

variable {I : ArithmeticMeaning α β} {r : ArithmeticRank} {ts us : List (ArithmeticToken α)} {x y : β}

/-- Every term and every product is a sum. -/
theorem Denotes.toSum (h : I.Denotes r ts x) : I.Denotes .sum ts x := by
  cases r with
  | term => exact .oneProduct (.oneTerm h)
  | product => exact .oneProduct h
  | sum => exact h

/-! ### Reading from the left -/

/-- A left side that waits for its right side, if there is one. -/
abbrev Left (β : Type) := Option (β × ArithmeticOperator)

/-- The value with the left side that waited for it. -/
def close (I : ArithmeticMeaning α β) (left : Left β) (x : β) : β :=
  left.elim x fun (y, operator) => I.apply operator y x

/-- What waits for a term: the sum and the product before it. -/
structure Waiting (β : Type) where
  sum : Left β := none
  product : Left β := none

mutual

/-- Reads on where a term has to follow; the stack is what waits at open brackets. -/
def readTerm (I : ArithmeticMeaning α β) (waiting : Waiting β) (stack : List (Waiting β)) :
    List (ArithmeticToken α) → Option β
  | .leaf a :: ts => readOn I waiting.sum (I.close waiting.product (I.leaf a)) stack ts
  | .opening :: ts => readTerm I {} (waiting :: stack) ts
  | _ => none

/-- Reads on behind a term. -/
def readOn (I : ArithmeticMeaning α β) (sum : Left β) (product : β) (stack : List (Waiting β)) :
    List (ArithmeticToken α) → Option β
  | [] => if stack.isEmpty then some (I.close sum product) else none
  | .operator operator :: ts =>
    if operator.isProduct then readTerm I ⟨sum, some (product, operator)⟩ stack ts
    else readTerm I ⟨some (I.close sum product, operator), none⟩ stack ts
  | .closing :: ts =>
    match stack with
    | [] => none
    | waiting :: stack =>
      readOn I waiting.sum (I.close waiting.product (I.close sum product)) stack ts
  | _ => none

end

/-- The value of a text that is read from the left. -/
def read (I : ArithmeticMeaning α β) (ts : List (ArithmeticToken α)) : Option β := readTerm I {} [] ts

/-- What reading makes of tokens in front of any others. -/
def Reads (I : ArithmeticMeaning α β) : ArithmeticRank → List (ArithmeticToken α) → β → Prop
  | .term, ts, x => ∀ waiting stack rest, readTerm I waiting stack (ts ++ rest) =
      readOn I waiting.sum (I.close waiting.product x) stack rest
  | .product, ts, x => ∀ sum stack rest, readTerm I ⟨sum, none⟩ stack (ts ++ rest) =
      readOn I sum x stack rest
  | .sum, ts, x => ∃ sum product, I.close sum product = x ∧ ∀ stack rest,
      readTerm I {} stack (ts ++ rest) = readOn I sum product stack rest

/-- What the grammar gives an expression is what one pass from left to right makes of it. -/
theorem Denotes.reads (h : I.Denotes r ts x) : I.Reads r ts x := by
  induction h with
  | leaf a =>
    intro waiting stack rest
    rw [List.singleton_append, readTerm]
  | @brackets ts x _ ih =>
    -- The bracket is read with nothing waiting, and closed before the rest goes on.
    obtain ⟨sum, product, rfl, hread⟩ := ih
    intro waiting stack rest
    rw [List.cons_append, readTerm, List.append_assoc, hread, List.singleton_append, readOn]
  | oneTerm _ ih => exact fun sum stack rest => ih ⟨sum, none⟩ stack rest
  | @product ts us x y operator _ hbinds _ ihleft ihright =>
    intro sum stack rest
    rw [List.append_assoc, ihleft, List.cons_append, readOn, if_pos hbinds, ihright]
    rfl
  | oneProduct _ ih => exact ⟨none, _, rfl, ih none⟩
  | @sum ts us x y operator _ hbinds _ ihleft ihright =>
    obtain ⟨sum, product, rfl, hread⟩ := ihleft
    refine ⟨some (I.close sum product, operator), y, rfl, fun stack rest => ?_⟩
    rw [List.append_assoc, hread, List.cons_append, readOn, if_neg (Bool.eq_false_iff.1 hbinds), ihright]

/-- What tokens denote is read from the left. -/
theorem Denotes.read_eq (h : I.Denotes r ts x) : I.read ts = some x := by
  obtain ⟨sum, product, rfl, hread⟩ := h.toSum.reads
  have hall := hread [] []
  rw [List.append_nil] at hall
  rw [read, hall]
  rfl

/-- **Tokens denote one value** and no other. -/
theorem Denotes.unique {s : ArithmeticRank} (h : I.Denotes r ts x) (h' : I.Denotes s ts y) : x = y :=
  Option.some.inj (h.read_eq.symm.trans h'.read_eq)

/-- **What is denoted is carried along** by every map that respects leaves and operators. -/
theorem Denotes.map {γ δ : Type} {J : ArithmeticMeaning γ δ} {f : α → γ} {g : β → δ}
    (hleaf : ∀ a, g (I.leaf a) = J.leaf (f a))
    (happly : ∀ operator x y, g (I.apply operator x y) = J.apply operator (g x) (g y))
    (h : I.Denotes r ts x) : J.Denotes r (ts.map (·.map f)) (g x) := by
  induction h with
  | leaf a =>
    rw [hleaf]
    exact .leaf (f a)
  | brackets _ ih =>
    -- The brackets themselves are not changed.
    rw [List.map_cons, List.map_append]
    exact .brackets ih
  | oneTerm _ ih => exact .oneTerm ih
  | product _ hbinds _ ihleft ihright =>
    rw [happly, List.map_append]
    exact .product ihleft hbinds ihright
  | oneProduct _ ih => exact .oneProduct ih
  | sum _ hbinds _ ihleft ihright =>
    rw [happly, List.map_append]
    exact .sum ihleft hbinds ihright

/-! ### Chains -/

/-- Operators with terms behind them. -/
inductive DenotesMore (I : ArithmeticMeaning α β) :
    List (ArithmeticToken α) → List (ArithmeticOperator × β) → Prop where
  | nil : DenotesMore I [] []
  | cons {ts us : List (ArithmeticToken α)} {x : β} {more : List (ArithmeticOperator × β)}
    (operator : ArithmeticOperator) (term : I.Denotes .term ts x) (rest : DenotesMore I us more) :
    DenotesMore I (.operator operator :: (ts ++ us)) ((operator, x) :: more)

/-- A sum that waits, and the tokens before what it waits for. -/
inductive DenotesLeft (I : ArithmeticMeaning α β) : List (ArithmeticToken α) → Left β → Prop where
  | none : DenotesLeft I [] none
  | some {ts : List (ArithmeticToken α)} {x : β} {operator : ArithmeticOperator}
    (left : I.Denotes .sum ts x) (binds : operator.isProduct = false) :
    DenotesLeft I (ts ++ [.operator operator]) (some (x, operator))

/-- The sum that waited and the product that it waited for are a sum. -/
theorem DenotesLeft.close {left : Left β} (h : I.DenotesLeft ts left) (hx : I.Denotes .product us x) :
    I.Denotes .sum (ts ++ us) (I.close left x) := by
  cases h with
  | none => exact .oneProduct hx
  | some hleft hbinds =>
    rw [List.append_assoc]
    exact .sum hleft hbinds hx

end ArithmeticMeaning

/-! ### Written values -/

/-- What a value is written from. -/
inductive WrittenLeaf where
  | operand (operand : WrittenOperand)
  | path (path : WrittenPath)
deriving DecidableEq, Repr

namespace WrittenValue

mutual

/-- The tokens of a value that stands as a term: a chain stands in brackets. -/
def termTokens : WrittenValue → List (ArithmeticToken WrittenLeaf)
  | .operand o => [.leaf (.operand o)]
  | .path p => [.leaf (.path p)]
  | .chain first more => .opening :: ((first.termTokens ++ moreTokens more) ++ [.closing])

/-- The tokens of terms with their operators. -/
def moreTokens : List (ArithmeticOperator × WrittenValue) → List (ArithmeticToken WrittenLeaf)
  | [] => []
  | (operator, term) :: more => .operator operator :: (term.termTokens ++ moreTokens more)

end

/-- The tokens of a whole value, in written order. -/
def tokens : WrittenValue → List (ArithmeticToken WrittenLeaf)
  | .chain first more => first.termTokens ++ moreTokens more
  | leaf => leaf.termTokens

/-- The tokens of links one behind the other stand so. -/
theorem moreTokens_append (more more' : List (ArithmeticOperator × WrittenValue)) :
    moreTokens (more ++ more') = moreTokens more ++ moreTokens more' := by
  induction more with
  | nil => rfl
  | cons link more ih =>
    obtain ⟨operator, term⟩ := link
    rw [List.cons_append, moreTokens, moreTokens, ih, List.cons_append, List.append_assoc]

/-- What stands behind each rank is written as a term or as a chain. -/
theorem exists_written {β : Type} {I : ArithmeticMeaning WrittenLeaf β} {r : ArithmeticRank}
    {ts : List (ArithmeticToken WrittenLeaf)} {x : β} (h : I.Denotes r ts x) :
    (r = .term → ∃ w : WrittenValue, w.termTokens = ts) ∧
      ∃ first more, (WrittenValue.chain first more).tokens = ts := by
  -- A term alone is a chain without links.
  have hterm : ∀ {w : WrittenValue} {us}, w.termTokens = us →
      ∃ first more, (WrittenValue.chain first more).tokens = us :=
    fun {w _} hw => ⟨w, [], by rw [tokens, moreTokens, List.append_nil, hw]⟩
  induction h with
  | leaf a =>
    have hleaf : ∃ w : WrittenValue, w.termTokens = [.leaf a] := by
      cases a with
      | operand o => exact ⟨.operand o, by rw [termTokens]⟩
      | path p => exact ⟨.path p, by rw [termTokens]⟩
    obtain ⟨w, hw⟩ := hleaf
    exact ⟨fun _ => ⟨w, hw⟩, hterm hw⟩
  | brackets _ ih =>
    obtain ⟨_, first, more, rfl⟩ := ih
    have hw : (WrittenValue.chain first more).termTokens =
        .opening :: ((WrittenValue.chain first more).tokens ++ [.closing]) := by rw [termTokens, tokens]
    exact ⟨fun _ => ⟨_, hw⟩, hterm hw⟩
  | oneTerm _ ih => exact ⟨nofun, ih.2⟩
  | @product _ _ _ _ operator _ _ _ ihleft ihright =>
    -- A chain has no levels: a factor and a summand are both one more link of it.
    obtain ⟨_, first, more, rfl⟩ := ihleft
    obtain ⟨w, rfl⟩ := ihright.1 rfl
    refine ⟨nofun, first, more ++ [(operator, w)], ?_⟩
    rw [tokens, tokens, moreTokens_append, moreTokens, moreTokens, List.append_nil, List.append_assoc]
  | oneProduct _ ih => exact ⟨nofun, ih.2⟩
  | @sum _ _ _ _ operator _ _ _ ihleft ihright =>
    obtain ⟨_, first, more, rfl⟩ := ihleft
    obtain ⟨_, first', more', rfl⟩ := ihright
    refine ⟨nofun, first, more ++ (operator, first') :: more', ?_⟩
    rw [tokens, tokens, tokens, moreTokens_append, moreTokens, List.append_assoc]

end WrittenValue

/-- What a value is made of. -/
inductive ValueLeaf where
  | operand (operand : Operand)
  | field (field : Field)

namespace ValueLeaf

/-- The expression that a leaf is. -/
def expr : ValueLeaf → ValueExpr
  | .operand o => .operand o
  | .field f => .field f

end ValueLeaf

/-- Leaves and operators as parts of a tree. -/
def ValueExpr.tree : ArithmeticMeaning ValueLeaf ValueExpr := ⟨ValueLeaf.expr, .binary⟩

namespace Template

variable {α β γ δ : Type} {scope : Scope}

/-! ### Work side by side -/

/-- Two pieces of work that meet the same parameters and find the same defects, and whose results
    belong together. -/
def Alongside (R : α → β → Prop) (x : Resolving α) (y : Resolving β) : Prop :=
  ∀ n, (∃ e, x n = .error e ∧ y n = .error e) ∨
    ∃ a b n', x n = .ok (a, n') ∧ y n = .ok (b, n') ∧ R a b

namespace Alongside

variable {R : α → β → Prop} {S : γ → δ → Prop} {x : Resolving α} {y : Resolving β}

/-- A reader goes along with itself. -/
theorem refl (x : Resolving α) : Alongside (· = ·) x x := by
  intro n
  cases hx : x n with
  | error e => exact .inl ⟨e, rfl, rfl⟩
  | ok p => exact .inr ⟨p.1, p.1, p.2, rfl, rfl, rfl⟩

/-- Results that belong together go along. -/
theorem pure {a : α} {b : β} (h : R a b) : Alongside R (Pure.pure a) (Pure.pure b) :=
  fun n => .inr ⟨a, b, n, rfl, rfl, h⟩

/-- Two readers go along if their first parts do, and what follows them does for results that belong
    together. -/
theorem bind {f : α → Resolving γ} {g : β → Resolving δ} (h : Alongside R x y)
    (hmore : ∀ {a b}, R a b → Alongside S (f a) (g b)) : Alongside S (x >>= f) (y >>= g) := by
  intro n
  -- Either both stop with one error, or both go on from one numbering.
  rcases h n with ⟨e, hx, hy⟩ | ⟨a, b, n', hx, hy, hab⟩
  · refine .inl ⟨e, ?_, ?_⟩
    · show (x n >>= _) = _
      rw [hx]
      rfl
    · show (y n >>= _) = _
      rw [hy]
      rfl
  · have hfirst : (x >>= f) n = f a n' := by
      show (x n >>= _) = _
      rw [hx]
      rfl
    have hsecond : (y >>= g) n = g b n' := by
      show (y n >>= _) = _
      rw [hy]
      rfl
    rw [hfirst, hsecond]
    exact hmore hab n'

/-- Where results are settled by each other, either piece of work says what the other does. -/
theorem ok_iff (h : Alongside R x y) {a : α} {n n' : Numbering}
    (hunique : ∀ {a' b}, R a b → R a' b → a' = a) :
    x n = .ok (a, n') ↔ ∃ b, y n = .ok (b, n') ∧ R a b := by
  rcases h n with ⟨e, hx, hy⟩ | ⟨a', b, mid, hx, hy, hab⟩
  · rw [hx, hy]
    exact ⟨nofun, fun ⟨_, h, _⟩ => by cases h⟩
  · rw [hx, hy]
    constructor
    · intro h
      cases h
      exact ⟨b, rfl, hab⟩
    · rintro ⟨b', h, hab'⟩
      cases h
      rw [hunique hab' hab]

end Alongside

/-! ### Values -/

/-- The leaf of a value. -/
def leaf (scope : Scope) : WrittenLeaf → Resolving ValueLeaf
  | .operand o => do return .operand (← operand o)
  | .path written => do return .field (← (scope.rootField written : Except TemplateDefect _))

/-- The tokens of a value; brackets and operators stay what they are. -/
def token (scope : Scope) : ArithmeticToken WrittenLeaf → Resolving (ArithmeticToken ValueLeaf)
  | .leaf l => do return .leaf (← leaf scope l)
  | .operator operator => return .operator operator
  | .opening => return .opening
  | .closing => return .closing

open ArithmeticMeaning (DenotesLeft DenotesMore)

/-- **Folding follows the grammar**, by induction on the terms that are left. -/
theorem denotes_byPrecedence {ts us vs : List (ArithmeticToken ValueLeaf)}
    {sum : Option (ValueExpr × ArithmeticOperator)} {product : ValueExpr}
    {more : List (ArithmeticOperator × ValueExpr)} (hsum : ValueExpr.tree.DenotesLeft ts sum)
    (hproduct : ValueExpr.tree.Denotes .product us product) (hmore : ValueExpr.tree.DenotesMore vs more) :
    ValueExpr.tree.Denotes .sum (ts ++ (us ++ vs)) (byPrecedence sum product more) := by
  -- Where the pending product ends, it is added to the sum in front of it.
  have hclose : ∀ {us product}, ValueExpr.tree.Denotes .product us product →
      ∀ {ts sum}, ValueExpr.tree.DenotesLeft ts sum →
        ValueExpr.tree.Denotes .sum (ts ++ us) (closeSum product sum) := by
    intro us product hproduct ts sum hsum
    have hclosed := hsum.close hproduct
    cases sum <;> exact hclosed
  induction hmore generalizing ts us sum product with
  | nil =>
    rw [List.append_nil, byPrecedence]
    exact hclose hproduct hsum
  | @cons ws vs term more operator hterm _ ih =>
    rw [byPrecedence]
    -- An operator that binds goes into the product; any other closes the product first.
    split
    · rename_i hbinds
      have hfolded := ih hsum (.product hproduct hbinds hterm)
      rwa [List.append_assoc, List.cons_append] at hfolded
    · rename_i hbinds
      rw [Bool.not_eq_true] at hbinds
      have hfolded := ih (.some (hclose hproduct hsum) hbinds) (.oneTerm hterm)
      simpa only [List.append_assoc, List.cons_append, List.nil_append] using hfolded

mutual

/-- **A term is resolved leaf by leaf**, and what comes out is what its tokens denote. -/
theorem alongside_term : (w : WrittenValue) →
    Alongside (fun v ts => ValueExpr.tree.Denotes .term ts v) (value scope w)
      (w.termTokens.mapM (token scope))
  | .operand o => by
    rw [value, WrittenValue.termTokens]
    simp only [List.mapM_cons, List.mapM_nil, token, leaf, bind_assoc, pure_bind]
    refine (Alongside.refl _).bind fun h => ?_
    cases h
    exact .pure (ArithmeticMeaning.Denotes.leaf (ValueLeaf.operand _))
  | .path written => by
    rw [value, WrittenValue.termTokens]
    simp only [List.mapM_cons, List.mapM_nil, token, leaf, bind_assoc, pure_bind]
    refine (Alongside.refl _).bind fun h => ?_
    cases h
    exact .pure (ArithmeticMeaning.Denotes.leaf (ValueLeaf.field _))
  | .chain first more => by
    rw [value, WrittenValue.termTokens]
    simp only [List.mapM_cons, List.mapM_append, List.mapM_nil, token, bind_assoc, pure_bind]
    refine (alongside_term first).bind fun hfirst => (alongside_more more).bind fun hmore => .pure ?_
    exact .brackets (denotes_byPrecedence .none (.oneTerm hfirst) hmore)

/-- The links of a chain are read as their tokens are. -/
theorem alongside_more : (more : List (ArithmeticOperator × WrittenValue)) →
    Alongside (fun vs ts => ValueExpr.tree.DenotesMore ts vs) (valuesOf scope more)
      ((WrittenValue.moreTokens more).mapM (token scope))
  | [] => by
    rw [valuesOf, WrittenValue.moreTokens]
    exact .pure .nil
  | (operator, term) :: more => by
    rw [valuesOf, WrittenValue.moreTokens]
    simp only [List.mapM_cons, List.mapM_append, token, bind_assoc, pure_bind]
    refine (alongside_term term).bind fun hterm => (alongside_more more).bind fun hmore => .pure ?_
    exact .cons operator hterm hmore

end

/-- **A value is resolved leaf by leaf**, in written order, and what comes out is the tree of its
    tokens. -/
theorem alongside_value (w : WrittenValue) :
    Alongside (fun v ts => ValueExpr.tree.Denotes .sum ts v) (value scope w)
      (w.tokens.mapM (token scope)) := by
  cases w with
  | operand o | path written =>
    intro n
    refine (alongside_term _ n).imp id ?_
    rintro ⟨v, ts, n', hv, hts, h⟩
    exact ⟨v, ts, n', hv, hts, h.toSum⟩
  | chain first more =>
    rw [value, WrittenValue.tokens]
    simp only [List.mapM_append]
    refine (alongside_term first).bind fun hfirst => (alongside_more more).bind fun hmore => .pure ?_
    exact denotes_byPrecedence .none (.oneTerm hfirst) hmore

end Template

end EntityQuery
