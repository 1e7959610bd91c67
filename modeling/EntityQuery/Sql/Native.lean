import EntityQuery.Number.Word
import EntityQuery.Sql.Select
import EntityQuery.Text.DecimalDigit

namespace EntityQuery

/-!
# Statements given as text

Text is split at its placeholders, which become slots; a placeholder inside a quoted literal is part
of the text. A number behind a placeholder gives its position; without a usable number it takes the
next position of its own count.
-/

namespace Native

/-! ### Tokens -/

/-- A native text cut up: the placeholders with the digits they are written with, and the text between them.
    -/
inductive Token where
  | text (chars : List Char)
  | placeholder (digits : List Char)
deriving DecidableEq, Repr

/-- The text of a token. -/
def Token.chars : Token → List Char
  | .text chars => chars
  | .placeholder digits => '?' :: digits

/-- What is left behind the end of a quoted literal whose opening quote was read. A quote that is
    doubled belongs to the literal, unless the literal could not end otherwise. -/
def afterLiteral : List Char → Option (List Char)
  | [] => none
  | '\'' :: '\'' :: rest => (afterLiteral rest).or (some ('\'' :: rest))
  | '\'' :: rest => some rest
  | _ :: rest => afterLiteral rest

/-- What follows a quoted piece is shorter than the text, so cutting goes on to the end. -/
theorem length_afterLiteral {s rest : List Char} (h : afterLiteral s = some rest) :
    rest.length < s.length := by
  fun_induction afterLiteral s generalizing rest with
  | case1 => cases h
  -- Two quotes in a row stand for one, and the piece goes on behind them.
  | case2 s ih =>
    cases hs : afterLiteral s with
    | none => rw [hs] at h; cases h; simp
    | some r =>
      rw [hs] at h
      cases h
      have := ih hs
      simp; omega
  | case3 s _ => cases h; simp
  | case4 _ s _ _ ih => have := ih h; simp; omega

/-- The tokens of a text: quoted literals as a whole, placeholders, and single characters. -/
def tokens (s : List Char) : List Token :=
  match s with
  | [] => []
  | c :: rest =>
    if c = '?' then
      .placeholder (rest.takeWhile Text.isDecimalDigit) :: tokens (rest.dropWhile Text.isDecimalDigit)
    else if c = '\'' then
      match _h : afterLiteral rest with
      | some after => .text (c :: rest.take (rest.length - after.length)) :: tokens after
      | none => .text [c] :: tokens rest
    else .text [c] :: tokens rest
termination_by s.length
decreasing_by
  · have := (List.dropWhile_sublist Text.isDecimalDigit (l := rest)).length_le
    simp; omega
  · have := length_afterLiteral _h
    simp; omega
  · simp
  · simp

/-! ### Slots -/

/-- The index of a placeholder with a number: one less than the number, which must be in the range
    of indexes and not zero. -/
def numberedIndex? (digits : List Char) : Option Nat :=
  let n := Text.digitsValue digits
  if digits.all Text.isAsciiDigit && 0 < n && n < wordLimit then some (n - 1) else none

/-- The fragments of tokens, where `next` placeholders without a usable number came before. A
    placeholder always has text on both sides, if only the empty one. -/
def fragments (next : Nat) : List Token → List Fragment
  | [] => []
  | .text chars :: rest => .sql (String.ofList chars) :: fragments next rest
  | .placeholder digits :: rest =>
    match numberedIndex? digits with
    | some index => .slot ⟨index, none⟩ :: .sql "" :: fragments next rest
    | none => .slot ⟨next, none⟩ :: .sql "" :: fragments (next + 1) rest

/-- The statement of a text. -/
def statement (sql : String) : Statement :=
  .ofFragments (.sql "" :: fragments 0 (tokens sql.toList))

end Native

namespace NativeQuery

/-- Text is read as a table of its own, so that it can be counted, ordered and limited. -/
def content (q : NativeQuery) : Statement :=
  match q.shape with
  | .count => ((Statement.ofFragments [.sql "SELECT COUNT(*) FROM ("]).concat
      (Native.statement q.sql)).pushSql ")"
  | _ => ((Statement.ofFragments [.sql "SELECT * FROM ("]).concat
      (Native.statement q.sql)).pushSql ") AS native_q"

/-- Whether results of a target are made from the fields of an entity. -/
def needsEntity : Target → Bool
  | .entity | .opened _ => true
  | _ => false

/-- The statements of a query given as text. -/
def compile (q : NativeQuery) : Except CompileDefect Compiled :=
  if q.shape = .page ∧ q.countSql = none then .error .noCountSql
  else if needsEntity q.target && q.entity.isNone then .error .noResultEntity
  else .ok
    { content := q.content
      count := if q.shape = .page then q.countSql.map Native.statement else none
      plan := { target := q.target, entity := q.entity }
      limit := match q.shape with
        | .single => some 2
        | .existence => some 1
        | _ => none }

/-- The column that a directive orders by: that of a field of the declared entity, or else the path
    as it is written. -/
def orderColumn (entity : Option Entity) (path : Path) : Except CompileDefect String :=
  match entity with
  | some e =>
    if path.isNested then .ok path.text
    else
      match e.columnOf? path.leaf with
      | some column => .ok column
      | none => .error (.nativeOrder path)
  | none => .ok path.text

/-- One term of the order of a native query. The column stands in quotes, which is all that protects it. -/
def orderTerm (entity : Option Entity) (directive : SortDirective) : Except CompileDefect String := do
  return "\"" ++ (← orderColumn entity directive.path) ++ "\" " ++ directive.direction.sql

end NativeQuery

/-- The content of a statement given as text, ordered by its columns. -/
def Compiled.orderNative (c : Compiled) (order : SortOrder) : Except CompileDefect Statement :=
  if order.isEmpty then .ok c.content
  else do
    let terms ← order.mapM (NativeQuery.orderTerm c.plan.entity)
    return c.content.pushSql (" ORDER BY " ++ ", ".intercalate terms)

end EntityQuery
