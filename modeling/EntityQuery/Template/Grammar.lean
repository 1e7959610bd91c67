import EntityQuery.Template.Syntax
import EntityQuery.Text.Reader

namespace EntityQuery

/-!
# Template grammar

Blanks may stand between any two tokens and never inside one. Keywords are read in upper and lower
case and are no names. Every choice is decided by the next token, so no reader has to go back over
more than one.
-/

namespace Grammar

open Text
open Text.Reader

/-! ### Tokens -/

/-- Space, tab and the ends of lines. -/
def isSpace (c : Char) : Bool := c == ' ' || c == '\t' || c == '\r' || c == '\n'

/-- The characters a name begins with. -/
def isNameStart (c : Char) : Bool := c.isAlpha || c == '_'

/-- The characters a name goes on with. -/
def isNameChar (c : Char) : Bool := isNameStart c || isAsciiDigit c

/-- A token with the blanks before it. -/
def token {α : Type} (p : Reader α) : Reader α := do
  let _ ← run isSpace
  p

/-- The words that are no names. -/
def keywords : List String :=
  ["select", "distinct", "new", "count", "from", "as", "join", "left", "outer", "inner", "fetch",
    "where", "and", "or", "not", "in", "is", "null", "like", "order", "by", "asc", "desc", "update",
    "set", "delete", "true", "false"]

/-- The characters of a word in any case. -/
def anyCase : List Char → Reader Unit
  | [] => pure ()
  | c :: cs => do
    let _ ← char (·.toLower == c)
    anyCase cs

/-- A keyword, which ends where no name could go on. -/
def keyword (word : String) : Reader Unit := token do
  anyCase word.toList
  notBefore isNameChar

/-- Whether a keyword is there. -/
def has (word : String) : Reader Bool := Option.isSome <$> optional (keyword word)

/-- A mark of the language, with the blanks behind it. -/
def symbol (text : String) : Reader Unit := token (exactly text.toList)

/-- A name: as many characters as belong to one, and not a keyword. -/
def bareName : Reader String := do
  let first ← char isNameStart
  let more ← run isNameChar
  let name := String.ofList (first :: more)
  if keywords.contains (name.map Char.toLower) then failure else return name

/-- A name, with the blanks behind it. -/
def name : Reader String := token bareName

/-- Names with dots between them and no blanks. -/
def dottedNames : Reader (List String) := do
  let first ← name
  let more ← many do
    exactly ['.']
    bareName
  return first :: more

/-- A dotted path; its first name is the base, which an alias may be. -/
def path : Reader WrittenPath := do
  let names ← dottedNames
  return ⟨names.headD "", names.tail⟩

/-! ### Operands -/

/-- The digits of a number. -/
def digits : Reader (List Char) := run1 isAsciiDigit

/-- Whether a minus sign is there. -/
def minus : Reader Bool := Option.isSome <$> optional (exactly ['-'])

/-- A number with decimals. -/
def real : Reader WrittenLiteral := token do
  let negative ← minus
  let whole ← digits
  exactly ['.']
  return .real negative whole (← digits)

/-- A whole number; its size is looked at when it is given a meaning. -/
def integer : Reader WrittenLiteral := token do
  let negative ← minus
  let ds ← digits
  return .integer (if negative then '-' :: ds else ds)

/-- One character of a text literal; a quote has to be doubled. -/
def literalChar : Reader Char :=
  (do exactly ['\'', '\'']; return '\'') <|> char (· != '\'')

/-- A text in quotes. -/
def textLiteral : Reader WrittenLiteral := token do
  exactly ['\'']
  let chars ← many literalChar
  exactly ['\'']
  return .text (String.ofList chars)

/-- A literal. A number with decimals is tried before a whole one, which would stop at the point. -/
def literal : Reader WrittenLiteral :=
  real <|> integer <|> textLiteral
    <|> (do keyword "true"; return .boolean true)
    <|> (do keyword "false"; return .boolean false)
    <|> (do keyword "null"; return .null)

/-- A parameter with a name. -/
def namedParameter : Reader WrittenOperand := token do
  exactly [':']
  return .named (← bareName)

/-- A parameter with a position. -/
def positionalParameter : Reader WrittenOperand := token do
  exactly ['?']
  return .positional (← digits)

/-- A parameter or a literal. -/
def operand : Reader WrittenOperand :=
  namedParameter <|> positionalParameter <|> WrittenOperand.literal <$> literal

/-! ### Conditions -/

/-- A comparison; the marks of two characters are tried first. -/
def comparator : Reader Operator :=
  (do symbol ">="; return .greaterThanEqual)
    <|> (do symbol "<="; return .lessThanEqual)
    <|> (do symbol "<>"; return .notEquals)
    <|> (do symbol "!="; return .notEquals)
    <|> (do symbol "="; return .equals)
    <|> (do symbol ">"; return .greaterThan)
    <|> (do symbol "<"; return .lessThan)

/-- Items with commas between them. -/
def commaSeparated {α : Type} (p : Reader α) : Reader (List α) := separated p (symbol ",")

/-- A test for absence, or for its contrary. -/
def nullTest : Reader WrittenTest := do
  keyword "is"
  let negated ← has "not"
  keyword "null"
  return if negated then .isNotNull else .isNull

/-- A list that is written out. -/
def literalList : Reader WrittenTest := do
  symbol "("
  let items ← commaSeparated literal
  symbol ")"
  return .oneOf items

/-- Membership, in a list that is written out or in one that is given with the call. -/
def inTest : Reader WrittenTest := do
  keyword "in"
  literalList <|> WrittenTest.compare .isIn <$> operand

/-- A match with a pattern. -/
def likeTest : Reader WrittenTest := do
  keyword "like"
  return .compare .like (← operand)

/-- A comparison with one operand. -/
def binaryTest : Reader WrittenTest := do
  let operator ← comparator
  return .compare operator (← operand)

/-- One comparison: a path and what is asked of it. -/
def comparison : Reader WrittenAtom := do
  let p ← path
  return .comparison p (← nullTest <|> inTest <|> likeTest <|> binaryTest)

/-- Alternatives of conjunctions of atoms. -/
def alternatives (atom : Reader WrittenAtom) : Reader WrittenCondition :=
  separated (separated atom (keyword "and")) (keyword "or")

/-- An atom with at most `depth` brackets around its comparisons. -/
def atom : Nat → Reader WrittenAtom
  | 0 => comparison
  | depth + 1 =>
    (do
      symbol "("
      let inner ← alternatives (atom depth)
      symbol ")"
      return .group inner)
    <|> comparison

/-- The condition of a statement. -/
def whereClause (depth : Nat) : Reader WrittenCondition := do
  keyword "where"
  alternatives (atom depth)

/-! ### Values -/

/-- A sign of arithmetic. -/
def arithmetic : Reader ArithmeticOperator :=
  (do symbol "+"; return .add)
    <|> (do symbol "-"; return .subtract)
    <|> (do symbol "*"; return .multiply)
    <|> (do symbol "/"; return .divide)

/-- Terms with operators between them. -/
def chainOf (term : Reader WrittenValue) : Reader WrittenValue := do
  let first ← term
  let more ← many do
    let operator ← arithmetic
    return (operator, ← term)
  return .chain first more

/-- A term without parentheses. A literal is tried before a path, so that the words for the truth values and
    for absence are no paths. -/
def plainTerm : Reader WrittenValue :=
  WrittenValue.operand <$> operand <|> WrittenValue.path <$> path

/-- A value with at most `depth` brackets around its terms. -/
def value : Nat → Reader WrittenValue
  | 0 => chainOf plainTerm
  | depth + 1 => chainOf (plainTerm <|> do
      symbol "("
      let inner ← value depth
      symbol ")"
      return inner)

/-! ### Statements -/

/-- A name that may be introduced by `as`. -/
def aliasName : Reader String := do
  let _ ← has "as"
  name

/-- One thing selected, with the name it is given. -/
def selectItem : Reader SelectItem := do
  let p ← path
  return ⟨p, ← optional aliasName⟩

/-- A selection into a type; the type's last name is what it is known by. -/
def constructItem : Reader SelectClause := do
  keyword "new"
  let names ← dottedNames
  symbol "("
  let items ← commaSeparated selectItem
  symbol ")"
  return .construct (names.getLastD "") items

/-- A count, with its argument. -/
def countItem : Reader SelectClause := do
  keyword "count"
  symbol "("
  let distinct ← has "distinct"
  let p ← path
  symbol ")"
  return .count distinct p

/-- What is selected. The words new and count are tried before a path. -/
def selectClause : Reader SelectClause :=
  constructItem <|> countItem <|> SelectClause.items <$> commaSeparated selectItem

/-- The kind of a join, where it is written. -/
def joinKind : Reader JoinKind :=
  (do
    keyword "left"
    let _ ← has "outer"
    return .left)
  <|> (do keyword "inner"; return .inner)

/-- One join; without a kind it is an inner one. -/
def joinClause : Reader WrittenJoin := do
  let kind ← optional joinKind
  keyword "join"
  let fetch ← has "fetch"
  let p ← path
  return ⟨kind.getD .inner, fetch, p, ← optional aliasName⟩

/-- A direction, where it is written. -/
def direction : Reader Direction :=
  (do keyword "asc"; return .ascending) <|> (do keyword "desc"; return .descending)

/-- One term of an order, ascending unless it says otherwise. -/
def orderItem : Reader WrittenOrder := do
  let p ← path
  return ⟨p, (← optional direction).getD .ascending⟩

/-- The order of a statement. -/
def orderClause : Reader (List WrittenOrder) := do
  keyword "order"
  keyword "by"
  commaSeparated orderItem

/-- A query, clause by clause in the one order they may stand in. -/
def selectStatement (depth : Nat) : Reader WrittenSelect := do
  keyword "select"
  let distinct ← has "distinct"
  let clause ← selectClause
  keyword "from"
  let entity ← name
  let knownAs ← aliasName
  let joins ← many joinClause
  let condition ← optional (whereClause depth)
  let order ← optional orderClause
  return ⟨distinct, clause, entity, knownAs, joins, condition, order.getD []⟩

/-- One assignment of an update. -/
def assignment (depth : Nat) : Reader (WrittenPath × WrittenValue) := do
  let p ← path
  symbol "="
  return (p, ← value depth)

/-- An update. -/
def updateStatement (depth : Nat) : Reader WrittenBulk := do
  keyword "update"
  let entity ← name
  let knownAs ← aliasName
  keyword "set"
  let assignments ← commaSeparated (assignment depth)
  return ⟨entity, knownAs, .update assignments, ← optional (whereClause depth)⟩

/-- A deletion. -/
def deleteStatement (depth : Nat) : Reader WrittenBulk := do
  keyword "delete"
  keyword "from"
  let entity ← name
  let knownAs ← aliasName
  return ⟨entity, knownAs, .delete, ← optional (whereClause depth)⟩

/-- A whole template: nothing but blanks may follow the statement. -/
def statement (depth : Nat) : Reader WrittenTemplate := do
  let template ←
    WrittenTemplate.select <$> selectStatement depth
      <|> WrittenTemplate.bulk <$> updateStatement depth
      <|> WrittenTemplate.bulk <$> deleteStatement depth
  token atEnd
  return template

/-- The template that a text holds; brackets cannot be nested deeper than there are opening ones. -/
def parse? (text : String) : Option WrittenTemplate :=
  let s := text.toList
  Reader.whole (statement (s.count '(')) s

end Grammar

end EntityQuery
