import EntityQuery.Calendar.DateText
import EntityQuery.Number.RealReader
import EntityQuery.Number.Word
import EntityQuery.Settings.Setting
import EntityQuery.Text.Reader

namespace EntityQuery

/-!
# Scalars of TOML documents

Strings in four forms, integers to four bases, real numbers, truth values, and points in time,
which count as texts in one fixed form.
-/

namespace Toml

open Text
open Text.Reader

/-! ### Characters -/

/-- Characters that may stand nowhere. The tab is none of them. -/
def isControl (c : Char) : Bool := (c < ' ' && c != '\t') || c == '\x7f'

/-- A blank that stays on its line. -/
def isGap (c : Char) : Bool := c == ' ' || c == '\t'

/-- The blanks before the next thing of a line. -/
def gap : Reader Unit := do
  let _ ← run isGap

/-- The end of a line, as either convention writes it. -/
def lineEnd : Reader Unit := exactly ['\n'] <|> exactly ['\r', '\n']

/-- A comment, up to the end of its line. -/
def comment : Reader Unit := do
  let _ ← char (· == '#')
  let _ ← run (!isControl ·)

/-- Blanks, ends of lines and comments. -/
def padding : Reader Unit := do
  let _ ← many ((do let _ ← run1 isGap) <|> lineEnd <|> comment)

/-! ### Strings -/

/-- A digit in base sixteen, in either case. -/
def isHexDigit (c : Char) : Bool :=
  isAsciiDigit c || ('a' ≤ c && c ≤ 'f') || ('A' ≤ c && c ≤ 'F')

/-- The value of a digit to any base up to sixteen. -/
def baseDigit (c : Char) : Nat :=
  if isAsciiDigit c then digitValue c else c.toLower.toNat - 'a'.toNat + 10

/-- The number that digits stand for in a base. -/
def baseValue (base : Nat) (digits : List Char) : Nat :=
  digits.foldl (fun n c => base * n + baseDigit c) 0

/-- A character by `n` digits of its number. -/
def numbered (n : Nat) : Reader Char := do
  let digits ← upTo (char isHexDigit) n
  let code := baseValue 16 digits
  if digits.length = n ∧ code.isValidChar then return Char.ofNat code else failure

/-- What stands behind a backslash for one character. -/
def escape : Reader Char := do
  match ← char fun _ => true with
  | 'b' => return '\x08'
  | 't' => return '\t'
  | 'n' => return '\n'
  | 'f' => return '\x0c'
  | 'r' => return '\r'
  | 'e' => return '\x1b'
  | '"' => return '"'
  | '\\' => return '\\'
  | 'x' => numbered 2
  | 'u' => numbered 4
  | 'U' => numbered 8
  | _ => failure

/-- An escape with its backslash. -/
def escaped : Reader Char := do
  let _ ← char (· == '\\')
  escape

/-- A string on one line in which a backslash escapes. -/
def basic : Reader (List Char) := do
  let _ ← char (· == '"')
  let cs ← many (char (fun c => c != '"' && c != '\\' && !isControl c) <|> escaped)
  let _ ← char (· == '"')
  return cs

/-- A string on one line that stands for itself. -/
def literal : Reader (List Char) := do
  let _ ← char (· == '\'')
  let cs ← run fun c => c != '\'' && !isControl c
  let _ ← char (· == '\'')
  return cs

/-- The end of a string over several lines. One or two more quotes belong to the string. -/
def closing (quote : Char) : Reader (List Char) := do
  let quotes ← run1 (· == quote)
  if 3 ≤ quotes.length ∧ quotes.length ≤ 5 then return quotes.drop 3 else failure

/-- A string over several lines, made of pieces and of quotes that do not end it. The end of the
    line behind the opening quotes does not belong to it, every other one does as it is written. -/
def manyLines (quote : Char) (piece : Reader (List Char)) : Reader (List Char) := do
  exactly [quote, quote, quote]
  let _ ← optional lineEnd
  let few : Reader (List Char) := do
    let quotes ← run1 (· == quote)
    if quotes.length < 3 then return quotes else failure
  let newLine (mark : List Char) : Reader (List Char) := do
    exactly mark
    return mark
  let pieces ← many (few <|> newLine ['\n'] <|> newLine ['\r', '\n'] <|> piece)
  return pieces.flatten ++ (← closing quote)

/-- A backslash at the end of a line, which takes away all blanks up to the next piece. -/
def joinedLine : Reader (List Char) := do
  let _ ← char (· == '\\')
  gap
  lineEnd
  let _ ← many ((do let _ ← run1 isGap) <|> lineEnd)
  return []

/-- A basic string over several lines; a backslash at the end of one joins it to the next. -/
def longBasic : Reader (List Char) :=
  manyLines '"' (run1 (fun c => c != '"' && c != '\\' && !isControl c) <|> joinedLine
    <|> (do return [← escaped]))

/-- A literal string over several lines, without escapes. -/
def longLiteral : Reader (List Char) := manyLines '\'' (run1 fun c => c != '\'' && !isControl c)

/-- A string of any of the four kinds; those over several lines are tried first, since their opening quotes
    also open a string of the other kind. -/
def string : Reader String :=
  String.ofList <$> (longBasic <|> longLiteral <|> basic <|> literal)

/-! ### Numbers -/

/-- Digits, with single underscores between them. -/
def digits (accepts : Char → Bool) : Reader (List Char) := do
  let first ← char accepts
  let more ← many do
    let _ ← optional (char (· == '_'))
    char accepts
  return first :: more

/-- An integer to another base than ten. -/
def based (mark : Char) (base : Nat) (accepts : Char → Bool) : Reader Nat := do
  exactly ['0', mark]
  return baseValue base (← digits accepts)

/-- Digits before the point: there is no zero at their front. -/
def leading : Reader (List Char) := do
  let cs ← digits isAsciiDigit
  if cs.head? = some '0' ∧ 1 < cs.length then failure else return cs

/-- An integer that fits into 64 bits. -/
def integer : Reader Int64 := do
  let n : Int ← (do return (← based 'x' 16 isHexDigit : Nat))
    <|> (do return (← based 'o' 8 fun c => '0' ≤ c && c ≤ '7' : Nat))
    <|> (do return (← based 'b' 2 fun c => c == '0' || c == '1' : Nat))
    <|> do
      let negative ← RealReader.sign
      let n : Int := digitsValue (← leading)
      return if negative then -n else n
  (signedWord? n).getDM failure

/-- The digits behind a decimal point. -/
def pointed : Reader (List Char) := do
  let _ ← char (· == '.')
  digits isAsciiDigit

/-- The power of ten behind the letter e. -/
def exponent : Reader Int := do
  let _ ← char fun c => c == 'e' || c == 'E'
  let negative ← RealReader.sign
  let n : Int := digitsValue (← digits isAsciiDigit)
  return if negative then -n else n

/-- A real number has a point or an exponent, or is one of those with names. Without a name it has
    to be finite. -/
def real : Reader Binary64 := do
  let negative ← RealReader.sign
  (do exactly "inf".toList; return Binary64.infinity negative)
    <|> (do exactly "nan".toList; return Binary64.notANumber)
    <|> do
      let whole ← leading
      let (part, scale) ← (do
          let part ← pointed
          return (part, ← exponent <|> pure 0))
        <|> (do return ([], ← exponent))
      let x := Binary64.ofDecimal negative (digitsValue (whole ++ part)) (scale - part.length)
      if x.isFinite then return x else failure

/-- A boolean; only the words in lower case are one. -/
def boolean : Reader Bool :=
  (do exactly "true".toList; return true) <|> (do exactly "false".toList; return false)

/-! ### Points in time -/

/-- A number of exactly `n` digits within limits. -/
def within (n least greatest : Nat) : Reader Nat := do
  let cs ← upTo (char isAsciiDigit) n
  let value := digitsValue cs
  if cs.length = n ∧ least ≤ value ∧ value ≤ greatest then return value else failure

/-- A date that the calendar has. -/
def day : Reader String := do
  let year ← within 4 0 9999
  let _ ← char (· == '-')
  let month ← within 2 1 12
  let _ ← char (· == '-')
  let day ← within 2 1 31
  match Date.of? year month day with
  | some d => return d.text
  | none => failure

/-- A number below a hundred as it is written in a time. -/
def twoDigits (n : Nat) : String := String.ofList (Date.padded 2 n)

/-- The parts of a second: up to nine digits without the zeros at their end, but at least one. -/
def secondParts : Reader String := do
  let _ ← char (· == '.')
  let cs ← run1 isAsciiDigit
  let kept := ((cs.take 9).reverse.dropWhile (· == '0')).reverse
  return String.ofList ('.' :: if kept.isEmpty then ['0'] else kept)

/-- The seconds of a time, up to the leap second, with their decimals where there are any. -/
def seconds : Reader String := do
  let _ ← char (· == ':')
  let second ← within 2 0 60
  return ":" ++ twoDigits second ++ (← secondParts <|> pure "")

/-- Hours and minutes; seconds may be left out. -/
def timeOfDay : Reader String := do
  let hour ← within 2 0 23
  let _ ← char (· == ':')
  let minute ← within 2 0 59
  return s!"{twoDigits hour}:{twoDigits minute}" ++ (← seconds <|> pure "")

/-- The difference to universal time. -/
def offset : Reader String :=
  (do let _ ← char fun c => c == 'Z' || c == 'z'; return "Z") <|> do
    let c ← char fun c => c == '+' || c == '-'
    let hour ← within 2 0 23
    let _ ← char (· == ':')
    let minute ← within 2 0 59
    let mark := if c == '-' && (hour, minute) != (0, 0) then "-" else "+"
    return s!"{mark}{twoDigits hour}:{twoDigits minute}"

/-- A day, a time of day, or both with or without an offset. -/
def pointInTime : Reader String :=
  timeOfDay <|> do
    let d ← day
    let rest ← (do
        let _ ← char fun c => c == 'T' || c == 't' || c == ' '
        let time ← timeOfDay
        return "T" ++ time ++ (← offset <|> pure ""))
      <|> pure ""
    return d ++ rest

/-- A value that is neither a list nor a table. A number with decimals is tried before a whole one, which
    would stop at the point. -/
def scalar : Reader Setting :=
  Setting.text <$> string <|> Setting.text <$> pointInTime <|> Setting.real <$> real
    <|> Setting.integer <$> integer <|> Setting.boolean <$> boolean

end Toml

end EntityQuery
