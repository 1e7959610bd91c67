import EntityQuery.Text.Blank
import EntityQuery.Text.DecimalDigit

namespace EntityQuery.Text

/-!
# Readers

A reader takes something off the front of a text and leaves the rest, or refuses. Choice is
ordered: the second reader is asked only when the first refuses, and it starts where the first
did. Repetition takes as much as it can and never gives any of it back.
-/

/-- What a reader is: a value and the rest of the text, or a refusal. -/
abbrev Reader := StateT (List Char) Option

namespace Reader

variable {α β : Type}

/-- One character of a class. -/
def char (accepts : Char → Bool) : Reader Char
  | c :: rest => if accepts c then some (c, rest) else none
  | [] => none

/-- The longest run of characters of a class, which may be empty. -/
def run (accepts : Char → Bool) : Reader (List Char)
  | s => some (s.takeWhile accepts, s.dropWhile accepts)

/-- The longest run of characters of a class, of which there must be one. -/
def run1 (accepts : Char → Bool) : Reader (List Char) := do
  let c ← char accepts
  let cs ← run accepts
  return c :: cs

/-- Exactly the given characters. -/
def exactly : List Char → Reader Unit
  | [] => pure ()
  | c :: cs => do
    let _ ← char (· == c)
    exactly cs

/-- Succeeds, and takes nothing, where the next character is not of the class. -/
def notBefore (refuses : Char → Bool) : Reader Unit
  | s => if s.head?.any refuses then none else some ((), s)

/-- Succeeds at the end of the text only. -/
def atEnd : Reader Unit
  | [] => some ((), [])
  | _ :: _ => none

/-- As many as the reader takes one after the other, but no more than `n`. -/
def upTo (p : Reader α) : Nat → Reader (List α)
  | 0 => pure []
  | n + 1 => (do let a ← p; let as ← upTo p n; return a :: as) <|> pure []

/-- As many as the reader takes one after the other. A reader that takes something each time can
    succeed no more often than there are characters. -/
def many (p : Reader α) : Reader (List α)
  | s => upTo p s.length s

/-- One or more with a separator between them. -/
def separated (p : Reader α) (separator : Reader β) : Reader (List α) := do
  let a ← p
  let as ← many (do let _ ← separator; p)
  return a :: as

/-- The value of a reader that has to take the whole text. -/
def whole (p : Reader α) (s : List Char) : Option α :=
  match p s with
  | some (a, []) => some a
  | _ => none

end Reader

end EntityQuery.Text
