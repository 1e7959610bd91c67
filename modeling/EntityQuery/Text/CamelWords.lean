import EntityQuery.Text.LetterCase

namespace EntityQuery.Text

/-!
# Camel-case words

Names such as `teamName` are sequences of words. A word is an upper-case letter with the lower-case
letters and digits after it, or a run of lower-case letters and digits; only ASCII counts, and any
other character belongs to no word. Splitting and joining, and the snake-case form used for columns,
are here.
-/

/-- A character that continues a word: a lower-case letter or a digit. -/
def continuesWord (c : Char) : Bool :=
  (decide ('a' ≤ c) && decide (c ≤ 'z')) || (decide ('0' ≤ c) && decide (c ≤ '9'))

/-- A character that always begins a word. -/
def beginsWord (c : Char) : Bool := decide ('A' ≤ c) && decide (c ≤ 'Z')

/-- The words of a text, each as long as it can be. The first word of the rest is continued to
    the left exactly when the rest begins with a character that continues a word. -/
def camelWords : List Char → List (List Char)
  | [] => []
  | c :: rest =>
    if beginsWord c || continuesWord c then
      match rest.head?.any continuesWord, camelWords rest with
      | true, word :: words => (c :: word) :: words
      | _, words => [c] :: words
    else camelWords rest

/-- The camel-case words of a text: `UsernameAndAge` has `Username`, `And` and `Age`. -/
def words (text : String) : List String := (camelWords text.toList).map String.ofList

/-- A text whose first character is in lower case. -/
def lowerFirst (text : String) : String :=
  match text.toList with
  | [] => ""
  | c :: rest => String.ofList (lowercase c ++ rest)

/-- Words joined to a name that begins in lower case: `Team` and `Name` give `teamName`. -/
def lowerCamel : List String → String
  | [] => ""
  | word :: words => lowerFirst word ++ String.join words

/-- An upper-case character inside a name becomes an underscore and its lower-case form. -/
def snakeChars : List Char → List Char :=
  List.flatMap fun c => if isUppercase c then '_' :: lowercase c else [c]

/-- The snake-case form of a name: `teamName` becomes `team_name`. No underscore stands before
    the first character. -/
def snakeCase (name : String) : String :=
  match name.toList with
  | [] => ""
  | c :: rest => String.ofList ((if isUppercase c then lowercase c else [c]) ++ snakeChars rest)

end EntityQuery.Text
