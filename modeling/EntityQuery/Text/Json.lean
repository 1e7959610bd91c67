import EntityQuery.Text.Quoted

namespace EntityQuery.Text

/-!
# Written documents

A document of the JSON format in memory and its text without any white space. Numbers are held as
they are to be written.
-/

/-- A JSON value. A number is kept as its digits, which is how it is printed. -/
inductive Json where
  | null
  | boolean (b : Bool)
  | number (digits : String)
  | string (text : String)
  | array (items : List Json)
  | object (entries : List (String × Json))
deriving Inhabited

namespace Json

/-- One character inside a JSON string: only quotes, backslashes and control characters are
    escaped. -/
def escapedChar (c : Char) : List Char :=
  match c with
  | '"' => ['\\', '"']
  | '\\' => ['\\', '\\']
  | '\x08' => ['\\', 'b']
  | '\x0c' => ['\\', 'f']
  | '\n' => ['\\', 'n']
  | '\r' => ['\\', 'r']
  | '\t' => ['\\', 't']
  | c =>
    if c.toNat < 0x10 then ['\\', 'u', '0', '0', '0'] ++ hexadecimal c.toNat
    else if c.toNat < 0x20 then ['\\', 'u', '0', '0'] ++ hexadecimal c.toNat
    else [c]

/-- A text as a JSON string. -/
def quotedString (text : String) : String :=
  String.ofList ('"' :: (text.toList.flatMap escapedChar ++ ['"']))

mutual

/-- The text of a document. -/
def render : Json → String
  | .null => "null"
  | .boolean b => if b then "true" else "false"
  | .number digits => digits
  | .string text => quotedString text
  | .array items => "[" ++ ",".intercalate (renderItems items) ++ "]"
  | .object entries => "\x7b" ++ ",".intercalate (renderEntries entries) ++ "\x7d"

/-- The texts of the items of an array. -/
def renderItems : List Json → List String
  | [] => []
  | item :: items => render item :: renderItems items

/-- The texts of the entries of an object: its keys stand in the order given. -/
def renderEntries : List (String × Json) → List String
  | [] => []
  | (key, item) :: entries => (quotedString key ++ ":" ++ render item) :: renderEntries entries

end

/-- A natural number in full. -/
def nat (n : Nat) : Json := .number (toString n)

/-- A pair as an array of two. -/
def pair (name : String) (item : Json) : Json := .array [.string name, item]

end Json

end EntityQuery.Text
