import EntityQuery.Text.Unprintable

namespace EntityQuery.Text

/-!
# Quoted text

Text between double quotes as it stands in messages: quotes and backslashes are escaped, a few
control characters have short names, and what cannot be seen is written by its number.
-/

/-- A number in base sixteen with the digits `0` to `f` and no leading zero. -/
def hexadecimal (n : Nat) : List Char := Nat.toDigits 16 n

/-- One character of a quoted text. -/
def quotedChar (c : Char) : List Char :=
  match c with
  | '\x00' => ['\\', '0']
  | '\t' => ['\\', 't']
  | '\r' => ['\\', 'r']
  | '\n' => ['\\', 'n']
  | '"' => ['\\', '"']
  | '\\' => ['\\', '\\']
  | c => if isUnprintable c then '\\' :: 'u' :: '\x7b' :: (hexadecimal c.toNat ++ ['\x7d']) else [c]

/-- A text between double quotes with every character that would not read plainly escaped. -/
def quoted (text : String) : String :=
  String.ofList ('"' :: (text.toList.flatMap quotedChar ++ ['"']))

/-- Several quoted texts in brackets, separated by commas. -/
def quotedList (texts : List String) : String :=
  "[" ++ ", ".intercalate (texts.map quoted) ++ "]"

end EntityQuery.Text
