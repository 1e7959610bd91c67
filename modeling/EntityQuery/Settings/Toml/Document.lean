import EntityQuery.Settings.Toml.Scalar

namespace EntityQuery

/-!
# TOML documents

A document is a list of lines: a header opens a table or adds one to an array of tables, and an
entry is put into the table that was opened last. Nothing may be said twice: a table has one header
at most and none once a dotted name has added to it, dotted names add nothing to a table with a
header, and a table or an array that is written as a value is complete.
-/

namespace Toml

/-! ### Parts -/

/-- How a table came to be. -/
inductive Origin where
  /-- It has a header of its own. -/
  | header
  /-- It stands in the header of a table below it. -/
  | implied
  /-- A dotted name made it or added to it. -/
  | dotted
deriving DecidableEq, Repr

/-- What a name stands for while a document is being read. -/
inductive Part where
  | value (setting : Setting)
  | table (origin : Origin) (parts : List (String × Part))
  /-- An array of tables. Its last table is open. -/
  | tables (items : List (List (String × Part)))

/-- The parts of a table, in the order of the document. -/
abbrev Parts := List (String × Part)

namespace Part

mutual

/-- The setting that a part has become once the document has been read to its end. -/
def toSetting : Part → Setting
  | .value setting => setting
  | .table _ parts => .table (toEntries parts)
  | .tables items => .list (toTables items)

/-- Each part of a table under its name. -/
def toEntries : List (String × Part) → List (String × Setting)
  | [] => []
  | (name, part) :: parts => (name, part.toSetting) :: toEntries parts

/-- Each table of an array of tables. -/
def toTables : List (List (String × Part)) → List Setting
  | [] => []
  | parts :: items => .table (toEntries parts) :: toTables items

end

end Part

namespace Parts

/-- The parts with one replaced or added. -/
def put (parts : Parts) (name : String) (part : Part) : Parts :=
  if parts.any (·.1 == name) then
    parts.map fun entry => if entry.1 == name then (name, part) else entry
  else parts ++ [(name, part)]

/-- Puts a value under a dotted name that nothing stands for yet. The tables on the way have no
    header; in an array it is the last table that is entered, but it gets no value of its own. -/
def assign (setting : Setting) : List String → Parts → Option Parts
  | [], _ => none
  | [name], parts =>
    match parts.lookup name with
    | none => some (parts ++ [(name, .value setting)])
    | some _ => none
  | name :: more, parts =>
    match parts.lookup name with
    | none => do return parts ++ [(name, .table .dotted (← assign setting more []))]
    | some (.table .header _) => none
    | some (.table _ below) => do
      return parts.put name (.table .dotted (← assign setting more below))
    | some (.tables items) =>
      match items.getLast? with
      | some below => do
        if more.length = 1 then failure
        return parts.put name (.tables (items.dropLast ++ [← assign setting more below]))
      | none => none
    | some (.value _) => none

/-- Opens what is under a header. -/
def openWith (last : Option Part → Option Part) : List String → Parts → Option Parts
  | [], _ => none
  | [name], parts => do return parts.put name (← last (parts.lookup name))
  | name :: more, parts =>
    match parts.lookup name with
    | none => do return parts ++ [(name, .table .implied (← openWith last more []))]
    | some (.table origin below) => do
      return parts.put name (.table origin (← openWith last more below))
    | some (.tables items) =>
      match items.getLast? with
      | some below => do
        return parts.put name (.tables (items.dropLast ++ [← openWith last more below]))
      | none => none
    | some (.value _) => none

/-- A table gets its header. -/
def openTable : Option Part → Option Part
  | none => some (.table .header [])
  | some (.table .implied below) => some (.table .header below)
  | some _ => none

/-- An array gets one more table. -/
def addTable : Option Part → Option Part
  | none => some (.tables [[]])
  | some (.tables items) => some (.tables (items ++ [[]]))
  | some _ => none

/-- Puts a value into the table under a header. -/
def assignUnder (setting : Setting) (names : List String) : List String → Parts → Option Parts
  | [], parts => assign setting names parts
  | name :: more, parts =>
    match parts.lookup name with
    | some (.table origin below) => do
      return parts.put name (.table origin (← assignUnder setting names more below))
    | some (.tables items) =>
      match items.getLast? with
      | some below => do
        return parts.put name (.tables (items.dropLast ++ [← assignUnder setting names more below]))
      | none => none
    | _ => none

end Parts

/-! ### Grammar -/

open Text.Reader

/-- A reader of the document's characters. -/
abbrev Reader := Text.Reader

/-- The characters of a key without quotes. -/
def isBareChar (c : Char) : Bool := c.isAlphanum || c == '_' || c == '-'

/-- One part of a dotted key, with quotes or without. -/
def simpleKey : Reader String := String.ofList <$> (run1 isBareChar <|> basic <|> literal)

/-- How many names there may be with points between them, and how deep values may be nested. -/
def greatestDepth : Nat := 80

/-- Names with points between them. -/
def key : Reader (List String) := do
  let names ← separated simpleKey do
    gap
    let _ ← char (· == '.')
    gap
  if names.length ≤ greatestDepth then return names else failure

/-- A name and its value, with blanks around the sign between them. -/
def entry (blanks : Reader Unit) (value : Reader Setting) : Reader (List String × Setting) := do
  let names ← key
  blanks
  let _ ← char (· == '=')
  blanks
  return (names, ← value)

/-- Items in brackets with commas between them, over several lines if need be. A comma may follow
    the last item. -/
def bracketed {α : Type} (left right : Char) (item : Reader α) : Reader (List α) := do
  let _ ← char (· == left)
  padding
  let comma : Reader Unit := do
    padding
    let _ ← char (· == ',')
    padding
  let items ← separated item comma <|> pure []
  if !items.isEmpty then
    let _ ← optional comma
  padding
  let _ ← char (· == right)
  return items

/-- A list in square brackets. -/
def array (value : Reader Setting) : Reader Setting := Setting.list <$> bracketed '[' ']' value

/-- A table that is written as a value. -/
def inlineTable (value : Reader Setting) : Reader Setting := do
  let entries ← bracketed '\x7b' '\x7d' (entry padding value)
  match entries.foldlM (fun parts e => Parts.assign e.2 e.1 parts) [] with
  | some parts => return .table (Part.toEntries parts)
  | none => failure

/-- A value with at most `n` arrays and tables around its parts. -/
def value : Nat → Reader Setting
  | 0 => scalar
  | n + 1 => scalar <|> array (value n) <|> inlineTable (value n)

/-- What one line of a document says: it opens a table, adds one to an array of tables, or sets a key. -/
inductive Line where
  | table (names : List String)
  | tables (names : List String)
  | entry (names : List String) (setting : Setting)
  | blank

/-- A name in brackets. -/
def header (left right : List Char) : Reader (List String) := do
  exactly left
  gap
  let names ← key
  gap
  exactly right
  return names

/-- One line without its end. -/
def line : Reader Line := do
  gap
  let line ← Line.tables <$> header ['[', '['] [']', ']']
    <|> Line.table <$> header ['['] [']']
    <|> (fun e => Line.entry e.1 e.2) <$> entry gap (value greatestDepth)
    <|> pure .blank
  gap
  let _ ← optional comment
  return line

/-- The lines of a document. -/
def lines : Reader (List Line) := separated line lineEnd

/-! ### Reading -/

/-- One line after the other; the table that was opened last is known by its names. -/
def assemble : List Line → List String → Parts → Option Parts
  | [], _, parts => some parts
  | .table names :: more, _, parts => do
    assemble more names (← parts.openWith Parts.openTable names)
  | .tables names :: more, _, parts => do
    assemble more names (← parts.openWith Parts.addTable names)
  | .entry names setting :: more, table, parts => do
    assemble more table (← parts.assignUnder setting names table)
  | .blank :: more, table, parts => assemble more table parts

/-- The settings of a document, if it is well formed. A byte order mark may stand before it. -/
def parse? (text : List Char) : Option (List (String × Setting)) := do
  let text := if text.head? = some '\ufeff' then text.tail else text
  let lines ← lines.whole text
  return Part.toEntries (← assemble lines [] [])

end Toml

end EntityQuery
