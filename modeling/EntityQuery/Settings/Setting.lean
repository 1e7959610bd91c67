import EntityQuery.Number.RealReader
import EntityQuery.Number.RealText
import EntityQuery.Number.Whole
import EntityQuery.Number.Word

namespace EntityQuery

/-!
# Settings as a tree

Settings from several sources form one tree of tables. A later source replaces what an earlier one
says, except that a table is added to a table entry by entry. Values keep the form in which they
were given until a number or a text is asked for.
-/

/-- A setting before it has been read as a value: what the files and the environment are turned into. -/
inductive Setting where
  | nothing
  | text (s : String)
  | integer (n : Int64)
  | real (x : Binary64)
  | boolean (b : Bool)
  | list (items : List Setting)
  | table (entries : List (String × Setting))
deriving Inhabited

namespace Setting

/-- The entries of a table; of anything else, none. -/
def entries : Setting → List (String × Setting)
  | .table entries => entries
  | _ => []

/-- The items of a list; of anything else, none. -/
def items : Setting → List Setting
  | .list items => items
  | _ => []

/-- What a table has under a name. -/
def get? (setting : Setting) (name : String) : Option Setting := setting.entries.lookup name

/-- The entries with one replaced or added. -/
def putEntry (entries : List (String × Setting)) (name : String) (setting : Setting) :
    List (String × Setting) :=
  if entries.any (·.1 == name) then
    entries.map fun entry => if entry.1 == name then (name, setting) else entry
  else entries ++ [(name, setting)]

mutual

/-- What is there, overlaid by what is given. -/
def overlay : Setting → Setting → Setting
  | .table given, present => .table (overlayEntries given present.entries)
  | given, _ => given

/-- The entries of a table with those of another laid over them, one at a time: a name that both have keeps
    its place and is laid over in its own turn. -/
def overlayEntries : List (String × Setting) → List (String × Setting) → List (String × Setting)
  | [], present => present
  | (name, given) :: more, present =>
    overlayEntries more
      (putEntry present name (given.overlay ((present.lookup name).getD .nothing)))

end

/-! ### Places in the tree -/

/-- A step down: to a named entry of a table or to a numbered item of a list. A negative number
    counts from the end of the list. -/
inductive Step where
  | entry (name : String)
  | item (index : Int)
deriving DecidableEq, Repr

/-- Characters of the names that can stand in a path. -/
def isNameChar (c : Char) : Bool := c.isAlphanum || c == '_' || c == '-'

open Text.Reader in
/-- A path: names with points between them, and item numbers in brackets, which are words with a
    sign and may have blanks around them. -/
def path : Text.Reader (List Step) := do
  let name : Text.Reader Step := do return .entry (String.ofList (← run1 isNameChar))
  let blanks : Text.Reader Unit := do
    let _ ← run fun c => c == ' ' || c == '\t'
  let item : Text.Reader Step := do
    blanks
    let sign ← optional (char (· == '-'))
    let digits ← run1 Text.isAsciiDigit
    blanks
    let _ ← char (· == ']')
    match signedWord? (if sign.isSome then -Text.digitsValue digits else Text.digitsValue digits) with
    | some index => return .item index.toInt
    | none => failure
  let first ← name
  let more ← many ((do let _ ← char (· == '.'); name) <|> (do let _ ← char (· == '['); item))
  return first :: more

/-- The items of a list that was made long enough for an index, at its end or, for a negative one,
    at its front, and the position that the index then means. -/
def extendTo (index : Int) (items : List Setting) : List Setting × Nat :=
  if 0 ≤ index then
    (items ++ List.replicate (index.toNat + 1 - items.length) .nothing, index.toNat)
  else
    let items := List.replicate (index.natAbs - items.length) .nothing ++ items
    (items, items.length - index.natAbs)

/-- Overlays what is at a place. Whatever stands in the way of a step becomes a table or a list. -/
def putAt : List Step → Setting → Setting → Setting
  | [], given, present => given.overlay present
  | .entry name :: steps, given, present =>
    .table (putEntry present.entries name
      (putAt steps given ((present.get? name).getD .nothing)))
  | .item index :: steps, given, present =>
    let (items, position) := extendTo index present.items
    .list (items.set position (putAt steps given (items.getD position .nothing)))

/-- A name that is no path is an entry of its own. -/
def put (tree : Setting) (name : String) (given : Setting) : Setting :=
  putAt ((path.whole name.toList).getD [.entry name]) given tree

/-! ### Conversions -/

/-- A text as a number: switches count as one and zero. -/
def switchOrNumber? (text : String) : Option Nat :=
  match String.ofList (text.toList.map Char.toLower) with
  | "true" | "on" | "yes" => some 1
  | "false" | "off" | "no" => some 0
  | lower => Whole.unsigned? lower.toList

/-- A real number as one of 64 bits without a sign: rounded, and held within its limits. -/
def clampReal (x : Binary64) : Nat :=
  match x.magnitude with
  | .notANumber => 0
  | .infinite => if x.isNegative then 0 else wordLimit - 1
  | .finite _ _ => min (wordLimit - 1) ((x.round?.getD 0).toNat)

/-- The number a setting stands for. -/
def toNat? : Setting → Option Nat
  | .text s => switchOrNumber? s
  | .integer n => if 0 ≤ n then some n.toInt.toNat else none
  | .real x => some (clampReal x)
  | .boolean b => some (if b then 1 else 0)
  | _ => none

/-- The text a setting stands for. -/
def toText? : Setting → Option String
  | .text s => some s
  | .integer n => some (toString n.toInt)
  | .real x => some (RealForm.plain.write x)
  | .boolean b => some (if b then "true" else "false")
  | _ => none

end Setting

end EntityQuery
