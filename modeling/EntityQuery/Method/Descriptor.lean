import EntityQuery.Number.Whole
import EntityQuery.Query.Shape

namespace EntityQuery

/-!
# Method descriptors

The name of a method such as `findTop3ByUsernameOrderByAgeDesc` falls into a subject, modifiers, the
criteria behind `By` and the order behind `OrderBy`. Modifiers end at the first of these two words,
and criteria at the first `OrderBy`.
-/

/-- The parts of a method name, still as characters. -/
structure Descriptor where
  subject : Subject
  modifiers : List Char
  /-- Empty also where no criteria are given. -/
  criteria : List Char
  order : Option (List Char)
deriving DecidableEq, Repr

namespace Descriptor

/-- The words a descriptor can begin with. -/
def subjects : List (String × Subject) :=
  [("find", .find), ("read", .find), ("get", .find), ("query", .find), ("search", .find),
    ("stream", .find), ("count", .count), ("exists", .existence), ("delete", .delete),
    ("remove", .delete)]

/-- The subject and what follows it. -/
def splitSubject (s : List Char) : Option (Subject × List Char) :=
  subjects.findSome? fun (word, subject) =>
    (word.toList.isPrefixOf? s).map fun rest => (subject, rest)

/-- What stands before the first occurrence of a word, and what stands behind it if it occurs. -/
def splitAtWord (word : List Char) : List Char → List Char × Option (List Char)
  | [] => ([], none)
  | c :: s =>
    match word.isPrefixOf? (c :: s) with
    | some rest => ([], some rest)
    | none =>
      let (before, rest) := splitAtWord word s
      (c :: before, rest)

/-- Modifiers, criteria and order. -/
def splitParts : List Char → List Char × List Char × Option (List Char)
  | [] => ([], [], none)
  | c :: s =>
    match ['B', 'y'].isPrefixOf? (c :: s) with
    | some rest => ([], splitAtWord "OrderBy".toList rest)
    -- The first of both words ends the modifiers, and without `By` there are no criteria.
    | none =>
      match "OrderBy".toList.isPrefixOf? (c :: s) with
      | some order => ([], [], some order)
      | none =>
        let (modifiers, criteria, order) := splitParts s
        (c :: modifiers, criteria, order)

/-- The parts of a descriptor: it begins with a subject and stands on one line. -/
def parse? (text : String) : Option Descriptor := do
  let (subject, rest) ← splitSubject text.toList
  if rest.contains '\n' then none
  else
    let (modifiers, criteria, order) := splitParts rest
    return ⟨subject, modifiers, criteria, order⟩

/-! ### Modifiers -/

/-- The digits behind the first `Top` or `First` that occurs. -/
def limitDigits? : List Char → Option (List Char)
  | [] => none
  | c :: s =>
    match ("Top".toList.isPrefixOf? (c :: s)).or ("First".toList.isPrefixOf? (c :: s)) with
    | some rest => some (rest.takeWhile Text.isDecimalDigit)
    | none => limitDigits? s

/-- Whether `Distinct` occurs among the modifiers. -/
def isDistinct (d : Descriptor) : Bool :=
  (splitAtWord "Distinct".toList d.modifiers).2.isSome

end Descriptor

end EntityQuery
