import EntityQuery.Text.CodeRun

namespace EntityQuery.Text

/-!
# Blank characters

The characters with the property White_Space.
-/

/-- The runs of White_Space. -/
def blankRuns : List CodeRun :=
  [⟨0x9, 0xd, 1⟩, ⟨0x20, 0x20, 1⟩, ⟨0x85, 0x85, 1⟩, ⟨0xa0, 0xa0, 1⟩, ⟨0x1680, 0x1680, 1⟩,
   ⟨0x2000, 0x200a, 1⟩, ⟨0x2028, 0x2029, 1⟩, ⟨0x202f, 0x202f, 1⟩, ⟨0x205f, 0x205f, 1⟩,
   ⟨0x3000, 0x3000, 1⟩]

/-- A blank character separates words whatever the script. -/
def isBlank (c : Char) : Bool := CodeRun.anyContains blankRuns c

/-- A text with the blank characters in front of it taken away. -/
def trimStart (text : List Char) : List Char := text.dropWhile isBlank

end EntityQuery.Text
