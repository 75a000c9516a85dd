/-!
# Blank characters

The characters with the Unicode property White_Space, and the trimming of text at its ends.  The
table is complete for that property; zero-width characters such as U+200B do not have it.
-/

namespace ReplicaUpkeep.Text

/-- Code points with the property White_Space, as closed ranges. -/
def blankRanges : List (Nat × Nat) :=
  [(0x09, 0x0D), (0x20, 0x20), (0x85, 0x85), (0xA0, 0xA0), (0x1680, 0x1680), (0x2000, 0x200A),
    (0x2028, 0x2029), (0x202F, 0x202F), (0x205F, 0x205F), (0x3000, 0x3000)]

/-- Does the character have the property White_Space? -/
def isBlank (c : Char) : Bool :=
  blankRanges.any (fun r => r.1 ≤ c.toNat && c.toNat ≤ r.2)

/-- Drop the blanks in front. -/
def trimStart (cs : List Char) : List Char :=
  cs.dropWhile isBlank

/-- Drop the blanks at the end. -/
def trimEnd (cs : List Char) : List Char :=
  (cs.reverse.dropWhile isBlank).reverse

/-- Drop the blanks at both ends. -/
def trim (cs : List Char) : List Char :=
  trimEnd (trimStart cs)

end ReplicaUpkeep.Text
