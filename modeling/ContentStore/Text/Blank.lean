/-!
# Blank characters

The characters with the Unicode property `White_Space`, and the trimming of a text at both ends.
-/

namespace ContentStore.Text

/-- Whether a closed range holds a code point. -/
def inRanges (ranges : List (Nat × Nat)) (n : Nat) : Bool :=
  ranges.any fun (low, high) => low ≤ n && n ≤ high

/-- The blank characters, as closed ranges of code points. -/
def blankRanges : List (Nat × Nat) :=
  [(0x09, 0x0D), (0x20, 0x20), (0x85, 0x85), (0xA0, 0xA0), (0x1680, 0x1680), (0x2000, 0x200A),
   (0x2028, 0x2029), (0x202F, 0x202F), (0x205F, 0x205F), (0x3000, 0x3000)]

/-- A blank character. -/
def isBlank (c : Char) : Bool := inRanges blankRanges c.toNat

example : (blankRanges.map fun (low, high) => high + 1 - low).sum = 25 := by decide

/-- A text without the blanks at its front and at its end. -/
def trim (cs : List Char) : List Char :=
  ((cs.dropWhile isBlank).reverse.dropWhile isBlank).reverse

example : trim ['\t', 'a', ' ', 'b', '\u3000'] = ['a', ' ', 'b'] := by decide

end ContentStore.Text
