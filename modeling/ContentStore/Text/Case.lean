/-!
# Letter case of the ASCII letters

Names and keywords are compared in any case of the ASCII letters; all other characters are compared
as they are.
-/

namespace ContentStore.Text

/-- A text with its ASCII letters in upper case. -/
def upperAscii (s : String) : String := String.ofList (s.toList.map Char.toUpper)

/-- Two texts that differ at most in the case of ASCII letters. -/
def sameLetters (a b : String) : Bool := a.toList.map Char.toUpper == b.toList.map Char.toUpper

end ContentStore.Text
