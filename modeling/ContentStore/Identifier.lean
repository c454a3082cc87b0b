import ContentStore.Config
import ContentStore.Timestamp.Basic
/-!
# Identifiers

An identifier is a number in a fixed count of digits: the time and chance in base 32, chance in base
16 with the marks of its version, or chance in base 64.  Chance comes in as a natural number, of
which as many digits count as the identifier has room for.
-/

namespace ContentStore.Identifier

/-- The lowest `width` digits of a number in the base that the alphabet has letters for, the highest
one first. -/
def digits (alphabet : List Char) : Nat → Nat → List Char
  | 0, _ => []
  | width + 1, n =>
    digits alphabet width (n / alphabet.length) ++ (alphabet[n % alphabet.length]?).toList

/-- The letters of base 32, without `i`, `l`, `o` and `u`. -/
def base32 : List Char := "0123456789abcdefghjkmnpqrstvwxyz".toList

/-- The letters of base 16. -/
def base16 : List Char := "0123456789abcdef".toList

/-- The letters of base 64. -/
def base64 : List Char :=
  "_-0123456789abcdefghijklmnopqrstuvwxyzABCDEFGHIJKLMNOPQRSTUVWXYZ".toList

/-- How many times 48 bits tell apart. -/
def timeRoom : Nat := 281474976710656

/-- How many chances 80 bits tell apart. -/
def chanceRoom : Nat := 1208925819614629174706176

/-- The time in 48 bits and chance in 80, as 26 digits. -/
def ulid (now : Instant) (entropy : Nat) : List Char :=
  digits base32 26 ((now.milliseconds % timeRoom).toNat * chanceRoom + entropy % chanceRoom)

/-- Chance in 122 bits, with the version and the variant in their places. -/
def uuid (entropy : Nat) : List Char :=
  let low := digits base16 12 entropy
  let afterLow := entropy / Nat.pow 16 12
  let variant := digits (base16.drop 8 |>.take 4) 1 afterLow ++ digits base16 3 (afterLow / 4)
  let rest := afterLow / 4 / Nat.pow 16 3
  digits base16 8 (rest / Nat.pow 16 7) ++ '-' :: digits base16 4 (rest / Nat.pow 16 3) ++
    '-' :: '4' :: digits base16 3 rest ++ '-' :: variant ++ '-' :: low

/-- Chance as 21 letters. -/
def nanoid (entropy : Nat) : List Char := digits base64 21 entropy

/-- A new identifier of a strategy. -/
def make (strategy : IdStrategy) (now : Instant) (entropy : Nat) : String :=
  String.ofList (match strategy with
    | .ulid => ulid now entropy
    | .uuid => uuid entropy
    | .nanoid => nanoid entropy)

/-- The form of a universally unique identifier of version 4, with `x` for a digit and `v` for the
variant. -/
def uuidForm : List Char := "xxxxxxxx-xxxx-4xxx-vxxx-xxxxxxxxxxxx".toList

/-- A character in its place in a universally unique identifier. -/
def fitsForm (form c : Char) : Bool :=
  if form = 'x' then base16.contains c
  else if form = 'v' then (base16.drop 8 |>.take 4).contains c
  else form == c

/-- A text has the form of the identifiers of a strategy. -/
def isWellFormed (strategy : IdStrategy) (text : String) : Bool :=
  let cs := text.toList
  match strategy with
  | .ulid => cs.length == 26 && cs.all base32.contains
  | .uuid => cs.length == uuidForm.length && (uuidForm.zipWith fitsForm cs).all id
  | .nanoid => cs.length == 21 && cs.all base64.contains

example : isWellFormed .uuid (make .uuid ⟨0, 0⟩ 123456789) = true := by decide +kernel

end ContentStore.Identifier
