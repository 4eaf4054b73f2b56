/-!
# Byte texts

File contents, token contents and names are sequences of bytes that need not be valid
UTF-8, so a text is a list of bytes. String literals coerce to the bytes of their UTF-8
encoding. The order on texts is the lexicographic order of their bytes.

Main definitions:

* `Text.join`, `Text.splitOn`, `Text.splitFirst`: joining and cutting at separators;
* `Text.contains`, `Text.hasSuffix`, `Text.replaceAll`: searching;
* `Text.ofNat`, `Text.ofInt`, `Text.hex`, `Text.ofHex`: decimal and hexadecimal digits;
* `Text.padLeft`, `Text.padRight`: padding to a width.
-/

namespace TokenLint

/-- A text is its bytes. -/
abbrev Text := List UInt8

namespace Text

/-- The UTF-8 encoding of a string. -/
def ofString (s : String) : Text := s.toUTF8.data.toList

instance : Coe String Text := ⟨ofString⟩

/-- The byte of an ASCII character. -/
def byte (c : Char) : UInt8 := c.toNat.toUInt8

/-- The line feed. -/
def newline : UInt8 := 10

/-- The decimal digits of a natural number. -/
def ofNat (n : Nat) : Text := (Nat.toDigits 10 n).map byte

/-- Decimal digits after a minus sign where one is needed. -/
def ofInt : Int → Text
  | .ofNat n => ofNat n
  | .negSucc n => byte '-' :: ofNat (n + 1)

/-- The decimal digits of a 64-bit integer. -/
def ofInt64 (n : Int64) : Text := ofInt n.toInt

/-- A lower-case hexadecimal digit. -/
def hexDigit (n : Nat) : UInt8 := if n < 10 then (48 + n).toUInt8 else (87 + n).toUInt8

/-- An upper-case hexadecimal digit. -/
def hexDigitUpper (n : Nat) : UInt8 := if n < 10 then (48 + n).toUInt8 else (55 + n).toUInt8

/-- Two lower-case hexadecimal digits for every byte. -/
def hex (t : Text) : Text := t.flatMap fun b => [hexDigit (b.toNat / 16), hexDigit (b.toNat % 16)]

/-- The value of a hexadecimal digit. -/
def hexDigitValue (b : UInt8) : Nat :=
  if b ≤ 57 then b.toNat - 48 else if b ≤ 70 then b.toNat - 55 else b.toNat - 87

/-- The bytes that pairs of hexadecimal digits stand for. -/
def ofHex : Text → Text
  | a :: b :: rest => (hexDigitValue a * 16 + hexDigitValue b).toUInt8 :: ofHex rest
  | _ => []

/-- The last `width` hexadecimal digits of `n`, lower case, with leading zeros. -/
def hexFixed : Nat → Nat → Text
  | 0, _ => []
  | width + 1, n => hexFixed width (n / 16) ++ [hexDigit (n % 16)]

/-- Is `b` one of the ten decimal digits? -/
def isDigit (b : UInt8) : Bool := 48 ≤ b && b ≤ 57

/-- The value of a text of decimal digits, most significant first. -/
def digitsValue (t : Text) : Nat := t.foldl (fun n b => n * 10 + (b.toNat - 48)) 0

/-- The texts in order with `sep` between neighbours. -/
def join (sep : Text) : List Text → Text
  | [] => []
  | [t] => t
  | t :: ts => t ++ sep ++ join sep ts

/-- The pieces between the occurrences of the byte `sep`; never empty. -/
def splitOn (sep : UInt8) : Text → List Text
  | [] => [[]]
  | b :: rest =>
    if b = sep then [] :: splitOn sep rest
    else match splitOn sep rest with
      | piece :: pieces => (b :: piece) :: pieces
      | [] => [[b]]

/-- The part before the first byte `sep` and the part after it. -/
def splitFirst (sep : UInt8) : Text → Option (Text × Text)
  | [] => none
  | b :: rest =>
    if b = sep then some ([], rest)
    else (splitFirst sep rest).map fun (before, after) => (b :: before, after)

/-- Does `sub` occur in the text? -/
def contains (sub : Text) : Text → Bool
  | [] => sub.isEmpty
  | b :: rest => sub.isPrefixOf (b :: rest) || contains sub rest

/-- The text after its first `skip` bytes with `new` in the place of every `old`. -/
def replaceFrom (old new : Text) : Nat → Text → Text
  | _, [] => []
  | skip + 1, _ :: rest => replaceFrom old new skip rest
  | 0, b :: rest =>
    if old.isPrefixOf (b :: rest) then new ++ replaceFrom old new (old.length - 1) rest
    else b :: replaceFrom old new 0 rest

/-- The text with `new` in the place of every `old`, which is not empty. -/
def replaceAll (old new t : Text) : Text := replaceFrom old new 0 t

/-- Does the text end in `suffix`? -/
def hasSuffix (t suffix : Text) : Bool := suffix.isSuffixOf t

/-- Does the text begin with `start`? -/
def hasStart (t start : Text) : Bool := start.isPrefixOf t

/-- Cuts the bytes satisfying `p` from both ends. -/
def trimBoth (p : UInt8 → Bool) (t : Text) : Text :=
  ((t.dropWhile p).reverse.dropWhile p).reverse

/-- Cuts the bytes satisfying `p` from the end. -/
def trimEnd (p : UInt8 → Bool) (t : Text) : Text := (t.reverse.dropWhile p).reverse

/-- Blanks before the text up to `width` units, of which the text takes `taken`. -/
def padLeft (width taken : Nat) (t : Text) : Text := List.replicate (width - taken) 32 ++ t

/-- Blanks after the text up to `width` units, of which the text takes `taken`. -/
def padRight (width taken : Nat) (t : Text) : Text := t ++ List.replicate (width - taken) 32

/-- The text if a condition holds, and nothing otherwise. -/
def onlyIf (condition : Bool) (t : Text) : Text := if condition then t else []

/-- Is `a` at most `b` in byte order? -/
def le (a b : Text) : Bool := decide (a ≤ b)

end Text

end TokenLint
