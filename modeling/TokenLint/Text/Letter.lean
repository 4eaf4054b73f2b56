import TokenLint.Text.Blank

/-!
# Case-insensitive words

Keywords of the program are ASCII. A text is compared with one after mapping every rune
whose lower-case (upper-case) form is an ASCII letter to that letter. Besides the ASCII
letters these are the dotted capital i and the kelvin sign (lower case), and the dotless
i and the long s (upper case). No other rune becomes ASCII, so leaving it alone does not
change the outcome of a comparison with an ASCII word.
-/

namespace TokenLint.Text

/-- The bytes of a rune whose lower-case form is an ASCII letter become that letter. -/
def lowerRune (r : Rune) : Text :=
  if 65 ≤ r.code && r.code ≤ 90 then [(r.code + 32).toUInt8]
  else if r.code == 0x130 then [105]
  else if r.code == 0x212A then [107]
  else r.bytes

/-- The bytes of a rune whose upper-case form is an ASCII letter become that letter. -/
def upperRune (r : Rune) : Text :=
  if 97 ≤ r.code && r.code ≤ 122 then [(r.code - 32).toUInt8]
  else if r.code == 0x131 then [73]
  else if r.code == 0x17F then [83]
  else r.bytes

/-- The text in lower case, as far as ASCII letters are concerned. -/
def lower (t : Text) : Text := (runes t).flatMap lowerRune

/-- The text in upper case, as far as ASCII letters are concerned. -/
def upper (t : Text) : Text := (runes t).flatMap upperRune

/-- The text in lower case and without white space at its ends: the form in which option
values are compared. -/
def word (t : Text) : Text := lower (trimBlank t)

/-- A rune in the form in which names of fields are compared. -/
def nameRune (r : Rune) : Text :=
  if 97 ≤ r.code && r.code ≤ 122 then [(r.code - 32).toUInt8]
  else if r.code == 0x17F then [83]
  else if r.code == 0x212A then [75]
  else r.bytes

/-- Does a key name the field `name`? Case does not matter; the long s and the kelvin sign
count as letters. -/
def keyMatches (name key : Text) : Bool :=
  (runes key).flatMap nameRune = (runes name).flatMap nameRune

end TokenLint.Text
