import TokenLint.Text

/-!
# UTF-8

A text is read as a sequence of runes: a valid UTF-8 sequence is one rune, and a byte
that starts none is a rune of its own with the replacement character as its value. No
byte is lost: the bytes of the runes, in order, are the text.
-/

namespace TokenLint

/-- A scalar value together with the bytes it was read from. -/
structure Rune where
  /-- The scalar value; the replacement character for a stray byte. -/
  code : Nat
  /-- The bytes in the text. -/
  bytes : Text
  /-- Were the bytes a valid encoding? -/
  valid : Bool
  deriving DecidableEq, Inhabited

namespace Text

/-- The replacement character stands for a byte that is part of no scalar value. -/
def replacement : Nat := 0xFFFD

/-- Is `b` a continuation byte? -/
def isTail (b : UInt8) : Bool := 0x80 ≤ b && b ≤ 0xBF

/-- The low six bits of a continuation byte. -/
def tailBits (b : UInt8) : Nat := b.toNat - 0x80

/-- The scalar value whose encoding starts with `b`, and how many of the bytes after `b`
belong to it. -/
def scalar? (b : UInt8) (rest : Text) : Option (Nat × Nat) :=
  if b < 0x80 then some (b.toNat, 0)
  else if b < 0xC2 then none
  else if b < 0xE0 then
    match rest with
    | c :: _ => if isTail c then some ((b.toNat - 0xC0) * 64 + tailBits c, 1) else none
    | [] => none
  else if b < 0xF0 then
    match rest with
    | c :: d :: _ =>
      if isTail c && isTail d && (b != 0xE0 || 0xA0 ≤ c) && (b != 0xED || c ≤ 0x9F) then
        some ((b.toNat - 0xE0) * 4096 + tailBits c * 64 + tailBits d, 2)
      else none
    | _ => none
  else if b < 0xF5 then
    match rest with
    | c :: d :: e :: _ =>
      if isTail c && isTail d && isTail e && (b != 0xF0 || 0x90 ≤ c) && (b != 0xF4 || c ≤ 0x8F) then
        some ((b.toNat - 0xF0) * 262144 + tailBits c * 4096 + tailBits d * 64 + tailBits e, 3)
      else none
    | _ => none
  else none

/-- The runes of a text. -/
def runes : Text → List Rune
  | [] => []
  | b :: rest =>
    match scalar? b rest with
    | some (code, k) => ⟨code, b :: rest.take k, true⟩ :: runes (rest.drop k)
    | none => ⟨replacement, [b], false⟩ :: runes rest
termination_by t => t.length

/-- The bytes of runes, in order. -/
def ofRunes (rs : List Rune) : Text := rs.flatMap Rune.bytes

/-- Is the text valid UTF-8? -/
def isUtf8 (t : Text) : Bool := (runes t).all Rune.valid

/-- The number of runes. -/
def runeCount (t : Text) : Nat := (runes t).length

/-- The encoding of a scalar value; a value that is none is encoded as the replacement
character. -/
def encodeRune (code : Nat) : Text :=
  if code < 0x80 then [code.toUInt8]
  else if code < 0x800 then [(0xC0 + code / 64).toUInt8, (0x80 + code % 64).toUInt8]
  else if (0xD800 ≤ code && code ≤ 0xDFFF) || 0x110000 ≤ code then [0xEF, 0xBF, 0xBD]
  else if code < 0x10000 then
    [(0xE0 + code / 4096).toUInt8, (0x80 + code / 64 % 64).toUInt8, (0x80 + code % 64).toUInt8]
  else
    [(0xF0 + code / 262144).toUInt8, (0x80 + code / 4096 % 64).toUInt8,
      (0x80 + code / 64 % 64).toUInt8, (0x80 + code % 64).toUInt8]

/-- The text with every stray byte replaced by the encoded replacement character. -/
def toValid (t : Text) : Text :=
  (runes t).flatMap fun r => if r.valid then r.bytes else encodeRune replacement

end Text

end TokenLint
