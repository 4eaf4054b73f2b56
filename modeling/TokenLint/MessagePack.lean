import TokenLint.Text

/-!
# MessagePack

A binary format of self-describing values. Writing uses the shortest form of every integer
and length; reading accepts every form. A reader stops behind the value, so what follows
it does not matter.
-/

namespace TokenLint

/-- A MessagePack value. Texts and byte strings are not told apart. -/
inductive MessagePack where
  | nil
  | bool (b : Bool)
  /-- An integer of any width, signed or not. -/
  | int (n : Int)
  /-- A floating point number, as its bytes. -/
  | float (bytes : Text)
  | text (t : Text)
  | array (items : List MessagePack)
  | map (entries : List (MessagePack × MessagePack))
  /-- A value of an extension type. -/
  | extension (bytes : Text)
  deriving Inhabited

namespace MessagePack

/-- The last `width` bytes of a number, most significant first. -/
def bigEndian : Nat → Nat → Text
  | 0, _ => []
  | width + 1, n => bigEndian width (n / 256) ++ [(n % 256).toUInt8]

/-- The number whose bytes are given, most significant first. -/
def ofBigEndian (t : Text) : Nat := t.foldl (fun n b => n * 256 + b.toNat) 0

/-- An integer in its shortest form. -/
def writeInt (n : Int) : Text :=
  if 0 ≤ n then
    let n := n.toNat
    if n < 128 then [n.toUInt8]
    else if n < 0x100 then 0xCC :: bigEndian 1 n
    else if n < 0x10000 then 0xCD :: bigEndian 2 n
    else if n < 0x100000000 then 0xCE :: bigEndian 4 n
    else 0xCF :: bigEndian 8 n
  else if -32 ≤ n then bigEndian 1 (n + 0x100).toNat
  else if -0x80 ≤ n then 0xD0 :: bigEndian 1 (n + 0x100).toNat
  else if -0x8000 ≤ n then 0xD1 :: bigEndian 2 (n + 0x10000).toNat
  else if -0x80000000 ≤ n then 0xD2 :: bigEndian 4 (n + 0x100000000).toNat
  else 0xD3 :: bigEndian 8 (n + 0x10000000000000000).toNat

/-- A number of exactly 16 bits, in the form that says so. -/
def writeUInt16 (n : UInt16) : Text := 0xCD :: bigEndian 2 n.toNat

/-- The header of a text. -/
def writeTextHeader (n : Nat) : Text :=
  if n < 32 then [(0xA0 + n).toUInt8]
  else if n < 0x100 then 0xD9 :: bigEndian 1 n
  else if n < 0x10000 then 0xDA :: bigEndian 2 n
  else 0xDB :: bigEndian 4 n

/-- A text with its header. -/
def writeText (t : Text) : Text := writeTextHeader t.length ++ t

/-- The codes that a container of one sort starts with. -/
structure ContainerCodes where
  /-- The first of sixteen codes that are lengths as well. -/
  short : Nat
  /-- The code before a length of two bytes. -/
  medium : UInt8
  /-- The code before a length of four bytes. -/
  long : UInt8
  short_lt_medium : short + 16 ≤ medium.toNat
  medium_lt_long : medium < long

def ContainerCodes.array : ContainerCodes := ⟨0x90, 0xDC, 0xDD, by decide, by decide⟩

def ContainerCodes.map : ContainerCodes := ⟨0x80, 0xDE, 0xDF, by decide, by decide⟩

/-- The header of a container of `n` items or entries. -/
def writeHeader (c : ContainerCodes) (n : Nat) : Text :=
  if n < 16 then [(c.short + n).toUInt8]
  else if n < 0x10000 then c.medium :: bigEndian 2 n
  else c.long :: bigEndian 4 n

/-- The first `n` bytes and the rest; nothing if there are fewer. -/
def takeBytes (n : Nat) (t : Text) : Option (Text × Text) :=
  if (t.take n).length = n then some (t.take n, t.drop n) else none

/-- A number of `width` bytes. -/
def readNat (width : Nat) (t : Text) : Option (Nat × Text) :=
  (takeBytes width t).map fun (bytes, rest) => (ofBigEndian bytes, rest)

/-- A number of `width` bytes in two's complement. -/
def readSigned (width : Nat) (t : Text) : Option (MessagePack × Text) :=
  (readNat width t).map fun (n, rest) =>
    (.int (if n < Nat.pow 256 width / 2 then n else (n : Int) - Nat.pow 256 width), rest)

/-- A number of `width` bytes without sign. -/
def readUnsigned (width : Nat) (t : Text) : Option (MessagePack × Text) :=
  (readNat width t).map fun (n, rest) => (.int n, rest)

/-- A text whose length takes `width` bytes. -/
def readText (width : Nat) (t : Text) : Option (MessagePack × Text) := do
  let (n, t) ← readNat width t
  let (bytes, t) ← takeBytes n t
  return (.text bytes, t)

/-- An extension value of `n` bytes after its type. -/
def readExtension (n : Nat) (t : Text) : Option (MessagePack × Text) :=
  (takeBytes (n + 1) t).map fun (bytes, rest) => (.extension bytes, rest)

/-- Values that are no containers, by their first byte. -/
def readScalar (code : UInt8) (t : Text) : Option (MessagePack × Text) :=
  if code < 0x80 then some (.int code.toNat, t)
  else if 0xE0 ≤ code then some (.int ((code.toNat : Int) - 0x100), t)
  else if 0xA0 ≤ code && code < 0xC0 then
    (takeBytes (code.toNat - 0xA0) t).map fun (bytes, rest) => (.text bytes, rest)
  else match code with
    | 0xC0 => some (.nil, t)
    | 0xC2 => some (.bool false, t)
    | 0xC3 => some (.bool true, t)
    | 0xC4 | 0xD9 => readText 1 t
    | 0xC5 | 0xDA => readText 2 t
    | 0xC6 | 0xDB => readText 4 t
    | 0xC7 => (readNat 1 t).bind fun (n, t) => readExtension n t
    | 0xC8 => (readNat 2 t).bind fun (n, t) => readExtension n t
    | 0xC9 => (readNat 4 t).bind fun (n, t) => readExtension n t
    | 0xCA => (takeBytes 4 t).map fun (bytes, rest) => (.float bytes, rest)
    | 0xCB => (takeBytes 8 t).map fun (bytes, rest) => (.float bytes, rest)
    | 0xCC => readUnsigned 1 t
    | 0xCD => readUnsigned 2 t
    | 0xCE => readUnsigned 4 t
    | 0xCF => readUnsigned 8 t
    | 0xD0 => readSigned 1 t
    | 0xD1 => readSigned 2 t
    | 0xD2 => readSigned 4 t
    | 0xD3 => readSigned 8 t
    | 0xD4 => readExtension 1 t
    | 0xD5 => readExtension 2 t
    | 0xD6 => readExtension 4 t
    | 0xD7 => readExtension 8 t
    | 0xD8 => readExtension 16 t
    | _ => none

/-- The number of items or entries, if the first byte starts a container of this sort. -/
def readHeader? (c : ContainerCodes) (code : UInt8) (t : Text) : Option (Nat × Text) :=
  if c.short ≤ code.toNat && code.toNat < c.short + 16 then some (code.toNat - c.short, t)
  else if code = c.medium then readNat 2 t
  else if code = c.long then readNat 4 t
  else none

/-- Does a container start with this byte? -/
def isContainer (code : UInt8) : Bool :=
  (0x80 ≤ code && code < 0xA0) || (0xDC ≤ code && code < 0xE0)

mutual

/-- One value and the bytes behind it. -/
def readFrom : Nat → Text → Option (MessagePack × Text)
  | 0, _ | _, [] => none
  | fuel + 1, code :: t =>
    if !isContainer code then readScalar code t
    else match readHeader? .array code t with
      | some (n, t) => (readItems fuel n t).map fun (items, rest) => (.array items, rest)
      | none =>
        match readHeader? .map code t with
        | some (n, t) => (readEntries fuel n t).map fun (entries, rest) => (.map entries, rest)
        | none => none

/-- A number of values in a row. -/
def readItems : Nat → Nat → Text → Option (List MessagePack × Text)
  | _, 0, t => some ([], t)
  | 0, _, _ => none
  | fuel + 1, n + 1, t =>
    match readFrom fuel t with
    | none => none
    | some (v, t) => (readItems fuel n t).map fun (vs, rest) => (v :: vs, rest)

/-- A number of keys and values in a row. -/
def readEntries : Nat → Nat → Text → Option (List (MessagePack × MessagePack) × Text)
  | _, 0, t => some ([], t)
  | 0, _, _ => none
  | fuel + 1, n + 1, t =>
    match readFrom fuel t with
    | none => none
    | some (k, t) =>
      match readFrom fuel t with
      | none => none
      | some (v, t) => (readEntries fuel n t).map fun (es, rest) => ((k, v) :: es, rest)

end

/-- The value at the start of a text. Every value takes at least one byte and at most two
steps of nesting, so twice the length bounds the steps. -/
def parse (t : Text) : Option MessagePack := (readFrom (2 * t.length + 2) t).map (·.1)

/-- The text of a value; the absent value counts as the empty text. -/
def text? : MessagePack → Option Text
  | .text t => some t
  | .nil => some []
  | _ => none

/-- The integer of a value; the absent value counts as zero. -/
def int? : MessagePack → Option Int
  | .int n => some n
  | .nil => some 0
  | _ => none

end MessagePack

end TokenLint
