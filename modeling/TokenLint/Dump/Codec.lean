import TokenLint.Dump.JsonFormat
import TokenLint.Dump.MessagePackFormat

/-!
# Reading and writing dumps

The two formats of dumps behind one pair of functions.
-/

namespace TokenLint.Dump

/-- Reads a dump in a format. -/
def decode (format : DumpFormat) (t : Text) : Except DumpError Dump :=
  match format with
  | .json => decodeJson t
  | .messagePack => decodeMessagePack t
  | .unknown => .error .unknownFormat

/-- Writes a dump in a format. -/
def encode (format : DumpFormat) (d : Dump) : Except DumpError Text :=
  match format with
  | .json => .ok d.encodeJson
  | .messagePack => .ok d.encodeMessagePack
  | .unknown => .error .unknownFormat

/-- Writes a dump that may be missing. -/
def encode? (format : DumpFormat) : Option Dump → Except DumpError Text
  | none => .error .noDump
  | some d => d.encode format

end TokenLint.Dump
