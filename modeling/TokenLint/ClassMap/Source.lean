import TokenLint.ClassMap.TomlFormat
import TokenLint.ClassMap.YamlFormat
import TokenLint.Disk
import TokenLint.Text.Quoted

/-!
# Mapping files

A class map is read from a YAML or a TOML text; the ending of the file's name says which.
What exactly is wrong with a malformed text is not told: a star stands for it.
-/

namespace TokenLint

/-- Why a text is no class map. -/
inductive MappingError where
  | malformedYaml
  | malformedToml
  /-- Other keys than those of the table. -/
  | unknownKeys (keys : List Toml.Key)
  | unsupportedFormat (ext : Text)
  | noClasses
  deriving DecidableEq, Inhabited

namespace MappingError

/-- The words for an error. -/
def message : MappingError → Text
  | .malformedYaml => "failed to parse YAML: *"
  | .malformedToml => "failed to parse TOML: *"
  | .unknownKeys keys => "unknown keys: [" ++ Text.join " " (keys.map Toml.renderKey) ++ "]"
  | .unsupportedFormat ext =>
    "unsupported mapping format " ++ Text.quoted ext ++ " (expected .yaml, .yml or .toml)"
  | .noClasses => "missing classes table"

end MappingError

/-- Why there is no class map in a file. -/
inductive MappingFileError where
  | disk (e : DiskError)
  | content (path : Text) (e : MappingError)
  deriving DecidableEq, Inhabited

namespace MappingFileError

/-- The words for an error. -/
def message : MappingFileError → Text
  | .disk e => e.message
  | .content path e => path ++ ": " ++ e.message

end MappingFileError

namespace ClassMap

/-- Readers of the two formats: the table of classes, if there is one, and for TOML the other keys
of the text. -/
structure Readers where
  yaml? : Text → Option (Option (List (Text × Text)))
  toml? : Text → Option (Option (List (Text × Text)) × List Toml.Key)

/-- Reads a class map from a text with the help of readers; the ending of the file's name says
which of them is asked. -/
def parseWith (readers : Readers) (data ext : Text) : Except MappingError ClassMap :=
  let kind := Text.lower ext
  let ofTable (pairs : Option (List (Text × Text))) : Except MappingError ClassMap :=
    match pairs with
    | some pairs => .ok (ofPairs pairs)
    | none => .error .noClasses
  if kind = ".yaml" || kind = ".yml" then
    match readers.yaml? data with
    | none => .error .malformedYaml
    | some pairs => ofTable pairs
  else if kind = ".toml" then
    match readers.toml? data with
    | none => .error .malformedToml
    | some (pairs, []) => ofTable pairs
    | some (_, keys) => .error (.unknownKeys keys)
  else .error (.unsupportedFormat ext)

/-- Reads a class map from a text, whose format is that of files with the given ending. -/
def parse (data ext : Text) : Except MappingError ClassMap := parseWith ⟨ofYaml?, ofToml?⟩ data ext

end ClassMap

namespace Disk

/-- Reads a class map from a file with the help of a reader of texts. -/
def readClassMapWith (parse : Text → Text → Except MappingError ClassMap) (d : Disk) (path : Text) :
    Except MappingFileError ClassMap :=
  match d.fetch path with
  | .error e => .error (.disk e)
  | .ok data => (parse data (Path.ext path)).mapError (.content path)

/-- Reads a class map from a file. -/
def readClassMap (d : Disk) (path : Text) : Except MappingFileError ClassMap :=
  d.readClassMapWith ClassMap.parse path

end Disk

end TokenLint
