import TokenLint.ClassMap
import TokenLint.Text.Letter
import TokenLint.Toml.Parser

/-!
# Class maps in TOML

The table `classes` maps names to names, and nothing else may stand in the document. The
case of its name does not matter.
-/

namespace TokenLint.ClassMap

open Toml (Value Key)

/-- What was read from a document. -/
structure TomlClasses where
  /-- The pairs, if there is a table. -/
  pairs : Option (List (Text × Text)) := none
  /-- The keys that were read. -/
  read : List Key := []
  deriving Inhabited

/-- A pair of a table; its value has to be a string. -/
def tomlPair? : Text × Value → Option (Text × Text)
  | (name, .string t) => some (name, t)
  | _ => none

/-- Reads an entry of the document. What is no table says nothing. -/
def TomlClasses.add? (c : TomlClasses) (e : Text × Value) : Option TomlClasses :=
  if !Text.keyMatches "classes" e.1 then some c
  else
    match e.2 with
    | .table entries =>
      (entries.mapM tomlPair?).map fun pairs =>
        { pairs := some (c.pairs.getD [] ++ pairs)
          read := c.read ++ [e.1] :: entries.map fun x => [e.1, x.1] }
    | _ => some { c with read := c.read ++ [[e.1]] }

/-- The pairs of a TOML text, if it has a table of classes, and the keys that were not expected;
nothing if the text is malformed. -/
def ofToml? (t : Text) : Option (Option (List (Text × Text)) × List Key) := do
  let doc ← Toml.parse t
  let c ← doc.root.foldlM TomlClasses.add? {}
  some (c.pairs, doc.unread c.read)

end TokenLint.ClassMap
