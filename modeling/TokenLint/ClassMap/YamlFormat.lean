import TokenLint.ClassMap
import TokenLint.Table
import TokenLint.Yaml.Resolve

/-!
# Class maps in YAML

The document is a mapping, and its entry `classes` is a mapping from names to names. Other
entries do not matter. Names are taken as they are written; a value that is null is an
empty name. The key `<<` merges other mappings in: what is there already stays.
-/

namespace TokenLint.ClassMap

open Yaml (Node)

/-- Is a key written twice in a mapping? -/
def sameKey : Node → Node → Bool
  | .scalar _ a _, .scalar _ b _ => a = b
  | .alias a _, .alias b _ => a = b
  | .sequence _, .sequence _ => true
  | .mapping _, .mapping _ => true
  | _, _ => false

/-- Are all keys of a mapping different? -/
def keysDiffer : List (Node × Node) → Bool
  | [] => true
  | (k, _) :: rest => !(rest.any fun e => sameKey k e.1) && keysDiffer rest

/-- Is this the key that merges? -/
def isMergeKey : Node → Bool
  | .scalar tag value plain =>
    value = "<<" &&
      ((plain && (tag = [] || tag = "!")) || Yaml.shortTag tag = Yaml.ScalarKind.merge.tag)
  | _ => false

/-- The entries of a mapping, or of the one an alias stands for. -/
def mappingOf? : Node → Option (List (Node × Node))
  | .mapping entries => some entries
  | .alias _ (some (.mapping entries)) => some entries
  | _ => none

/-- The mappings that a node merges in; nothing if one of them is none. -/
def mergedOf? (n : Node) : Option (List (List (Node × Node))) :=
  match n with
  | .sequence items => items.mapM mappingOf?
  | n => (mappingOf? n).map fun entries => [entries]

/-- The entries of a mapping followed by those merged in; nothing if a key is written twice in
one of the mappings, or something is merged in that is no mapping. -/
def merged? : Nat → List (Node × Node) → Option (List (Node × Node))
  | 0, _ => none
  | fuel + 1, entries =>
    if !keysDiffer entries then none
    else
      match entries.find? fun e => isMergeKey e.1 with
      | none => some []
      | some (_, n) => do
        let sources ← mergedOf? n
        let parts ← sources.mapM fun source => do
          let more ← merged? fuel source
          some (source.filter (fun e => !isMergeKey e.1) ++ more)
        some parts.flatten

/-- The text of a node that has to be a scalar; the inner nothing is the null value. -/
def nodeText? : Node → Option (Option Text)
  | .scalar tag value plain => Yaml.scalarText? tag value plain
  | .alias _ (some (.scalar tag value plain)) => Yaml.scalarText? tag value plain
  | _ => none

/-- Is a key a string by itself, and not a number, say, that is taken as one? -/
def isStringKey : Node → Bool
  | .scalar tag value plain => tag ≠ [] || !plain || Yaml.scalarKind value = .string
  | _ => true

/-- A table that is being read. -/
structure YamlTable where
  pairs : List (Text × Text) := []
  /-- The keys that may not be merged in any more. -/
  settled : List Text := []
  deriving Inhabited

namespace YamlTable

/-- Sets a value. -/
def set (t : YamlTable) (key value : Text) : YamlTable :=
  { t with pairs := Table.assign t.pairs key value }

/-- Adds an entry of the mapping itself. Entries with a null key do not count. -/
def addOwn? (t : YamlTable) (e : Node × Node) : Option YamlTable := do
  match ← nodeText? e.1 with
  | none => some t
  | some key =>
    let value ← nodeText? e.2
    let t := t.set key (value.getD [])
    some (if isStringKey e.1 then { t with settled := key :: t.settled } else t)

/-- Adds an entry that is merged in. -/
def addMerged? (t : YamlTable) (e : Node × Node) : Option YamlTable := do
  match ← nodeText? e.1 with
  | none => some t
  | some key =>
    if t.settled.contains key then some t
    else
      let known := t.pairs.any (·.1 = key)
      let t := { t with settled := key :: t.settled }
      match ← nodeText? e.2 with
      | some value => some (t.set key value)
      | none => some (if known then t else t.set key [])

end YamlTable

/-- The pairs of a mapping. -/
def yamlPairs? (fuel : Nat) (entries : List (Node × Node)) : Option (List (Text × Text)) := do
  let more ← merged? fuel entries
  let t ← (entries.filter fun e => !isMergeKey e.1).foldlM YamlTable.addOwn? {}
  let t ← more.foldlM YamlTable.addMerged? t
  some t.pairs

/-- The value of the first entry with a name. All keys have to be scalars. -/
def valueOf? (name : Text) : List (Node × Node) → Option (Option Node)
  | [] => some none
  | (k, v) :: rest => do
    let key ← nodeText? k
    let later ← valueOf? name rest
    some (if key = some name then some v else later)

/-- The pairs in a node for classes; the inner nothing means that there is no table. -/
def yamlClasses? (fuel : Nat) (n : Node) : Option (Option (List (Text × Text))) :=
  match mappingOf? n with
  | some entries => (yamlPairs? fuel entries).map some
  | none =>
    match nodeText? n with
    | some none => some none
    | _ => none

/-- The pairs of a YAML text; the inner nothing means that there is no table of classes, and the
outer one that the text is malformed. -/
def ofYaml? (t : Text) : Option (Option (List (Text × Text))) := do
  let fuel := t.length + 2
  match ← Yaml.parse t with
  | none => some none
  | some doc =>
    match doc with
    | .mapping entries =>
      let more ← merged? fuel entries
      let own := entries.filter fun e => !isMergeKey e.1
      match ← valueOf? "classes" (own ++ more) with
      | none => some none
      | some n => yamlClasses? fuel n
    | .scalar tag value plain =>
      match ← Yaml.scalarText? tag value plain with
      | none => some none
      | some _ => none
    | _ => none

end TokenLint.ClassMap
