import TokenLint.ClassMap.Source
import TokenLint.Digest
import TokenLint.Dump.MessagePackFormat
import TokenLint.Table

/-!
# The cache of class maps

Parsed mapping files are kept in a directory, each in an entry of its own that is named by
the digest of the file's data. An entry holds the version of its layout, the path the map
was read from, and the pairs. Entries of another version do not count. A program without a
cache reads mapping files every time.
-/

namespace TokenLint

/-- The directory of a cache. -/
structure ClassMapCache where
  dir : Text
  deriving DecidableEq, Inhabited

namespace ClassMapCache

/-- The version of the layout of entries. -/
def layoutVersion : UInt16 := 1

/-- The directory of the program's cache: in the directory for caches if there is one, else in
the home directory. -/
def standardDir (caches home : Text) : Text :=
  Path.join
    [if caches = [] then Path.join [home, Text.ofString ".cache"] else caches,
      Text.ofString "typo3update"]

/-- The directory of the entries. -/
def entryDir (c : ClassMapCache) : Text := Path.join [c.dir, Text.ofString "classmaps"]

/-- The path of the entry with a key. -/
def entryPath (c : ClassMapCache) (key : Text) : Text :=
  Path.join [c.dir, Text.ofString "classmaps", Text.hex key ++ ".mp"]

/-! ## Entries -/

/-- What an entry holds. -/
structure Payload where
  version : UInt16 := 0
  source : Text := []
  pairs : List (Text × Text) := []
  deriving DecidableEq, Inhabited

namespace Payload

/-- The entry of a class map. -/
def ofMap (source : Text) (m : ClassMap) : Payload := ⟨layoutVersion, source, m.pairs⟩

/-- The written form of an entry. -/
def encode (p : Payload) : Text :=
  Dump.packedMap
    [some (Dump.packedField "Schema" (MessagePack.writeUInt16 p.version)),
     some (Dump.packedField "Source" (MessagePack.writeText p.source)),
     some (Dump.packedField "Pairs" (MessagePack.writeHeader .map p.pairs.length
       ++ p.pairs.flatMap fun x => MessagePack.writeText x.1 ++ MessagePack.writeText x.2))]

/-- The version that a number gives; larger numbers wrap around. -/
def version? (v : MessagePack) : Option UInt16 := v.int?.map fun n => (n % 65536).toNat.toUInt16

/-- Reads pairs over earlier ones. The absent value forgets them. -/
def readPairs? (pairs : List (Text × Text)) : MessagePack → Option (List (Text × Text))
  | .nil => some []
  | .map entries =>
    entries.foldlM (fun ps e => do return Table.assign ps (← e.1.text?) (← e.2.text?)) pairs
  | _ => none

/-- Reads a field. Unknown ones are skipped. -/
def readField? (p : Payload) (e : MessagePack × MessagePack) : Option Payload :=
  e.1.text?.bind fun key =>
    if key = "Schema" then (version? e.2).map fun v => { p with version := v }
    else if key = "Source" then e.2.text?.map fun v => { p with source := v }
    else if key = "Pairs" then (readPairs? p.pairs e.2).map fun v => { p with pairs := v }
    else some p

/-- Reads an entry: a map with its fields, or an array with all of them in order. -/
def ofMessagePack? : MessagePack → Option Payload
  | .map entries => entries.foldlM readField? {}
  | .array [] | .nil => some {}
  | .array [version, source, pairs] => do
    return ⟨← version? version, ← source.text?, ← readPairs? [] pairs⟩
  | _ => none

/-- Reads the entry at the start of a text. -/
def decode? (t : Text) : Option Payload := (MessagePack.parse t).bind ofMessagePack?

end Payload

/-! ## Using a cache -/

/-- Opens the cache in a directory, which is created if it is missing. -/
def openIn (d : Disk) (dir : Text) : Except DiskError (ClassMapCache × Disk) :=
  (d.makeDirs dir).map fun d => (⟨dir⟩, d)

/-- Keeps a class map. -/
def put (c : ClassMapCache) (d : Disk) (key source : Text) (m : ClassMap) :
    Except DiskError Disk := do
  (← d.makeDirs c.entryDir).store (c.entryPath key) (Payload.ofMap source m).encode

/-- What a cache answers. -/
inductive Answer where
  | miss
  | hit (m : ClassMap)
  /-- The entry cannot be read. -/
  | broken
  deriving DecidableEq, Inhabited

/-- Looks for the class map with a key. -/
def get (c : ClassMapCache) (d : Disk) (key : Text) : Answer :=
  match d.fetch (c.entryPath key) with
  | .error e => if e.reason = .notExist then .miss else .broken
  | .ok data =>
    match Payload.decode? data with
    | none => .broken
    | some p => if p.version = layoutVersion then .hit (.ofPairs p.pairs) else .miss

/-- What loading a class map gives. -/
structure Loaded where
  result : Except MappingFileError ClassMap
  /-- Why the map could not be kept. -/
  complaint : Option Text := none
  disk : Disk

/-- The complaint that a map could not be kept. -/
def notKept (path : Text) (e : DiskError) : Text := "cache " ++ path ++ ": " ++ e.message

/-- Loads a class map, from the cache if it knows the data of the file. -/
def loadWith (digest : Text → Text) (parse : Text → Text → Except MappingError ClassMap)
    (c : ClassMapCache) (d : Disk) (path : Text) : Loaded :=
  match d.fetch path with
  | .error e => { result := .error (.disk e), disk := d }
  | .ok data =>
    let key := digest data
    match c.get d key with
    | .hit m => { result := .ok m, disk := d }
    | _ =>
      match parse data (Path.ext path) with
      | .error e => { result := .error (.content path e), disk := d }
      | .ok m =>
        match c.put d key path m with
        | .ok d => { result := .ok m, disk := d }
        | .error e => { result := .ok m, complaint := some (notKept path e), disk := d }

/-- Loads a class map with the help of a cache, if there is one. -/
def load (c : Option ClassMapCache) (d : Disk) (path : Text) : Loaded :=
  match c with
  | none => { result := d.readClassMap path, disk := d }
  | some c => c.loadWith Digest.sha256 ClassMap.parse d path

end ClassMapCache

end TokenLint
