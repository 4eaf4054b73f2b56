import TokenLint.Path
import TokenLint.Table

/-!
# Disks

A disk is a value: directories and files by their absolute paths, and the directory a
relative path starts from. Every operation that can fail says what was attempted, on which
path, and why it failed.

A path is followed element by element, so `a/../b` needs the directory `a`, and a file
followed by a slash is an error.
-/

namespace TokenLint

/-- What is found at a path. -/
inductive Entry where
  | file (data : Text)
  | directory
  deriving DecidableEq, Inhabited

/-- Why an operation on a disk fails. -/
inductive DiskReason where
  | notExist | notDirectory | isDirectory
  deriving DecidableEq, Inhabited

namespace DiskReason

/-- The words for a reason. -/
def message : DiskReason → Text
  | .notExist => "no such file or directory"
  | .notDirectory => "not a directory"
  | .isDirectory => "is a directory"

end DiskReason

/-- A failed operation. -/
structure DiskError where
  /-- What was attempted. -/
  operation : Text
  /-- The path as it was given. -/
  path : Text
  reason : DiskReason
  deriving DecidableEq, Inhabited

namespace DiskError

/-- The words for a failed operation. -/
def message (e : DiskError) : Text := e.operation ++ " " ++ e.path ++ ": " ++ e.reason.message

end DiskError

/-- Directories and files. -/
structure Disk where
  /-- Everything but the root directory, by absolute clean path. -/
  entries : List (Text × Entry) := []
  /-- Where relative paths start. -/
  workDir : Text := [Path.slash]
  deriving DecidableEq, Inhabited

namespace Disk

/-- The entry at an absolute clean path. -/
def entry? (d : Disk) (path : Text) : Option Entry :=
  if path = [Path.slash] then some .directory else d.entries.lookup path

/-- The disk with an entry at an absolute clean path. -/
def set (d : Disk) (path : Text) (e : Entry) : Disk :=
  { d with entries := Table.assign d.entries path e }

/-- The elements to follow; a slash at the end asks for a directory. -/
def steps (p : Text) : List Text :=
  let parts := (Text.splitOn Path.slash p).filter (· ≠ [])
  if p.getLast? = some Path.slash then parts ++ [Text.ofString "."] else parts

/-- Follows elements from a directory. The last element may be missing if `fresh` is set. -/
def follow (d : Disk) (fresh : Bool) (here : Text) : List Text → Except DiskReason Text
  | [] => .ok here
  | e :: rest =>
    match d.entry? here with
    | none => .error .notExist
    | some (.file _) => .error .notDirectory
    | some .directory =>
      if e = "." then d.follow fresh here rest
      else if e = ".." then d.follow fresh (Path.dir here) rest
      else
        let there := Path.join [here, e]
        if (d.entry? there).isNone && !(fresh && rest.isEmpty) then .error .notExist
        else d.follow fresh there rest

/-- The absolute clean path a path leads to. -/
def locate (d : Disk) (fresh : Bool) (p : Text) : Except DiskReason Text :=
  if p = [] then .error .notExist
  else d.follow fresh (if Path.isAbsolute p then [Path.slash] else d.workDir) (steps p)

/-- What a path leads to. -/
def find (d : Disk) (p : Text) : Except DiskReason Entry :=
  match d.locate false p with
  | .error r => .error r
  | .ok path =>
    match d.entry? path with
    | some e => .ok e
    | none => .error .notExist

/-- Asks about a path. -/
def stat (d : Disk) (p : Text) : Except DiskError Entry := (d.find p).mapError (⟨"stat", p, ·⟩)

/-- Is there anything at a path? -/
def exists? (d : Disk) (p : Text) : Bool := (d.find p).isOk

/-- The data of a file. -/
def fetch (d : Disk) (p : Text) : Except DiskError Text :=
  match d.find p with
  | .error r => .error ⟨"open", p, r⟩
  | .ok .directory => .error ⟨"read", p, .isDirectory⟩
  | .ok (.file data) => .ok data

/-- Creates a file, or gives it other data. A path with a slash at its end stands for a
directory, whether there is one or not. -/
def store (d : Disk) (p data : Text) : Except DiskError Disk :=
  let trimmed := Text.trimEnd (· = Path.slash) p
  match d.locate true (if trimmed = [] then p else trimmed) with
  | .error r => .error ⟨"open", p, r⟩
  | .ok path =>
    if trimmed ≠ p || d.entry? path = some .directory then .error ⟨"open", p, .isDirectory⟩
    else .ok (d.set path (.file data))

/-- Creates the directories of an absolute path from the root on; `done` is the path that
exists already. -/
def makeDirsBelow (d : Disk) (done : Text) : List Text → Except DiskError Disk
  | [] => .ok d
  | e :: rest =>
    let there := Path.join [done, e]
    match d.entry? there with
    | some .directory => d.makeDirsBelow there rest
    | some (.file _) => .error ⟨"mkdir", there, .notDirectory⟩
    | none => (d.set there .directory).makeDirsBelow there rest

/-- Creates a directory, and those it is in, where they are missing. -/
def makeDirs (d : Disk) (p : Text) : Except DiskError Disk :=
  d.makeDirsBelow [Path.slash] (Path.cleanElements (Path.absolute d.workDir p))

/-- Gives a file data, after the directories it is in were created. A path with a slash at its
end stands for a directory. The disk stays as it is if that fails. -/
def put (d : Disk) (p data : Text) : Disk :=
  let isDir := p.getLast? = some Path.slash
  match d.makeDirs (if isDir then p else Path.dir p) with
  | .error _ => d
  | .ok d => if isDir then d else (d.store p data).toOption.getD d

/-- Everything below an absolute clean path, by absolute path. -/
def below (d : Disk) (path : Text) : List (Text × Entry) :=
  let start := if path = [Path.slash] then path else path ++ [Path.slash]
  d.entries.filter fun x => x.1.hasStart start

/-- The paths of all files at or below a path, in byte order. The path itself is kept as
it was given if it is a file. -/
def listFiles (d : Disk) (p : Text) : Except DiskError (List Text) :=
  match d.locate false p with
  | .error r => .error ⟨"lstat", p, r⟩
  | .ok path =>
    match d.entry? path with
    | none => .error ⟨"lstat", p, .notExist⟩
    | some (.file _) => .ok [p]
    | some .directory =>
      let skip := if path = [Path.slash] then 1 else path.length + 1
      let found := (d.below path).filterMap fun x =>
        match x.2 with
        | .file _ => some (Path.join [p, x.1.drop skip])
        | .directory => none
      .ok (found.mergeSort Text.le)

end Disk

end TokenLint
