import TokenLint.Digest
import TokenLint.Path
import TokenLint.Token.Stream

/-!
# File sets

A file set numbers the token streams a run works on. Numbers are given in order and never
taken back; a path that is added again gets a new number, and the old stream stays
reachable by its old number. A place in a file set is a file number and a token index.
-/

namespace TokenLint

/-- A token of a file of a file set. -/
structure Pos where
  file : UInt32 := 0
  token : UInt32 := 0
  deriving DecidableEq, Inhabited

namespace Pos

/-- The written form of a place. -/
def render (p : Pos) : Text := Text.ofNat p.file.toNat ++ ":#" ++ Text.ofNat p.token.toNat

/-- Earlier file, or the same file and an earlier token. -/
def less (p q : Pos) : Bool := if p.file ≠ q.file then p.file < q.file else p.token < q.token

end Pos

/-- What is known about a file besides its tokens. -/
structure FileFlags where
  /-- The file is not on disk. -/
  isVirtual : Bool := false
  /-- Its tokens have been replaced. -/
  modified : Bool := false
  deriving DecidableEq, Inhabited

/-- The flags as a number: one for a virtual file, two for a modified one. -/
def FileFlags.bits (f : FileFlags) : Nat := f.isVirtual.toNat + 2 * f.modified.toNat

/-- A file of a file set. -/
structure SourceFile where
  id : UInt32 := 0
  /-- The clean path it was added under. -/
  path : Text := []
  /-- The path of the file its tokens were taken from; empty when unknown. -/
  origin : Text := []
  tokens : Stream := []
  /-- The digest of the source. -/
  hash : Text := []
  flags : FileFlags := {}
  deriving DecidableEq, Inhabited

/-- A line and a column, from 1 on; 0 when unknown. -/
structure LineColumn where
  line : UInt32 := 0
  column : UInt32 := 0
  deriving DecidableEq, Inhabited

/-- How paths are shown. -/
inductive PathStyle where
  /-- Long absolute paths by their last element, others as they are. -/
  | auto
  | absolute
  | relative
  | basename
  /-- As they are. -/
  | verbatim
  deriving DecidableEq, Inhabited

/-- The style with a name; any other word asks for paths as they are. -/
def PathStyle.named (t : Text) : PathStyle :=
  if t = "auto" then .auto
  else if t = "absolute" then .absolute
  else if t = "relative" then .relative
  else if t = "basename" then .basename
  else .verbatim

/-- Files in the order of their numbers. -/
structure FileSet where
  files : Array SourceFile := #[]
  /-- The numbers by path; of the entries of one path the first counts. -/
  index : List (Text × UInt32) := []
  /-- The directory paths are shown relative to; empty for the working directory. -/
  baseDir : Text := []
  /-- The working directory of the run. -/
  workDir : Text := [Path.slash]
  deriving DecidableEq, Inhabited

namespace SourceFile

/-- The path shown for a file: that of its origin if it is known. -/
def shownPath (f : SourceFile) : Text := if f.origin = [] then f.path else f.origin

/-- The path of a file in a style; `base` is the directory for relative paths. -/
def formatPath (f : SourceFile) (workDir : Text) (style : PathStyle) (base : Text) : Text :=
  let p := f.shownPath
  match style with
  | .absolute => Path.absolute workDir p
  | .relative =>
    match Path.relative p (if base = [] then workDir else base) with
    | .ok r => r
    | .error _ => p
  | .basename => Path.base p
  | .auto => if p.length < 40 || !Path.isAbsolute p then p else Path.base p
  | .verbatim => p

end SourceFile

namespace FileSet

/-- The number of files. -/
def size (fs : FileSet) : Nat := fs.files.size

/-- The numbers of all files. -/
def ids (fs : FileSet) : List UInt32 := (List.range fs.size).map (·.toUInt32)

/-- The directory paths are shown relative to. -/
def base (fs : FileSet) : Text := if fs.baseDir = [] then fs.workDir else fs.baseDir

/-- The number the next file gets. -/
def nextId (fs : FileSet) : UInt32 := fs.files.size.toUInt32

/-- Adds a file under a path. -/
def add (fs : FileSet) (path origin : Text) (tokens : Stream) (flags : FileFlags) : FileSet :=
  { fs with
    files := fs.files.push
      { id := fs.nextId, path := Path.clean path, origin := origin, tokens := tokens
        hash := Digest.sha256 tokens.source, flags := flags }
    index := (Path.clean path, fs.nextId) :: fs.index }

/-- Adds a file that is not on disk. -/
def addVirtual (fs : FileSet) (name : Text) (tokens : Stream) : FileSet :=
  fs.add name [] tokens { isVirtual := true }

/-- The file with a number. -/
def get? (fs : FileSet) (id : UInt32) : Option SourceFile := fs.files[id.toNat]?

/-- The file last added under a path. -/
def getByPath? (fs : FileSet) (path : Text) : Option SourceFile :=
  (fs.index.lookup (Path.clean path)).bind fs.get?

/-- Gives a file other tokens; nothing happens for an unknown number. -/
def replace (fs : FileSet) (id : UInt32) (tokens : Stream) : FileSet :=
  { fs with
    files := fs.files.modify id.toNat fun f =>
      { f with
        tokens := tokens
        hash := Digest.sha256 tokens.source
        flags := { f.flags with modified := true } } }

/-- A line or column as it is shown; nothing if it does not fit 32 bits. -/
def shownNumber? (n : Int64) : Option UInt32 :=
  if 0 ≤ n.toInt && n.toInt < 4294967296 then some n.toInt.toNat.toUInt32 else none

/-- The line and column of a place; unknown if there is no such token, or if one of the
numbers cannot be shown. -/
def resolve (fs : FileSet) (pos : Pos) : LineColumn :=
  match (fs.get? pos.file).bind fun f => f.tokens[pos.token.toNat]? with
  | none => {}
  | some t =>
    match shownNumber? t.line, shownNumber? t.column with
    | some l, some c => ⟨l, c⟩
    | _, _ => {}

/-- The path of a file in a style; empty for an unknown file. -/
def pathOf (fs : FileSet) (id : UInt32) (style : PathStyle) : Text :=
  match fs.get? id with
  | none => []
  | some f => f.formatPath fs.workDir style fs.base

end FileSet

end TokenLint
