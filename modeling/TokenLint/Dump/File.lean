import TokenLint.Disk
import TokenLint.FileSet
import TokenLint.Dump.Codec

/-!
# Dump files

Reading and writing dumps on a disk. The format follows from the name of the file.
-/

namespace TokenLint

/-- Why a dump file cannot be read or written. -/
inductive DumpFileError where
  | disk (e : DiskError)
  /-- The file could be opened, but not read. -/
  | unreadable (path : Text) (format : DumpFormat) (e : DiskError)
  | dump (path : Text) (e : DumpError)
  /-- The path leads to a file that is no dump. -/
  | notDump (path : Text)
  deriving DecidableEq, Inhabited

namespace DumpFileError

/-- The words for an error. -/
def message : DumpFileError → Text
  | .disk e => e.message
  | .unreadable path .messagePack e => path ++ ": decode msgpack: " ++ e.message
  | .unreadable path _ e => path ++ ": " ++ e.message
  | .dump path e => path ++ ": " ++ e.message
  | .notDump path =>
    path ++ ": not a token dump (want *" ++ DumpFormat.jsonSuffix ++ " or *"
      ++ DumpFormat.messagePackSuffix ++ ")"

end DumpFileError

namespace Disk

/-- Reads a dump file. -/
def readDump (d : Disk) (path : Text) : Except DumpFileError Dump :=
  let format := DumpFormat.ofPath path
  if format = .unknown then .error (.dump path .unknownFormat)
  else match d.fetch path with
    | .error e => if e.operation = "read" then .error (.unreadable path format e) else .error (.disk e)
    | .ok data => (Dump.decode format data).mapError (.dump path)

/-- Writes a dump file: a complete new file takes the place of the old one. -/
def writeDump (d : Disk) (path : Text) (dump : Dump) : Except DumpFileError Disk :=
  match dump.encode (DumpFormat.ofPath path) with
  | .error e => .error (.dump path e)
  | .ok data => (d.store path data).mapError .disk

/-- The dump files at or below a path, in byte order. -/
def listDumps (d : Disk) (path : Text) : Except DiskError (List Text) :=
  (d.listFiles path).map (·.filter DumpFormat.isDump)

/-- The dumps a command works on: those of a directory, or a single one. Also the directory
their paths are shown relative to. -/
def targets (d : Disk) (target : Text) : Except DumpFileError (Text × List Text) :=
  match d.stat target with
  | .error e => .error (.disk e)
  | .ok .directory => ((d.listDumps target).map fun files => (target, files)).mapError .disk
  | .ok (.file _) =>
    if DumpFormat.isDump target then .ok (Path.dir target, [target]) else .error (.notDump target)

end Disk

namespace FileSet

/-- Adds the dump in a file. -/
def load (fs : FileSet) (disk : Disk) (path : Text) : Except DumpFileError FileSet :=
  (disk.readDump path).map fun dump => fs.add path dump.path dump.tokens {}

end FileSet

end TokenLint
