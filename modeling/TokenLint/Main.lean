import TokenLint.Command.Program

/-!
# The command

The outer layer of the program. It takes a picture of the part of the file system that the
words of the command line lead to, runs the program on it, and carries out what the program
did to it.
-/

namespace TokenLint.Shell

/-- A text as a string; what is no UTF-8 has no string. -/
def toString (t : Text) : String := (String.fromUTF8? ⟨t.toArray⟩).getD ""

/-- The data of a file. -/
def ofBytes (b : ByteArray) : Text := b.data.toList

/-- Adds what is at a path to a picture: a file, or a directory with all that is below it. Of a
path that leads nowhere the directory is added that it would be in. -/
def addPath (d : Disk) (path : Text) : IO Disk := do
  let p := (← IO.currentDir) / toString path
  if ← p.isDir then
    let mut d := (d.makeDirs path).toOption.getD d
    for q in ← p.walkDir do
      let name := Text.ofString q.toString
      if ← q.isDir then d := (d.makeDirs name).toOption.getD d
      else d := d.put name (ofBytes (← IO.FS.readBinFile q))
    return d
  else if ← p.pathExists then return d.put path (ofBytes (← IO.FS.readBinFile p))
  else
    let parent := Path.dir path
    if ← ((← IO.currentDir) / toString parent).isDir then return (d.makeDirs parent).toOption.getD d
    else return d

/-- Adds the settings files that may govern a path, and the mapping files they name. -/
def addSettings (d : Disk) (path : Text) : IO Disk := do
  let mut d := d
  for candidate in Config.candidates (Path.absolute d.workDir path) do
    if ← ((← IO.currentDir) / toString candidate).pathExists then d ← addPath d candidate
  return d

/-- Adds the mapping file that a settings file names. -/
def addMapping (d : Disk) (path : Text) : IO Disk := do
  match Config.load d path with
  | .error _ => return d
  | .ok c => if c.classMapPath = [] then return d else addPath d c.classMapPath

/-- The paths that a word of the command line may mention. -/
def pathsIn (word : Text) : List Text :=
  match Text.splitFirst 61 word with
  | some (_, value) => [word, value].filter (· ≠ [])
  | none => [word].filter (· ≠ [])

/-- The picture of the file system that the program works on. -/
def picture (words : List Text) (cacheDir : Text) : IO Disk := do
  let workDir := Text.ofString (← IO.currentDir).toString
  let start : Disk := { workDir := workDir }
  let mut d := (start.makeDirs workDir).toOption.getD start
  for path in words.flatMap pathsIn do
    d ← addPath d path
    d ← addSettings d path
  for (path, entry) in d.entries do
    if entry ≠ .directory && (Path.base path).hasSuffix ".toml" then d ← addMapping d path
  addPath d cacheDir

/-- Carries out the changes from one picture to another. -/
def carryOut (before after : Disk) : IO Unit := do
  for (path, entry) in after.entries do
    if before.entry? path ≠ some entry then
      match entry with
      | .directory => IO.FS.createDirAll (toString path)
      | .file data => IO.FS.writeBinFile (toString path) ⟨data.toArray⟩

/-- The value of a variable of the environment; empty if it is not set. -/
def environment (name : String) : IO Text := do
  return Text.ofString ((← IO.getEnv name).getD "")

end TokenLint.Shell

open TokenLint in
/-- Runs the program on the words of the command line. -/
def main (args : List String) : IO UInt32 := do
  let words := args.map Text.ofString
  let caches ← Shell.environment "XDG_CACHE_HOME"
  let cacheDir := ClassMapCache.standardDir caches (← Shell.environment "HOME")
  let disk ← Shell.picture words cacheDir
  let stdout ← IO.getStdout
  let ended := Command.run { disk := disk, cacheDir := cacheDir, terminal := ← stdout.isTty } words
  Shell.carryOut disk ended.disk
  stdout.write ⟨ended.out.toArray⟩
  stdout.flush
  (← IO.getStderr).write ⟨ended.err.toArray⟩
  return ended.exitCode.toUInt32
