import TokenLint.ClassMap.BuiltIn
import TokenLint.ClassMap.Cache
import TokenLint.Path.Height

/-!
# Settings files

A project keeps its settings in a TOML file. The one that governs a path is the nearest one
on the way from there up to the root.
-/

namespace TokenLint

/-- The settings of a project. -/
structure Config where
  /-- A mapping file; a relative path starts where the settings file is. -/
  classMapFile : Text := []
  /-- Is the built-in class map left out? -/
  noDefault : Bool := false
  /-- Are mapping files read every time? -/
  noCache : Bool := false
  format : Text := []
  paths : Text := []
  maxDiagnostics : Int := 0
  jobs : Int := 0
  /-- The file the settings come from; empty without one. -/
  path : Text := []
  deriving DecidableEq, Inhabited

/-- Why there are no settings. -/
inductive ConfigError where
  /-- The file cannot be read. -/
  | unreadable (path : Text) (e : DiskError)
  | malformed (path : Text)
  | unknownKeys (path : Text) (keys : List Toml.Key)
  /-- A number that must not be negative. -/
  | negative (path name : Text)
  /-- The search got stuck at a candidate. -/
  | stuck (candidate : Text) (e : DiskError)
  /-- There is no settings file. -/
  | notFound
  deriving DecidableEq, Inhabited

namespace Config

/-- The name of settings files. -/
def fileName : Text := "typo3update.toml"

/-- The settings of a project without a settings file. -/
def standard : Config := { format := "pretty", paths := "auto", maxDiagnostics := 500 }

end Config

namespace ConfigError

/-- The words for an error. -/
def message : ConfigError → Text
  | .unreadable path e => path ++ ": failed to parse TOML: " ++ e.message
  | .malformed path => path ++ ": failed to parse TOML: *"
  | .unknownKeys path keys =>
    path ++ ": unknown keys: " ++ Text.join ", " (keys.map Toml.renderKey)
  | .negative path name => path ++ ": " ++ name ++ " must not be negative"
  | .stuck candidate e => "failed to stat " ++ Text.quoted candidate ++ ": " ++ e.message
  | .notFound => "no " ++ Config.fileName ++ " found"

end ConfigError

namespace Config

/-! ## Reading -/

/-- A setting: its table and its name there, and what a value of it changes. A value of the
wrong kind is an error. -/
structure Setting where
  table : Text
  name : Text
  set? : Toml.Value → Config → Option Config

/-- A setting that is a text. -/
def textSetting (table name : Text) (set : Text → Config → Config) : Setting :=
  ⟨table, name, fun v c => match v with
    | .string t => some (set t c)
    | _ => none⟩

/-- A setting that is on or off. -/
def switchSetting (table name : Text) (set : Bool → Config → Config) : Setting :=
  ⟨table, name, fun v c => match v with
    | .boolean b => some (set b c)
    | _ => none⟩

/-- A setting that is a number. -/
def numberSetting (table name : Text) (set : Int → Config → Config) : Setting :=
  ⟨table, name, fun v c => match v with
    | .integer n => some (set n c)
    | _ => none⟩

/-- All settings. -/
def settings : List Setting :=
  [textSetting "classmap" "file" fun t c => { c with classMapFile := t },
   switchSetting "classmap" "no-default" fun b c => { c with noDefault := b },
   switchSetting "classmap" "no-cache" fun b c => { c with noCache := b },
   textSetting "report" "format" fun t c => { c with format := t },
   textSetting "report" "paths" fun t c => { c with paths := t },
   numberSetting "report" "max-diagnostics" fun n c => { c with maxDiagnostics := n },
   numberSetting "runner" "jobs" fun n c => { c with jobs := n }]

/-- Settings and the keys they were read from. -/
structure Draft where
  config : Config
  read : List Toml.Key := []

/-- Reads an entry of a table. Names are compared without regard to case. -/
def Draft.addEntry? (header : Text) (own : List Setting) (d : Draft) (e : Text × Toml.Value) :
    Option Draft :=
  match own.find? fun s => Text.keyMatches s.name e.1 with
  | none => some d
  | some s =>
    (s.set? e.2 d.config).map fun c => { config := c, read := d.read ++ [[header, e.1]] }

/-- Reads a table. -/
def Draft.addTable? (d : Draft) (e : Text × Toml.Value) : Option Draft :=
  match settings.filter fun s => Text.keyMatches s.table e.1 with
  | [] => some d
  | own =>
    match e.2 with
    | .table entries =>
      entries.foldlM (Draft.addEntry? e.1 own) { d with read := d.read ++ [[e.1]] }
    | _ => none

/-- Reads settings from the text of a settings file. What it does not say is as without a file. -/
def parse (path data : Text) : Except ConfigError Config :=
  match (Toml.parse data).bind fun doc =>
      (doc.root.foldlM Draft.addTable? ⟨standard, []⟩).map fun d => (doc, d) with
  | none => .error (.malformed path)
  | some (doc, d) =>
    let keys := doc.unread d.read
    if !keys.isEmpty then .error (.unknownKeys path keys)
    else if d.config.maxDiagnostics < 0 then .error (.negative path "[report].max-diagnostics")
    else if d.config.jobs < 0 then .error (.negative path "[runner].jobs")
    else .ok { d.config with path := path }

/-- Reads a settings file. -/
def load (d : Disk) (path : Text) : Except ConfigError Config :=
  match d.fetch path with
  | .error e => .error (.unreadable path e)
  | .ok data => parse path data

/-! ## Finding -/

/-- The directories that start at one and go up to the root, by their elements, the last
element first. -/
def upward : List Text → List (List Text)
  | [] => [[]]
  | e :: rest => (e :: rest) :: upward rest

/-- The settings files that may govern an absolute directory, the nearest first. -/
def candidates (dir : Text) : List Text :=
  (upward (Path.cleanElements dir).reverse).map fun es =>
    Path.join [Path.ofElements true es.reverse, fileName]

/-- The directory a search starts from: the path itself, or where the file is. -/
def startDir (stat : Text → Except DiskError Entry) (workDir start : Text) : Text :=
  let dir := Path.absolute workDir (if start = [] then "." else start)
  match stat dir with
  | .ok (.file _) => Path.dir dir
  | _ => dir

/-- The settings file of the first directory on the way up that there is something to say about:
it exists, or asking about it fails in another way than that it does not exist. The root is its
own directory, and the way ends there. -/
def searchFrom (stat : Text → Except DiskError Entry) (dir : Text) :
    Except ConfigError (Option Text) :=
  let candidate := Path.join [dir, fileName]
  match stat candidate with
  | .ok _ => .ok (some candidate)
  | .error e =>
    if e.reason ≠ .notExist then .error (.stuck candidate e)
    else if Path.dir dir = dir then .ok none
    else searchFrom stat (Path.dir dir)
termination_by Path.height dir
decreasing_by exact Path.height_dir_lt ‹_›

/-- Finds the settings file that governs a path, where `stat` tells what is there. -/
def findWith (stat : Text → Except DiskError Entry) (workDir start : Text) :
    Except ConfigError (Option Text) :=
  searchFrom stat (startDir stat workDir start)

/-- Finds the settings file that governs a path. -/
def find (d : Disk) (start : Text) : Except ConfigError (Option Text) :=
  findWith d.stat d.workDir start

/-- The settings that govern a path. -/
def discover (d : Disk) (start : Text) : Except ConfigError Config :=
  match find d start with
  | .error e => .error e
  | .ok none => .error .notFound
  | .ok (some path) => load d path

/-- The settings of an explicit file, or those that govern a path. -/
def choose (d : Disk) (explicit target : Text) : Except ConfigError Config :=
  if explicit ≠ [] then load d explicit
  else match discover d target with
    | .error .notFound => .ok standard
    | r => r

/-! ## The class map -/

/-- The path of the mapping file. -/
def classMapPath (c : Config) : Text :=
  let file := Text.trimBlank c.classMapFile
  if file = [] || Path.isAbsolute file || c.path = [] then file
  else Path.join [Path.dir c.path, file]

/-- What loading the class map of a project gives. -/
structure ClassMapResult where
  /-- The project's own map, and the whole one. -/
  result : Except MappingFileError (ClassMap × ClassMap)
  /-- Lines about a cache that does not work. -/
  warnings : Text := []
  disk : Disk

/-- The class map of a project: its own over the built-in one. -/
def loadClassMap (c : Config) (d : Disk) (cacheDir : Text) : ClassMapResult :=
  let base := if c.noDefault then {} else ClassMap.builtIn
  let path := c.classMapPath
  if path = [] then { result := .ok ({}, base), disk := d }
  else
    let (cache, warning, d) : Option ClassMapCache × Text × Disk :=
      if c.noCache then (none, [], d)
      else match ClassMapCache.openIn d cacheDir with
        | .ok (cache, d) => (some cache, [], d)
        | .error e => (none, "warning: classmap cache disabled: " ++ e.message ++ "\n", d)
    let loaded := ClassMapCache.load cache d path
    let complaint := match loaded.complaint with
      | some t => "warning: " ++ t ++ "\n"
      | none => []
    { result := loaded.result.map fun own => (own, base.merge own)
      warnings := warning ++ complaint, disk := loaded.disk }

end Config

end TokenLint
