import TokenLint.Dump.File
import TokenLint.Progress
import TokenLint.Run.File

/-!
# Running rules over many files

The files of a list are loaded one after the other. Then each has a worker, of which a
limited number are busy at a time. A worker looks whether the run has been cancelled, and
if not it shows the tokens of its file to the rules, looking again before each of them.

Workers take turns in an order that nobody controls. So a run has a schedule: a list of
workers, each of which takes the next step when it comes up. A step of a worker that cannot
go on changes nothing but the time. Time is counted in steps, and a run may be cancelled at
any time.

Main definitions: `Pool.step`, `Pool.run`, and `processFiles`, which runs the workers one
after the other.
-/

namespace TokenLint.Run

/-- The news about a file, with the reason why it could not be loaded. -/
structure Event extends ProgressEvent where
  error : Option DumpFileError := none
  deriving DecidableEq, Inhabited

/-- A file of a list. -/
structure Job where
  path : Text
  /-- Its number in the file set, or why it could not be loaded. -/
  loaded : Except DumpFileError UInt32

/-- Files of a list that are loaded. -/
structure Loading where
  files : FileSet
  jobs : List Job := []

/-- Loads another file. -/
def Loading.add (disk : Disk) (l : Loading) (path : Text) : Loading :=
  match l.files.load disk path with
  | .ok fs => { files := fs, jobs := l.jobs ++ [⟨path, .ok l.files.nextId⟩] }
  | .error e => { l with jobs := l.jobs ++ [⟨path, .error e⟩] }

/-- Loads the files of a list, in order. -/
def Loading.ofPaths (disk : Disk) (baseDir : Text) (paths : List Text) : Loading :=
  paths.foldl (Loading.add disk) { files := { baseDir := baseDir, workDir := disk.workDir } }

/-- How far a worker has got. -/
inductive Stage where
  | waiting
  /-- It goes through the tokens of a file. The ones from number `next` on are left; what was
  found is in reverse order. -/
  | scanning (id : UInt32) (next : Nat) (left : Stream) (found : List Diagnostic)
  | finished (result : FileResult DumpFileError)
  /-- The run was cancelled before it began. -/
  | stopped
  deriving Inhabited

namespace Stage

/-- Is the work over? -/
def isOver : Stage → Bool
  | .finished _ | .stopped => true
  | _ => false

/-- The result of a worker. -/
def result? : Stage → Option (FileResult DumpFileError)
  | .finished r => some r
  | _ => none

/-- Did the worker give up? -/
def isStopped : Stage → Bool
  | .stopped => true
  | _ => false

end Stage

/-- What is fixed for a run. -/
structure Plan where
  rules : Registry
  /-- The capacity of the bag of a file. -/
  max : Int
  files : FileSet
  jobs : List Job
  /-- How many workers may be busy at a time. -/
  limit : Nat
  /-- When the run is cancelled. -/
  cancelAt : Option Nat := none

/-- What changes during a run: the time, the stages of the workers, and the news so far. -/
structure Pool where
  now : Nat := 0
  stages : List Stage
  events : List Event := []
  deriving Inhabited

/-- The view of a file that rules get. -/
def baseView (fs : FileSet) (id : UInt32) : RuleView :=
  { file := id, path := fs.pathOf id .auto, tokens := ((fs.get? id).map (·.tokens)).getD [] }

/-- The result for a file whose tokens have been gone through. -/
def fileResult (max : Int) (path : Text) (view : RuleView) (reports : List Diagnostic) :
    FileResult DumpFileError :=
  { path := path, file := view.file, tokenCount := view.tokens.length, bag := collect max reports }

namespace Pool

/-- Has the run been cancelled? -/
def cancelled (plan : Plan) (p : Pool) : Bool :=
  match plan.cancelAt with
  | some t => t ≤ p.now
  | none => false

/-- May a worker begin? Workers begin in order, as long as there is room. -/
def mayBegin (plan : Plan) (p : Pool) (worker : Nat) : Bool :=
  ((p.stages.take worker).filter fun s => !s.isOver).length < plan.limit

/-- What a worker does next, and the news about it. -/
def advance (plan : Plan) (p : Pool) (worker : Nat) (job : Job) : Stage → Stage × List Event
  | .waiting =>
    if !p.mayBegin plan worker then (.waiting, [])
    else if p.cancelled plan then (.stopped, [])
    else
      match job.loaded with
      | .error e =>
        (.finished { path := job.path, bag := Bag.ofCapacity plan.max, error := some e },
          [{ file := job.path, status := .error, error := some e }])
      | .ok id =>
        (.scanning id 0 (baseView plan.files id).tokens [],
          [{ file := job.path, status := .working }])
  | .scanning id next left found =>
    let view := baseView plan.files id
    let finish (found : List Diagnostic) : Stage × List Event :=
      let r := fileResult plan.max job.path view found.reverse
      (.finished r, [{ file := job.path, status := .done, diagnostics := r.bag.size }])
    match left with
    | [] => finish found
    | t :: rest =>
      if p.cancelled plan then finish found
      else (.scanning id (next + 1) rest ((findingsAt plan.rules view t next).reverse ++ found), [])
  | s => (s, [])

/-- A step of a worker. -/
def step (plan : Plan) (p : Pool) (worker : Nat) : Pool :=
  match p.stages[worker]?, plan.jobs[worker]? with
  | some s, some job =>
    let (s, news) := p.advance plan worker job s
    { now := p.now + 1, stages := p.stages.set worker s, events := p.events ++ news }
  | _, _ => { p with now := p.now + 1 }

/-- The steps of a schedule. -/
def run (plan : Plan) (p : Pool) (schedule : List Nat) : Pool := schedule.foldl (step plan) p

/-- The pool before the first step: all files are loaded and queued. -/
def start (plan : Plan) : Pool :=
  { stages := plan.jobs.map fun _ => .waiting
    events := plan.jobs.map fun j => { file := j.path, status := .queued } }

/-- Are all workers done? -/
def isOver (p : Pool) : Bool := p.stages.all Stage.isOver

end Pool

/-- What comes of a run. -/
structure Outcome where
  files : FileSet := {}
  results : List (FileResult DumpFileError) := []
  /-- Was a worker kept from its work? -/
  cancelled : Bool := false
  events : List Event := []
  deriving Inhabited

namespace Outcome

/-- The complaint about a run that was cancelled. -/
def cancelledMessage : Text := "context canceled"

/-- What has come of a run. -/
def ofPool (plan : Plan) (p : Pool) : Outcome :=
  { files := plan.files, results := p.stages.filterMap Stage.result?
    cancelled := p.stages.any Stage.isStopped, events := p.events }

end Outcome

/-- The schedule in which the workers come up one after the other, each as often as it can
need: once to begin, once for every token, and once to finish. -/
def inOrder (plan : Plan) : List Nat :=
  (plan.jobs.zipIdx).flatMap fun (job, i) =>
    let tokens := match job.loaded with
      | .ok id => (baseView plan.files id).tokens.length
      | .error _ => 0
    List.replicate (tokens + 2) i

/-- The plan of a run over files. All workers may be busy at a time unless there is a positive
limit. -/
def Plan.ofPaths (rules : Registry) (max limit : Int) (disk : Disk) (baseDir : Text)
    (paths : List Text) : Plan :=
  let l := Loading.ofPaths disk baseDir paths
  { rules := rules, max := max, files := l.files, jobs := l.jobs
    limit := if 0 < limit then min limit.toNat paths.length else paths.length }

/-- Runs rules over files, one after the other. -/
def processFiles (plan : Plan) : Outcome :=
  .ofPool plan ((Pool.start plan).run plan (inOrder plan))

end TokenLint.Run
