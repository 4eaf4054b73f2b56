import TokenLint.Run.Pool
import TokenLint.Trace.Session

/-!
# Tracing runs

What a tracing session is told about a run: a span for the run, in it a span for every file,
and in that the moments at which a rule is shown a token.
-/

namespace TokenLint.Run

/-- The rules that are shown tokens, with the numbers of the tokens; those from a number on, up to
the moment the run is cancelled. -/
def dispatches (rules : Registry) (cancelled : Nat → Bool) (i : Nat) : Stream → List (Nat × Text)
  | [] => []
  | t :: rest =>
    if cancelled i then []
    else (rules.forKind t.kind).map (fun r => (i, r.code)) ++ dispatches rules cancelled (i + 1) rest

/-- Tells a session about a file that was processed in a context. Of a file that is unknown there
is nothing to tell. -/
def traceFile (rules : Registry) (fs : FileSet) (id : UInt32) (cancelled : Nat → Bool) (bag : Bag)
    (context : Nat) (s : Trace.Session) : Trace.Session :=
  match fs.get? id with
  | none => s
  | some f =>
    let path := fs.pathOf id .auto
    let span := s.spans.size
    let s := s.start context .file ("file:" ++ path)
    let s := (dispatches rules cancelled 0 f.tokens).foldl (fun s (i, code) =>
      s.point .token "dispatch" code [(Text.ofString "pos", Text.ofNat i)]) s
    let s :=
      if bag.dropped = 0 then s
      else s.point .file Code.tooManyDiagnostics path
        [(Text.ofString "dropped", Text.ofNat bag.dropped)]
    let s := s.annotate span "tokens" (Text.ofNat f.tokens.length)
    (s.annotate span "diagnostics" (Text.ofNat bag.size)).finish span []

/-- Tells a session about a run in a context. -/
def traceFiles (plan : Plan) (outcome : Outcome) (context : Nat) (s : Trace.Session) :
    Trace.Session :=
  if plan.jobs.isEmpty then s
  else
    let span := s.spans.size
    let inner := s.contexts.size
    let s := s.start context .command "process"
    let s := outcome.results.foldl (fun s r =>
      if r.error.isSome then s
      else traceFile plan.rules plan.files r.file (fun _ => false) r.bag inner s) s
    s.finish span []

end TokenLint.Run
