import TokenLint.Text

/-!
# File paths

Paths are texts with slashes. All operations are lexical: they look at the text and never
at a disk.

Main definitions: `Path.clean` (the shortest equivalent path), `Path.join`, `Path.dir`,
`Path.base`, `Path.ext`, `Path.absolute` and `Path.relativeTo`.
-/

namespace TokenLint.Path

/-- The separator of path elements. -/
def slash : UInt8 := 47

/-- Is the path absolute? -/
def isAbsolute (p : Text) : Bool := p.head? = some slash

/-- The elements of a path that matter: neither empty nor a single dot. -/
def elements (p : Text) : List Text :=
  (Text.splitOn slash p).filter fun e => e ≠ [] && e ≠ "."

/-- Resolves elements that go up; `done` are the elements so far, the latest first. Above the
root there is only the root. -/
def resolve (rooted : Bool) (done : List Text) : List Text → List Text
  | [] => done.reverse
  | e :: rest =>
    if e = ".." then
      match done with
      | [] => if rooted then resolve rooted [] rest else resolve rooted [e] rest
      | d :: ds => if d = ".." then resolve rooted (e :: done) rest else resolve rooted ds rest
    else resolve rooted (e :: done) rest

/-- The elements of a clean path. -/
def cleanElements (p : Text) : List Text := resolve (isAbsolute p) [] (elements p)

/-- The path of elements. -/
def ofElements (rooted : Bool) (es : List Text) : Text :=
  if rooted then slash :: Text.join [slash] es
  else if es.isEmpty then "." else Text.join [slash] es

/-- The shortest path that means the same. -/
def clean (p : Text) : Text := ofElements (isAbsolute p) (cleanElements p)

/-- The clean path of the parts, one below the other; empty parts do not count. -/
def join (parts : List Text) : Text :=
  match parts.filter (· ≠ []) with
  | [] => []
  | parts => clean (Text.join [slash] parts)

/-- The last element of a path as it is written. -/
def base (p : Text) : Text :=
  if p = [] then "."
  else match Text.trimEnd (· = slash) p with
    | [] => [slash]
    | p => ((Text.splitOn slash p).getLast?).getD []

/-- The directory a path is in. -/
def dir (p : Text) : Text := clean ((p.reverse.dropWhile (· ≠ slash)).reverse)

/-- The ending of the last element, from its last dot on; empty without a dot. -/
def ext (p : Text) : Text :=
  let last := ((Text.splitOn slash p).getLast?).getD []
  match (Text.splitOn 46 last).reverse with
  | e :: _ :: _ => 46 :: e
  | _ => []

/-- The absolute path, seen from the directory `cwd`. -/
def absolute (cwd p : Text) : Text := if isAbsolute p then clean p else join [cwd, p]

/-- The two lists without their common beginning. -/
def dropCommon : List Text → List Text → List Text × List Text
  | a :: as, b :: bs => if a = b then dropCommon as bs else (a :: as, b :: bs)
  | as, bs => (as, bs)

/-- The path that leads from `start` to `target`; nothing if that cannot be told from their
texts. -/
def relativeTo (start target : Text) : Option Text :=
  if clean start = clean target then some "."
  else if isAbsolute start ≠ isAbsolute target then none
  else
    let (up, down) := dropCommon (cleanElements start) (cleanElements target)
    if up.head? = some ".." && !down.isEmpty then none
    else some (Text.join [slash] (up.map (fun _ => Text.ofString "..") ++ down))

/-- The complaint that no path leads from one place to another. -/
def unreachable (start target : Text) : Text :=
  "Rel: can't make " ++ target ++ " relative to " ++ start

/-- The path of `p` below `start`: a relative path is only cleaned. -/
def relative (p start : Text) : Except Text Text :=
  if !isAbsolute p then .ok (clean p)
  else match relativeTo start p with
    | some r => .ok r
    | none => .error (unreachable start p)

end TokenLint.Path
