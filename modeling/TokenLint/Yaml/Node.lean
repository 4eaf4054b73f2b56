import TokenLint.Yaml.Scan

/-!
# YAML documents

The first document of a YAML stream as a tree. Tags are resolved to their full form, and an
alias holds the node it stands for; an alias inside of the node it names stands for
nothing.
-/

namespace TokenLint.Yaml

/-- A node of a document. -/
inductive Node where
  /-- The tag is empty if none is given. -/
  | scalar (tag value : Text) (plain : Bool)
  | sequence (items : List Node)
  | mapping (entries : List (Node × Node))
  | alias (name : Text) (target : Option Node)
  deriving Inhabited

/-- The scalar that stands where there is nothing. -/
def Node.empty : Node := .scalar [] [] true

/-- What is left to read, and the nodes that have names. -/
structure Reading where
  tokens : List Token
  /-- The latest first; a node that is still being read is missing. -/
  anchors : List (Text × Option Node) := []
  /-- What the handles of tags stand for. -/
  handles : List (Text × Text) := []
  deriving Inhabited

namespace Reading

/-- The next token. -/
def peek (r : Reading) : Token := r.tokens.headD .streamEnd

/-- Without the next token. -/
def skip (r : Reading) : Reading := { r with tokens := r.tokens.tail }

/-- Skips a token if it is the next one. -/
def accept? (r : Reading) (t : Token) : Option Reading := if r.peek = t then some r.skip else none

/-- Gives the latest node with a name that is still being read its value. -/
def complete (a : Text) (n : Node) : List (Text × Option Node) → List (Text × Option Node)
  | [] => []
  | (b, some m) :: rest => (b, some m) :: complete a n rest
  | (b, none) :: rest => if a = b then (a, some n) :: rest else (b, none) :: complete a n rest

/-- A node with a name is being read. -/
def begin (r : Reading) (anchor : Option Text) : Reading :=
  { r with anchors := anchor.toList.map (fun a => (a, none)) ++ r.anchors }

/-- A node with a name has been read. -/
def finish (r : Reading) (anchor : Option Text) (n : Node) : Reading :=
  match anchor with
  | some a => { r with anchors := complete a n r.anchors }
  | none => r

/-- The anchor and the tag before a node, in any order. -/
def properties (r : Reading) : Option Text × Option (Text × Text) × Reading :=
  match r.peek with
  | .anchor a =>
    match r.skip.peek with
    | .tag h s => (some a, some (h, s), r.skip.skip)
    | _ => (some a, none, r.skip)
  | .tag h s =>
    match r.skip.peek with
    | .anchor a => (some a, some (h, s), r.skip.skip)
    | _ => (none, some (h, s), r.skip)
  | _ => (none, none, r)

/-- The full form of a tag; nothing if its handle is unknown. -/
def fullTag? (r : Reading) : Option (Text × Text) → Option Text
  | none => some []
  | some (handle, suffix) =>
    if handle = [] then some suffix
    else match r.handles.lookup handle with
      | some start => if start = [] && suffix = [] then none else some (start ++ suffix)
      | none => none

/-- Is an entry left empty before this token? -/
def endsEntry (stops : List Token) (r : Reading) : Bool := r.peek ∈ stops

mutual

/-- Reads a node. Blocks may start if `block` is set, and items of a sequence without an
indentation of their own if `loose` is set. -/
def node? : Nat → Bool → Bool → Reading → Option (Node × Reading)
  | 0, _, _, _ => none
  | fuel + 1, block, loose, r =>
    match r.peek with
    | .alias name =>
      match r.anchors.lookup name with
      | none => none
      | some target => some (.alias name target, r.skip)
    | _ =>
      let (anchor, tag, r) := r.properties
      match r.fullTag? tag with
      | none => none
      | some tag =>
        let r := r.begin anchor
        let read : Option (Node × Reading) :=
          match r.peek with
          | .scalar v plain => some (.scalar tag v plain, r.skip)
          | .flowSequence => flowItems? fuel true r.skip []
          | .flowMapping => flowEntries? fuel true r.skip []
          | t =>
            if loose && t = .blockEntry then looseItems? fuel r []
            else if block && t = .blockSequence then blockItems? fuel r.skip []
            else if block && t = .blockMapping then blockEntries? fuel r.skip []
            else if anchor.isSome || tag ≠ [] then some (.scalar tag [] true, r)
            else none
        read.map fun (n, r) => (n, r.finish anchor n)

/-- Reads a node that may be left out before some tokens. -/
def nodeOr? : Nat → List Token → Bool → Bool → Reading → Option (Node × Reading)
  | 0, _, _, _, _ => none
  | fuel + 1, stops, block, loose, r =>
    if r.endsEntry stops then some (.empty, r) else node? fuel block loose r

/-- Reads the items of a block sequence; `done` are those before, the latest first. -/
def blockItems? : Nat → Reading → List Node → Option (Node × Reading)
  | 0, _, _ => none
  | fuel + 1, r, done =>
    match r.peek with
    | .blockEntry => do
      let (n, r) ← nodeOr? fuel [.blockEntry, .blockEnd] true false r.skip
      blockItems? fuel r (n :: done)
    | .blockEnd => some (.sequence done.reverse, r.skip)
    | _ => none

/-- Reads the items of a sequence that is not indented further than the mapping around it. -/
def looseItems? : Nat → Reading → List Node → Option (Node × Reading)
  | 0, _, _ => none
  | fuel + 1, r, done =>
    match r.peek with
    | .blockEntry => do
      let (n, r) ← nodeOr? fuel [.blockEntry, .key, .value, .blockEnd] true false r.skip
      looseItems? fuel r (n :: done)
    | _ => some (.sequence done.reverse, r)

/-- Reads the entries of a block mapping. -/
def blockEntries? : Nat → Reading → List (Node × Node) → Option (Node × Reading)
  | 0, _, _ => none
  | fuel + 1, r, done =>
    let stops : List Token := [.key, .value, .blockEnd]
    match r.peek with
    | .key => do
      let (k, r) ← nodeOr? fuel stops true true r.skip
      let (v, r) ←
        match r.accept? .value with
        | some r => nodeOr? fuel stops true true r
        | none => some (.empty, r)
      blockEntries? fuel r ((k, v) :: done)
    | .blockEnd => some (.mapping done.reverse, r.skip)
    | _ => none

/-- Reads the items of a sequence in brackets. An item may be a mapping with one entry. -/
def flowItems? : Nat → Bool → Reading → List Node → Option (Node × Reading)
  | 0, _, _, _ => none
  | fuel + 1, first, r, done =>
    match r.accept? .flowSequenceEnd with
    | some r => some (.sequence done.reverse, r)
    | none => do
      let r ← if first then some r else r.accept? .flowEntry
      match r.accept? .flowSequenceEnd with
      | some r => some (.sequence done.reverse, r)
      | none =>
        match r.accept? .key with
        | some r =>
          let (k, r) ←
            if r.endsEntry [.value, .flowEntry, .flowSequenceEnd] then some (Node.empty, r.skip)
            else node? fuel false false r
          let (v, r) ←
            match r.accept? .value with
            | some r => nodeOr? fuel [.flowEntry, .flowSequenceEnd] false false r
            | none => some (.empty, r)
          flowItems? fuel false r (.mapping [(k, v)] :: done)
        | none =>
          let (n, r) ← node? fuel false false r
          flowItems? fuel false r (n :: done)

/-- Reads the entries of a mapping in brackets. -/
def flowEntries? : Nat → Bool → Reading → List (Node × Node) → Option (Node × Reading)
  | 0, _, _, _ => none
  | fuel + 1, first, r, done =>
    match r.accept? .flowMappingEnd with
    | some r => some (.mapping done.reverse, r)
    | none => do
      let r ← if first then some r else r.accept? .flowEntry
      match r.accept? .flowMappingEnd with
      | some r => some (.mapping done.reverse, r)
      | none =>
        match r.accept? .key with
        | some r =>
          let (k, r) ← nodeOr? fuel [.value, .flowEntry, .flowMappingEnd] false false r
          let (v, r) ←
            match r.accept? .value with
            | some r => nodeOr? fuel [.flowEntry, .flowMappingEnd] false false r
            | none => some (.empty, r)
          flowEntries? fuel false r ((k, v) :: done)
        | none =>
          let (k, r) ← node? fuel false false r
          flowEntries? fuel false r ((k, .empty) :: done)

end

/-- Reads directives before a document; nothing if one is repeated, or the version is not
supported. -/
def directives? : List Token → Bool → List (Text × Text) → Option (List (Text × Text) × List Token)
  | .version major minor :: rest, seen, handles =>
    if seen || major ≠ 1 || minor ≠ 1 then none else directives? rest true handles
  | .tagDirective h p :: rest, seen, handles =>
    if (handles.lookup h).isSome then none else directives? rest seen (handles ++ [(h, p)])
  | rest, _, handles => some (handles, rest)

/-- The handles that need no directive. -/
def standardHandles : List (Text × Text) :=
  [(Text.ofString "!", Text.ofString "!"), (Text.ofString "!!", Text.ofString "tag:yaml.org,2002:")]

/-- Does a token start or end a document? -/
def isDocumentToken : Token → Bool
  | .version _ _ | .tagDirective _ _ | .documentStart | .documentEnd | .streamEnd => true
  | _ => false

end Reading

/-- The first document of a list of tokens; `complete` says that they reach to the end of the
stream. What stands behind the document does not matter, but for a fault in the next three
tokens. -/
def firstDocument? (ts : List Token) (complete : Bool) : Option (Option Node) :=
  let fuel := 4 * ts.length + 8
  let finish (result : Option (Node × Reading)) : Option (Option Node) := do
    let (n, r) ← result
    if !complete && r.tokens.length < 3 then none else some (some n)
  match ts with
  | [] => none
  | .streamEnd :: _ => some none
  | .version _ _ :: _ | .tagDirective _ _ :: _ | .documentStart :: _ => do
    let (handles, ts) ← Reading.directives? ts false []
    let r : Reading := { tokens := ts, handles := handles ++ Reading.standardHandles }
    let r ← r.accept? .documentStart
    if Reading.isDocumentToken r.peek then finish (some (.empty, r))
    else finish (Reading.node? fuel true false r)
  | _ =>
    finish (Reading.node? fuel true false { tokens := ts, handles := Reading.standardHandles })

/-- The first document of a YAML stream; the inner nothing means that there is none, and the
outer one that the stream is malformed. -/
def parse (t : Text) : Option (Option Node) := do
  let cs ← characters? t
  let (ts, complete) := tokens cs
  firstDocument? ts.toList complete

end TokenLint.Yaml
