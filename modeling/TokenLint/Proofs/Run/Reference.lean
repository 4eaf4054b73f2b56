import Mathlib.Algebra.Group.Nat.Defs
import TokenLint.Proofs.Run.Collect
import TokenLint.Proofs.Run.Registry
import TokenLint.Proofs.Sorting

/-!
# The bag of a file, without the machinery of a run

A run over a file goes through a table of rules, views of the file, a filter with a memory and a
bag with a limit. What comes of it can be said without any of these. The rules speak token by token
in the order in which they were registered, and a crash is an error at its token. Of what they say,
a report is struck out if an earlier one has the same key. The bag holds as many of the rest as it
has room for, from the first on, and puts them in order without exchanging equals.

* `firstBy_eq_withoutRepetitions`: a filter with a memory strikes out repetitions.
* `stablySorted_sort`: sorting is stable.
* `findingsFrom_ofList`: a run makes the reports of the rules, in their order.
* `processFile_reference`: the bag and the number of dropped reports, for every list of rules and
  every limit.
-/

namespace TokenLint

/-! ## Repetitions -/

section Repetitions

variable {α β : Type} [DecidableEq β]

/-- The elements whose key none of the elements before them has. -/
def withoutRepetitions (key : α → β) (xs : List α) : List α :=
  (xs.zipIdx.filter fun p => key p.1 ∉ (xs.take p.2).map key).map (·.1)

theorem withoutRepetitions_concat (key : α → β) (xs : List α) (x : α) :
    withoutRepetitions key (xs ++ [x]) =
      withoutRepetitions key xs ++ if key x ∈ xs.map key then [] else [x] := by
  have hOld : (xs.zipIdx.filter fun p => key p.1 ∉ ((xs ++ [x]).take p.2).map key) =
      xs.zipIdx.filter fun p => key p.1 ∉ (xs.take p.2).map key := by
    refine List.filter_congr fun p hp => ?_
    have hIndex : p.2 < xs.length := by
      have hBound := List.snd_lt_of_mem_zipIdx hp
      omega
    rw [List.take_append_of_le_length (Nat.le_of_lt hIndex)]
  unfold withoutRepetitions
  rw [List.zipIdx_append, List.filter_append, List.map_append, hOld]
  congr 1
  by_cases h : key x ∈ xs.map key <;> simp [h]

/-- A filter that remembers the keys it let pass strikes out repetitions. -/
theorem firstBy_eq_withoutRepetitions (key : α → β) (xs : List α) :
    firstBy key [] xs = withoutRepetitions key xs := by
  induction xs using List.reverseRecOn with
  | nil => rfl
  | append_singleton xs x ih =>
      rw [firstBy_concat, ih, withoutRepetitions_concat]

end Repetitions

/-! ## Stable sorting -/

namespace Diagnostic

/-- `a` may stand in front of `b`: by file, then token, then falling severity, then code. -/
def NotAfter (a b : Diagnostic) : Prop :=
  a.primary.file.toNat < b.primary.file.toNat ∨
    a.primary.file.toNat = b.primary.file.toNat ∧
      (a.primary.token.toNat < b.primary.token.toNat ∨
        a.primary.token.toNat = b.primary.token.toNat ∧
          (b.severity.rank.toNat < a.severity.rank.toNat ∨
            a.severity.rank.toNat = b.severity.rank.toNat ∧ a.code ≤ b.code))

/-- The order does not tell `a` and `b` apart. -/
def SameRank (a b : Diagnostic) : Prop :=
  a.primary = b.primary ∧ a.severity = b.severity ∧ a.code = b.code

instance (a b : Diagnostic) : Decidable (SameRank a b) := inferInstanceAs (Decidable (_ ∧ _))

/-- `ys` are the diagnostics `xs` in order; those of the same rank come as they did in `xs`. -/
structure StablySorted (xs ys : List Diagnostic) : Prop where
  perm : ys.Perm xs
  ordered : ys.Pairwise NotAfter
  ties : ∀ d, ys.filter (SameRank d ·) = xs.filter (SameRank d ·)

theorem SameRank.not_before {d a b : Diagnostic} (ha : SameRank d a) (hb : SameRank d b) :
    before b a = false := by
  obtain ⟨haPos, haSeverity, haCode⟩ := ha
  obtain ⟨hbPos, hbSeverity, hbCode⟩ := hb
  rw [before_eq_false_iff, ← haPos, ← hbPos, ← haSeverity, ← hbSeverity, ← haCode, ← hbCode]
  exact Or.inr ⟨rfl, Or.inr ⟨rfl, Or.inr ⟨rfl, List.le_refl _⟩⟩⟩

theorem stablySorted_sort (ds : List Diagnostic) : StablySorted ds (sort ds) := by
  refine ⟨sort_perm ds, (sort_pairwise ds).imp fun h => before_eq_false_iff.mp h, fun d => ?_⟩
  -- the diagnostics of one rank are in order, and sorting keeps what is in order
  refine ranks_before.filter_mergeSort fun a ha b hb => ?_
  have ha' : SameRank d a := by simpa using (List.mem_filter.mp ha).2
  have hb' : SameRank d b := by simpa using (List.mem_filter.mp hb).2
  exact ha'.not_before hb'

end Diagnostic

/-! ## What the rules say -/

namespace Run

/-- What a rule says about a token of a file: its reports, and an error if it crashed. -/
def said (file : UInt32) (path : Text) (tokens : Stream) (r : Rule) (i : Nat) : List Diagnostic :=
  let findings := r.process { file := file, path := path, tokens := tokens, rule := r.code } i
  findings.diagnostics ++ match findings.crash with
    | none => []
    | some words =>
      [{ severity := .error, code := Code.sniffPanic, rule := r.code
         message := "sniff " ++ r.code ++ " panicked: " ++ words
         primary := ⟨file, i.toUInt32⟩ }]

/-- What rules say about a file: token by token, the rules that name its kind, in their order. -/
def allSaid (rules : List (Option Rule)) (file : UInt32) (path : Text) (tokens : Stream) :
    List Diagnostic :=
  tokens.zipIdx.flatMap fun p =>
    ((rules.filterMap id).filter fun r => p.1.kind ∈ r.kinds).flatMap fun r =>
      said file path tokens r p.2

/-- How many reports a bag takes under a limit. -/
def limit (max : Int) : Nat := if 1 ≤ max ∧ max ≤ 65535 then max.toNat else 65535

theorem room_eq_limit (max : Int) : room max = limit max := by
  have hLargest : Bag.largest = 65535 := rfl
  simp only [room, Bag.ofCapacity, limit, hLargest, Bool.or_eq_true, decide_eq_true_eq]
  split <;> split <;> omega

theorem findings_eq_said {file : UInt32} {path : Text} {tokens : Stream} {i : Nat}
    (hIndex : i < 2 ^ 32) (r : Rule) :
    r.findings (viewFor { file := file, path := path, tokens := tokens } r) i =
      said file path tokens r i := by
  have hPos : (viewFor { file := file, path := path, tokens := tokens } r).pos i =
      ⟨file, i.toUInt32⟩ := by
    have hRange : (i : Int) < 4294967296 := by omega
    simp [RuleView.pos, hRange, viewFor]
  unfold Rule.findings said
  have hView : viewFor { file := file, path := path, tokens := tokens } r =
      { file := file, path := path, tokens := tokens, rule := r.code } := rfl
  rw [hView] at hPos ⊢
  cases hCrash : (r.process { file := file, path := path, tokens := tokens, rule := r.code } i).crash with
  | none => simp [hCrash]
  | some words => simp [hCrash, Rule.crashed, hPos]

/-- A run makes the reports of the rules, in their order. -/
theorem findingsFrom_ofList {rules : List (Option Rule)} {file : UInt32} {path : Text}
    {tokens : Stream} (hLength : tokens.length < 2 ^ 32) :
    findingsFrom (.ofList rules) { file := file, path := path, tokens := tokens }
      (fun _ => false) 0 tokens = allSaid rules file path tokens := by
  rw [findingsFrom_eq_flatMap, allSaid]
  refine List.flatMap_congr fun p hp => ?_
  have hIndex : p.2 < 2 ^ 32 := by
    have hBound := List.snd_lt_of_mem_zipIdx hp
    omega
  rw [findingsAt, Registry.forKind_ofList]
  exact List.flatMap_congr fun r _ => findings_eq_said hIndex r

/-- The bag of a file, for every list of rules and every limit: repetitions are struck out of what
the rules say, the first reports are taken as long as there is room, and they are sorted stably.
The others are counted. -/
theorem processFile_reference (rules : List (Option Rule)) (max : Int) (fs : FileSet)
    (file : UInt32) (f : SourceFile) (hFile : fs.get? file = some f)
    (hLength : f.tokens.length < 2 ^ 32) :
    let reports := withoutRepetitions Diagnostic.key
      (allSaid rules file (fs.pathOf file .auto) f.tokens)
    let kept := min (limit max) reports.length
    let bag := (processFile (.ofList rules) max fs file fun _ => false).bag
    Diagnostic.StablySorted (reports.take kept) bag.items.toList ∧
      bag.dropped = reports.length - kept := by
  intro reports kept bag
  have hReports : distinct (findingsFrom (.ofList rules)
      { file := file, path := fs.pathOf file .auto, tokens := f.tokens } (fun _ => false) 0
        f.tokens) = reports := by
    rw [findingsFrom_ofList hLength, distinct, firstBy_eq_withoutRepetitions]
  have hBag : bag = collect max (findingsFrom (.ofList rules)
      { file := file, path := fs.pathOf file .auto, tokens := f.tokens } (fun _ => false) 0
        f.tokens) := by
    simp only [bag, processFile, hFile]
  have hKept : reports.take kept = reports.take (limit max) := by
    rw [← List.take_take, List.take_length]
  constructor
  · rw [hBag, collect_items, hReports, room_eq_limit, hKept]
    exact Diagnostic.stablySorted_sort _
  · rw [hBag, collect_dropped, hReports, room_eq_limit]
    omega

/-- Two names in a file. -/
def twoNames : FileSet :=
  { files := #[{ path := "a", tokens := [{ kind := .identifier }, { kind := .identifier }] }] }

/-- A rule that names a kind twice, repeats itself and crashes at the second token, an empty place,
and a rule that always speaks of the first token. -/
def crashingRules : List (Option Rule) :=
  [some
    { code := "A", kinds := [.identifier, .identifier]
      process := fun v i =>
        { diagnostics := [v.warning i "again" "c" [], v.warning i "again" "c" []]
          crash := if i = 1 then some "boom" else none } },
    none,
    some
      { code := "B", kinds := [.identifier]
        process := fun v _ => { diagnostics := [v.error 0 "first" "c" []] } }]

/-- Of the seven reports about the two names four differ. -/
theorem size_bag_crashingRules :
    (processFile (.ofList crashingRules) 9 twoNames 0 fun _ => false).bag.size = 4 :=
  (size_collect _ _).trans (by decide +kernel)

/-- One of the four, the crash, finds no room in a bag for three. -/
theorem processFile_reference_crashingRules :
    let bag := (processFile (.ofList crashingRules) 3 twoNames 0 fun _ => false).bag
    bag.items.size = 3 ∧ bag.dropped = 1 ∧
      Diagnostic.StablySorted
        ((withoutRepetitions Diagnostic.key
          (allSaid crashingRules 0 "a" (List.replicate 2 { kind := .identifier }))).take 3)
        bag.items.toList := by
  intro bag
  obtain ⟨hSorted, hDropped⟩ := processFile_reference crashingRules 3 twoNames 0
    { path := "a", tokens := [{ kind := .identifier }, { kind := .identifier }] } rfl (by decide)
  have hPath : twoNames.pathOf 0 .auto = Text.ofString "a" := by decide +kernel
  have hCount : (withoutRepetitions Diagnostic.key (allSaid crashingRules 0 "a"
      (List.replicate 2 { kind := .identifier }))).length = 4 := by decide +kernel
  rw [hPath] at hSorted hDropped
  have hKept : min (limit 3) 4 = 3 := by decide
  simp only [List.replicate] at hCount ⊢
  rw [hCount, hKept] at hSorted hDropped
  refine ⟨?_, hDropped, hSorted⟩
  have hSize := hSorted.perm.length_eq
  rw [List.length_take, hCount] at hSize
  exact hSize

end Run

end TokenLint
