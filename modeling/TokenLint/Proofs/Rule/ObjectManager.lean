import Mathlib.Algebra.Group.Nat.Defs
import TokenLint.Proofs.Run.Collect
import TokenLint.Proofs.Run.Registry
import TokenLint.Proofs.Token.Search
import TokenLint.Rule.ObjectManager

/-!
# What the object manager rule reports

The rule looks at tokens one after the other and searches forward from each call. Its reports
can be described without searching: there is a warning at each deprecated call, an error at
each literal that is the first one after a call and holds a class name of the past, and nothing
else. Several calls may reach one literal, which is reported once.

* `IsSite`, `IsArgument`, `IsDeprecated`, `presentName?`: calls, the literals they reach, and
  what is to be said about them;
* `mem_process_iff`: what the rule says about one token;
* `bag_eq_reportsOf`: if nothing is dropped, the bag of a file holds the reports in the order
  of their tokens.
-/

namespace TokenLint.ObjectManager

/-! ## The places the rule is about -/

/-- The registry of the rule with a function that knows the class names of the past. -/
def registry (checker : Text → Option Text) : Registry :=
  .ofList [some (rule { replacement? := some checker })]

/-- A call of `get` or `create`. -/
def IsSite (s : Stream) (p : Nat) : Prop :=
  s.isFunctionCall p = true ∧
    ((s.tokenAt p).content = Text.ofString "get" ∨ (s.tokenAt p).content = Text.ofString "create")

instance (s : Stream) (p : Nat) : Decidable (IsSite s p) := inferInstanceAs (Decidable (_ ∧ _))

/-- The token at `j` is a literal, and there is none between it and the name at `p`. -/
def Reaches (s : Stream) (p j : Nat) : Prop :=
  p < j ∧ (s.tokenAt j).kind = .stringLiteral ∧
    ∀ k < j, p < k → (s.tokenAt k).kind ≠ .stringLiteral

instance (s : Stream) (p j : Nat) : Decidable (Reaches s p j) :=
  inferInstanceAs (Decidable (_ ∧ _))

/-- A literal that is the first one after a call of `get` or `create`. -/
def IsArgument (s : Stream) (j : Nat) : Prop := ∃ p < j, IsSite s p ∧ Reaches s p j

instance (s : Stream) (j : Nat) : Decidable (IsArgument s j) :=
  inferInstanceAs (Decidable (∃ p < j, _))

/-- A call of `create` with a literal somewhere after it. -/
def IsDeprecated (s : Stream) (p : Nat) : Prop :=
  s.isFunctionCall p = true ∧ (s.tokenAt p).content = Text.ofString "create" ∧
    ∃ j < s.length, p < j ∧ (s.tokenAt j).kind = .stringLiteral

instance (s : Stream) (p : Nat) : Decidable (IsDeprecated s p) :=
  inferInstanceAs (Decidable (_ ∧ _))

/-- The present name for the class name of the past at `j`, if there is one to be replaced. -/
def presentName? (checker : Text → Option Text) (s : Stream) (j : Nat) : Option Text :=
  if IsArgument s j then checker (stripQuotes (s.tokenAt j).content) else none

/-- The warning about a call of `create`. -/
def createWarning (v : RuleView) (p : Nat) : Diagnostic :=
  v.warning p createMessage Code.mightBeDeprecatedMethod [Text.ofString "create"]

/-- The error about a class name of the past. -/
def legacyError (v : RuleView) (j : Nat) (newName : Text) : Diagnostic :=
  let raw := (v.tokens.tokenAt j).content
  v.fixableError j legacyMessage Code.legacyClassname
    (fix (v.pos j) raw (stripQuotes raw) newName) [stripQuotes raw, newName]

/-- What there is to report at a token. -/
def reportsAt (checker : Text → Option Text) (v : RuleView) (i : Nat) : List Diagnostic :=
  (if IsDeprecated v.tokens i then [createWarning v i] else []) ++
    ((presentName? checker v.tokens i).map (legacyError v i)).toList

/-- What there is to report in a file, in the order of the tokens. -/
def reportsOf (checker : Text → Option Text) (v : RuleView) : List Diagnostic :=
  (List.range v.tokens.length).flatMap (reportsAt checker v)

/-! ## Literals after a call -/

theorem findNext_iff_reaches {s : Stream} {p j : Nat} (hp : s.isFunctionCall p = true) :
    s.findNext [.stringLiteral] p = some j ↔ Reaches s p j := by
  have hName : (s.tokenAt p).kind ≠ .stringLiteral := by
    rw [Stream.kind_of_isFunctionCall hp]
    decide
  simp only [Stream.findNext_eq_some_iff, List.mem_singleton, Reaches]
  constructor
  · rintro ⟨hpj, -, hKind, hBefore⟩
    have hNe : p ≠ j := fun h => hName (h ▸ hKind)
    exact ⟨by omega, hKind, fun k hkj hpk => hBefore k (by omega) hkj⟩
  · rintro ⟨hpj, hKind, hBetween⟩
    refine ⟨by omega, Stream.lt_length_of_kind_ne_invalid (by rw [hKind]; decide), hKind, ?_⟩
    intro k hpk hkj
    by_cases hk : k = p
    · exact hk ▸ hName
    · exact hBetween k hkj (by omega)

theorem Reaches.lt_length {s : Stream} {p j : Nat} (h : Reaches s p j) : j < s.length :=
  Stream.lt_length_of_kind_ne_invalid (by rw [h.2.1]; decide)

/-- After a call there is a literal somewhere if and only if there is a first one. -/
theorem exists_reaches_iff {s : Stream} {p : Nat} (hp : s.isFunctionCall p = true) :
    (∃ j, Reaches s p j) ↔ ∃ j < s.length, p < j ∧ (s.tokenAt j).kind = .stringLiteral := by
  constructor
  · rintro ⟨j, h⟩
    exact ⟨j, h.lt_length, h.1, h.2.1⟩
  · rintro ⟨j, hj, hpj, hKind⟩
    cases hFind : s.findNext [.stringLiteral] p with
    | some i => exact ⟨i, (findNext_iff_reaches hp).mp hFind⟩
    | none =>
        have hNone := Stream.findNext_eq_none_iff.mp hFind j (by omega) hj
        exact absurd (List.mem_singleton.mpr hKind) hNone

/-! ## What the rule says about one token -/

/-- The literal a call leads to and the present name for what it holds, if that is a class name
of the past. -/
def reachedName? (checker : Text → Option Text) (s : Stream) (p : Nat) : Option (Nat × Text) :=
  if IsSite s p then
    (s.findNext [.stringLiteral] p).bind fun j =>
      (checker (stripQuotes (s.tokenAt j).content)).map (Prod.mk j)
  else none

theorem reachedName?_eq_some_iff {checker : Text → Option Text} {s : Stream} {p j : Nat}
    {newName : Text} :
    reachedName? checker s p = some (j, newName) ↔
      IsSite s p ∧ Reaches s p j ∧ checker (stripQuotes (s.tokenAt j).content) = some newName := by
  unfold reachedName?
  by_cases hSite : IsSite s p
  · rw [if_pos hSite]
    simp only [Option.bind_eq_some_iff, Option.map_eq_some_iff, Prod.mk.injEq,
      findNext_iff_reaches hSite.1, hSite, true_and]
    constructor
    · rintro ⟨k, hReaches, m, hName, rfl, rfl⟩
      exact ⟨hReaches, hName⟩
    · rintro ⟨hReaches, hName⟩
      exact ⟨j, hReaches, newName, hName, rfl, rfl⟩
  · simp [hSite]

/-- What the rule says about a token: a warning if it is a deprecated call, and then an error if it
is a call that leads to a name of the past. -/
theorem process_eq (checker : Text → Option Text) (v : RuleView) (i : Nat) :
    (process { replacement? := some checker } v i).diagnostics =
      (if IsDeprecated v.tokens i then [createWarning v i] else []) ++
        ((reachedName? checker v.tokens i).map fun q => legacyError v q.1 q.2).toList := by
  unfold process reachedName?
  by_cases hCall : v.tokens.isFunctionCall i = true
  · have hDeprecated : IsDeprecated v.tokens i ↔
        (v.tokens.tokenAt i).content = Text.ofString "create" ∧ ∃ j, Reaches v.tokens i j := by
      rw [exists_reaches_iff hCall]
      simp [IsDeprecated, hCall]
    by_cases hSite : IsSite v.tokens i
    · have hMethod : ¬ ((v.tokens.tokenAt i).content ≠ Text.ofString "get" ∧
          (v.tokens.tokenAt i).content ≠ Text.ofString "create") :=
        fun h => hSite.2.elim h.1 h.2
      simp only [hCall, Bool.not_true, Bool.false_eq_true, if_false, Bool.and_eq_true,
        decide_eq_true_eq, hMethod, hSite, if_true]
      cases hFind : v.tokens.findNext [.stringLiteral] i with
      | none =>
          have hNo : ¬ ∃ j, Reaches v.tokens i j := fun ⟨j, hj⟩ => by
            rw [(findNext_iff_reaches hCall).mpr hj] at hFind
            cases hFind
          simp [hDeprecated, hNo]
      | some j =>
          have hSome : ∃ j, Reaches v.tokens i j := ⟨j, (findNext_iff_reaches hCall).mp hFind⟩
          simp only [hDeprecated, hSome, and_true, Option.bind_some]
          cases checker (stripQuotes (v.tokens.tokenAt j).content) with
          | none => simp [createWarning]
          | some newName => simp [createWarning, legacyError]
    · have hMethod : (v.tokens.tokenAt i).content ≠ Text.ofString "get" ∧
          (v.tokens.tokenAt i).content ≠ Text.ofString "create" :=
        not_or.mp fun h => hSite ⟨hCall, h⟩
      simp [hCall, hMethod, hSite, hDeprecated]
  · have hSite : ¬ IsSite v.tokens i := fun h => hCall h.1
    have hDeprecated : ¬ IsDeprecated v.tokens i := fun h => hCall h.1
    simp [hCall, hSite, hDeprecated]

theorem mem_process_iff {checker : Text → Option Text} {v : RuleView} {i : Nat}
    {d : Diagnostic} :
    d ∈ (process { replacement? := some checker } v i).diagnostics ↔
      IsDeprecated v.tokens i ∧ d = createWarning v i ∨
        ∃ j newName, reachedName? checker v.tokens i = some (j, newName) ∧
          d = legacyError v j newName := by
  have hError : d ∈ ((reachedName? checker v.tokens i).map fun q => legacyError v q.1 q.2).toList ↔
      ∃ j newName, reachedName? checker v.tokens i = some (j, newName) ∧
        d = legacyError v j newName := by
    simp only [Option.mem_toList, Option.map_eq_some_iff, Prod.exists]
    constructor
    · rintro ⟨j, newName, hReached, rfl⟩
      exact ⟨j, newName, hReached, rfl⟩
    · rintro ⟨j, newName, hReached, rfl⟩
      exact ⟨j, newName, hReached, rfl⟩
  rw [process_eq, List.mem_append, hError]
  by_cases h : IsDeprecated v.tokens i <;> simp [h]

theorem process_crash (s : Settings) (v : RuleView) (i : Nat) : (process s v i).crash = none := by
  unfold process
  split
  · rfl
  · dsimp only
    split
    · rfl
    · split
      · rfl
      · split <;> rfl

/-! ## What the rule says about a file -/

theorem mem_reportsAt_iff {checker : Text → Option Text} {v : RuleView} {i : Nat}
    {d : Diagnostic} :
    d ∈ reportsAt checker v i ↔
      IsDeprecated v.tokens i ∧ d = createWarning v i ∨
        ∃ newName, presentName? checker v.tokens i = some newName ∧
          d = legacyError v i newName := by
  have hError : d ∈ ((presentName? checker v.tokens i).map (legacyError v i)).toList ↔
      ∃ newName, presentName? checker v.tokens i = some newName ∧
        d = legacyError v i newName := by
    simp only [Option.mem_toList, Option.map_eq_some_iff]
    exact ⟨fun ⟨m, hm, hd⟩ => ⟨m, hm, hd.symm⟩, fun ⟨m, hm, hd⟩ => ⟨m, hm, hd.symm⟩⟩
  rw [reportsAt, List.mem_append, hError]
  by_cases h : IsDeprecated v.tokens i <;> simp [h]

theorem presentName?_eq_some_iff {checker : Text → Option Text} {s : Stream} {j : Nat}
    {newName : Text} :
    presentName? checker s j = some newName ↔
      IsArgument s j ∧ checker (stripQuotes (s.tokenAt j).content) = some newName := by
  unfold presentName?
  by_cases h : IsArgument s j <;> simp [h]

theorem lt_length_of_isArgument {s : Stream} {j : Nat} (h : IsArgument s j) : j < s.length := by
  obtain ⟨p, -, -, hReaches⟩ := h
  exact hReaches.lt_length

theorem lt_length_of_mem_reportsAt {checker : Text → Option Text} {v : RuleView} {i : Nat}
    {d : Diagnostic} (h : d ∈ reportsAt checker v i) : i < v.tokens.length := by
  rcases mem_reportsAt_iff.mp h with ⟨hDeprecated, -⟩ | ⟨newName, hName, -⟩
  · exact Stream.lt_length_of_isFunctionCall hDeprecated.1
  · exact lt_length_of_isArgument (presentName?_eq_some_iff.mp hName).1

theorem mem_reportsOf_iff {checker : Text → Option Text} {v : RuleView} {d : Diagnostic} :
    d ∈ reportsOf checker v ↔ ∃ i, d ∈ reportsAt checker v i := by
  simp only [reportsOf, List.mem_flatMap, List.mem_range]
  exact ⟨fun ⟨i, _, h⟩ => ⟨i, h⟩, fun ⟨i, h⟩ => ⟨i, lt_length_of_mem_reportsAt h, h⟩⟩

theorem presentName?_eq_some_iff_reached {checker : Text → Option Text} {s : Stream} {j : Nat}
    {newName : Text} :
    presentName? checker s j = some newName ↔ ∃ p, reachedName? checker s p = some (j, newName) := by
  simp only [presentName?_eq_some_iff, reachedName?_eq_some_iff]
  constructor
  · rintro ⟨⟨p, -, hSite, hReaches⟩, hName⟩
    exact ⟨p, hSite, hReaches, hName⟩
  · rintro ⟨p, hSite, hReaches, hName⟩
    exact ⟨⟨p, hReaches.1, hSite, hReaches⟩, hName⟩

/-- The reports of a file are what the rule says about its tokens. -/
theorem mem_reportsOf_iff_process {checker : Text → Option Text} {v : RuleView}
    {d : Diagnostic} :
    d ∈ reportsOf checker v ↔
      ∃ i, d ∈ (process { replacement? := some checker } v i).diagnostics := by
  simp only [mem_reportsOf_iff, mem_reportsAt_iff, mem_process_iff,
    presentName?_eq_some_iff_reached]
  constructor
  · rintro ⟨i, hWarning | ⟨newName, ⟨p, hReached⟩, rfl⟩⟩
    · exact ⟨i, Or.inl hWarning⟩
    · exact ⟨p, Or.inr ⟨i, newName, hReached, rfl⟩⟩
  · rintro ⟨p, hWarning | ⟨j, newName, hReached, rfl⟩⟩
    · exact ⟨p, Or.inl hWarning⟩
    · exact ⟨j, Or.inr ⟨newName, ⟨p, hReached⟩, rfl⟩⟩

theorem forKind_registry (checker : Text → Option Text) (k : Kind) :
    (registry checker).forKind k =
      if k ∈ Kind.functionNames then [rule { replacement? := some checker }] else [] := by
  rw [registry, Registry.forKind_ofList]
  by_cases h : k ∈ Kind.functionNames <;> simp [rule, h]

/-- Nothing is said about a token that is not the name of a call. -/
theorem process_of_not_call {checker : Text → Option Text} {v : RuleView} {i : Nat}
    (h : ¬ v.tokens.isFunctionCall i = true) :
    (process { replacement? := some checker } v i).diagnostics = [] := by
  simp [process, h]

/-- A run of the rule over a file finds what the rule says about one token after the other. -/
theorem findings_eq_flatMap (checker : Text → Option Text) (base : RuleView) :
    Run.findingsFrom (registry checker) base (fun _ => false) 0 base.tokens =
      (List.range base.tokens.length).flatMap fun i =>
        (process { replacement? := some checker } { base with rule := name } i).diagnostics := by
  have hFindings : (rule { replacement? := some checker }).findings
      (Run.viewFor base (rule { replacement? := some checker })) = fun i =>
        (process { replacement? := some checker } { base with rule := name } i).diagnostics := by
    funext i
    simp [Rule.findings, rule, Run.viewFor, process_crash]
  rw [Run.findingsFrom_eq_flatMap, List.range_eq_range', ← List.zipIdx_map_snd 0 base.tokens,
    List.flatMap_map]
  refine List.flatMap_congr fun p hp => ?_
  obtain ⟨t, i⟩ := p
  have hToken : base.tokens.tokenAt i = t :=
    Stream.tokenAt_eq_of_getElem? (List.mem_zipIdx_iff_getElem?.mp hp)
  rw [Run.findingsAt, forKind_registry]
  -- the rule is registered for names, and says nothing about other tokens
  by_cases hCall : base.tokens.isFunctionCall i = true
  · have hKind : t.kind ∈ Kind.functionNames := by
      rw [← hToken, Stream.kind_of_isFunctionCall hCall]
      decide
    rw [if_pos hKind, List.flatMap_singleton, hFindings]
  · rw [@process_of_not_call checker { base with rule := name } i hCall]
    split
    · rw [List.flatMap_singleton, hFindings]
      exact @process_of_not_call checker { base with rule := name } i hCall
    · rfl

theorem mem_findings_iff {checker : Text → Option Text} {base : RuleView} {d : Diagnostic} :
    d ∈ Run.findingsFrom (registry checker) base (fun _ => false) 0 base.tokens ↔
      d ∈ reportsOf checker { base with rule := name } := by
  rw [findings_eq_flatMap, mem_reportsOf_iff_process]
  simp only [List.mem_flatMap, List.mem_range]
  constructor
  · rintro ⟨i, -, hd⟩
    exact ⟨i, hd⟩
  · rintro ⟨i, hd⟩
    refine ⟨i, ?_, hd⟩
    by_contra hOut
    have hCall : ¬ base.tokens.isFunctionCall i = true :=
      fun h => hOut (Stream.lt_length_of_isFunctionCall h)
    rw [@process_of_not_call checker { base with rule := name } i hCall] at hd
    cases hd

/-! ## Reports and their places -/

theorem pos_token {v : RuleView} {i : Nat} (hi : i < 2 ^ 32) : (v.pos i).token.toNat = i := by
  have h : (0 ≤ (i : Int) && (i : Int) < 4294967296) = true := by
    simp only [Bool.and_eq_true, decide_eq_true_eq]
    omega
  simp only [RuleView.pos, h, if_true, Int.toNat_natCast]
  exact Nat.mod_eq_of_lt (by simpa using hi)

theorem primary_of_mem_reportsAt {checker : Text → Option Text} {v : RuleView} {i : Nat}
    {d : Diagnostic} (h : d ∈ reportsAt checker v i) : d.primary = v.pos i := by
  rcases mem_reportsAt_iff.mp h with ⟨-, rfl⟩ | ⟨newName, -, rfl⟩ <;> rfl

/-- A name is no literal, so a token has at most one report. -/
theorem eq_of_mem_reportsAt {checker : Text → Option Text} {v : RuleView} {i : Nat}
    {d d' : Diagnostic} (h : d ∈ reportsAt checker v i) (h' : d' ∈ reportsAt checker v i) :
    d = d' := by
  have hBoth : IsDeprecated v.tokens i → ∀ newName,
      presentName? checker v.tokens i ≠ some newName := by
    intro hDeprecated newName hName
    obtain ⟨⟨p, -, -, hReaches⟩, -⟩ := presentName?_eq_some_iff.mp hName
    have hKind := hReaches.2.1
    rw [Stream.kind_of_isFunctionCall hDeprecated.1] at hKind
    cases hKind
  rcases mem_reportsAt_iff.mp h with ⟨hd, rfl⟩ | ⟨newName, hName, rfl⟩ <;>
    rcases mem_reportsAt_iff.mp h' with ⟨hd', rfl⟩ | ⟨newName', hName', rfl⟩
  · rfl
  · exact absurd hName' (hBoth hd newName')
  · exact absurd hName (hBoth hd' newName)
  · rw [Option.some.inj (hName.symm.trans hName')]

theorem pairwise_reportsAt {r : Diagnostic → Diagnostic → Prop} (checker : Text → Option Text)
    (v : RuleView) (i : Nat) : (reportsAt checker v i).Pairwise r := by
  by_cases hDeprecated : IsDeprecated v.tokens i
  · cases hName : presentName? checker v.tokens i with
    | none =>
        rw [reportsAt, if_pos hDeprecated, hName]
        exact List.pairwise_singleton _ _
    | some newName =>
        have hOne := eq_of_mem_reportsAt (mem_reportsAt_iff.mpr (Or.inl ⟨hDeprecated, rfl⟩))
          (mem_reportsAt_iff.mpr (Or.inr ⟨newName, hName, rfl⟩))
        cases congrArg Diagnostic.code hOne
  · rw [reportsAt, if_neg hDeprecated]
    cases presentName? checker v.tokens i with
    | none => exact List.Pairwise.nil
    | some newName => exact List.pairwise_singleton _ _

theorem file_of_mem_reportsOf {checker : Text → Option Text} {v : RuleView} {d : Diagnostic}
    (h : d ∈ reportsOf checker v) : d.primary.file = v.file := by
  obtain ⟨i, hi⟩ := mem_reportsOf_iff.mp h
  rw [primary_of_mem_reportsAt hi]
  rfl

section Bag

variable {checker : Text → Option Text} {v : RuleView} (hLength : v.tokens.length < 2 ^ 32)
include hLength

theorem token_of_mem_reportsAt {i : Nat} {d : Diagnostic} (h : d ∈ reportsAt checker v i) :
    d.primary.token.toNat = i := by
  have hi := lt_length_of_mem_reportsAt h
  rw [primary_of_mem_reportsAt h, pos_token (by omega)]

/-- Two reports of a file at one token are one. -/
theorem eq_of_mem_reportsOf {d d' : Diagnostic} (h : d ∈ reportsOf checker v)
    (h' : d' ∈ reportsOf checker v)
    (hToken : d.primary.token.toNat = d'.primary.token.toNat) : d = d' := by
  obtain ⟨i, hi⟩ := mem_reportsOf_iff.mp h
  obtain ⟨i', hi'⟩ := mem_reportsOf_iff.mp h'
  rw [token_of_mem_reportsAt hLength hi, token_of_mem_reportsAt hLength hi'] at hToken
  subst hToken
  exact eq_of_mem_reportsAt hi hi'

/-- The reports of a file come in the order of their tokens. -/
theorem reportsOf_pairwise :
    (reportsOf checker v).Pairwise fun d d' =>
      d.primary.token.toNat < d'.primary.token.toNat := by
  rw [reportsOf, List.pairwise_flatMap]
  constructor
  · exact fun i _ => pairwise_reportsAt checker v i
  · refine List.pairwise_lt_range.imp fun hij d hd d' hd' => ?_
    rw [token_of_mem_reportsAt hLength hd, token_of_mem_reportsAt hLength hd']
    exact hij

/-- In the order of a bag, the reports of a file stand by their tokens. -/
theorem not_before_iff {d d' : Diagnostic} (h : d ∈ reportsOf checker v)
    (h' : d' ∈ reportsOf checker v) :
    d'.before d = false ↔ d.primary.token.toNat ≤ d'.primary.token.toNat := by
  rw [Diagnostic.before_eq_false_iff, file_of_mem_reportsOf h, file_of_mem_reportsOf h']
  constructor
  · omega
  · intro hLe
    rcases Nat.lt_or_eq_of_le hLe with hLt | hEq
    · exact Or.inr ⟨rfl, Or.inl hLt⟩
    · rw [eq_of_mem_reportsOf hLength h h' hEq]
      exact Or.inr ⟨rfl, Or.inr ⟨rfl, Or.inr ⟨rfl, List.le_refl _⟩⟩⟩

/-- However often and in whatever order the reports of a file are made, dropping repetitions and
sorting gives them in the order of their tokens. -/
theorem sort_distinct_eq_reportsOf {reports : List Diagnostic}
    (hMem : ∀ d, d ∈ reports ↔ d ∈ reportsOf checker v) :
    Diagnostic.sort (Run.distinct reports) = reportsOf checker v := by
  have hStrict : (reportsOf checker v).Pairwise fun d d' =>
      d.primary.token.toNat < d'.primary.token.toNat := reportsOf_pairwise hLength
  have hNodup : (reportsOf checker v).Nodup := hStrict.imp fun h hEq => by rw [hEq] at h; omega
  have hDistinct : ∀ d, d ∈ Run.distinct reports ↔ d ∈ reportsOf checker v := by
    intro d
    rw [Run.distinct, mem_firstBy_iff_of_injOn, hMem]
    intro x hx y hy hKey
    have hPos : x.primary = y.primary := congrArg Diagnostic.Key.pos hKey
    exact eq_of_mem_reportsOf hLength ((hMem x).mp hx) ((hMem y).mp hy) (by rw [hPos])
  have hPerm : (Diagnostic.sort (Run.distinct reports)).Perm (reportsOf checker v) :=
    (Diagnostic.sort_perm _).trans
      ((List.perm_ext_iff_of_nodup (nodup_firstBy [] reports) hNodup).mpr hDistinct)
  refine hPerm.eq_of_pairwise (fun a b ha hb hab hba => ?_) (Diagnostic.sort_pairwise _) ?_
  · have ha' := hPerm.mem_iff.mp ha
    rw [not_before_iff hLength ha' hb] at hab
    rw [not_before_iff hLength hb ha'] at hba
    exact eq_of_mem_reportsOf hLength ha' hb (by omega)
  · refine hStrict.imp_of_mem fun ha hb h => ?_
    exact (not_before_iff hLength ha hb).mpr (Nat.le_of_lt h)

end Bag

section Collect

variable {checker : Text → Option Text} {max : Int} {base : RuleView}

theorem sort_distinct_findings (hLength : base.tokens.length < 2 ^ 32) :
    Diagnostic.sort (Run.distinct (Run.findingsFrom (registry checker) base (fun _ => false) 0
      base.tokens)) = reportsOf checker { base with rule := name } := by
  refine sort_distinct_eq_reportsOf ?_ fun d => mem_findings_iff
  exact hLength

/-- If nothing is dropped, the bag of a file holds the reports of the rule. -/
theorem bag_eq_reportsOf (hLength : base.tokens.length < 2 ^ 32)
    (hKept : (Run.collect max (Run.findingsFrom (registry checker) base (fun _ => false) 0
      base.tokens)).dropped = 0) :
    (Run.collect max (Run.findingsFrom (registry checker) base (fun _ => false) 0
      base.tokens)).items.toList = reportsOf checker { base with rule := name } := by
  rw [Run.collect_items_of_dropped_eq_zero hKept, sort_distinct_findings hLength]

/-- What is dropped are the reports for which there is no room. -/
theorem dropped_eq (hLength : base.tokens.length < 2 ^ 32) :
    (Run.collect max (Run.findingsFrom (registry checker) base (fun _ => false) 0
      base.tokens)).dropped =
        (reportsOf checker { base with rule := name }).length - Run.room max := by
  rw [Run.collect_dropped, ← sort_distinct_findings hLength, (Diagnostic.sort_perm _).length_eq]

end Collect

end TokenLint.ObjectManager
