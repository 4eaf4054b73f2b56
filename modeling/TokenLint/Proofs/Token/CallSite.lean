import TokenLint.Proofs.Token.Search

/-!
# When a name is called

The question whether a name is called is answered by two searches, one to each side. Here the answer
is told without them, for every integer as a position: by the kinds of the tokens there and between
there and another token. Positions before the first token and behind the last have no kind.

* `kindAt_natCast`: the kind at a position inside the stream.
* `between_natCast_iff`: what holds of all tokens between two positions.
* `mem_extend_iff`: a set of kinds with further kinds.
* `isFunctionCall_iff_between`: when a name is called.
-/

namespace TokenLint

theorem Kind.mem_extend_iff {set extra : List Kind} {k : Kind} :
    k ∈ Kind.extend set extra ↔ k ∈ set ∨ k ∈ extra := by
  unfold Kind.extend
  induction extra generalizing set with
  | nil => simp
  | cons x extra ih =>
      rw [List.foldl_cons, ih]
      split
      · rename_i hx
        constructor
        · rintro (hSet | hExtra)
          · exact Or.inl hSet
          · exact Or.inr (List.mem_cons_of_mem x hExtra)
        · rintro (hSet | hExtra)
          · exact Or.inl hSet
          · rcases List.mem_cons.mp hExtra with rfl | hExtra
            · exact Or.inl hx
            · exact Or.inr hExtra
      · rw [List.mem_append, List.mem_singleton, List.mem_cons, or_assoc]

namespace Stream

variable {s : Stream} {k : Kind} {P : Kind → Prop} {p q : Nat}

/-- There is a token at this position, and it is of this kind. -/
def KindAt (s : Stream) (pos : Int) (k : Kind) : Prop :=
  ∃ p : Nat, pos = p ∧ ∃ t, s[p]? = some t ∧ t.kind = k

/-- There are tokens at all positions between two ones, and `P` holds of their kinds. -/
def Between (s : Stream) (P : Kind → Prop) (i j : Int) : Prop :=
  ∀ pos, i < pos → pos < j → ∃ k, P k ∧ s.KindAt pos k

theorem KindAt.exists_eq {pos : Int} (h : s.KindAt pos k) : ∃ p : Nat, pos = p := by
  obtain ⟨p, hp, -⟩ := h
  exact ⟨p, hp⟩

/-- The default token of `tokenAt` is invalid, so it is never mistaken for a token of a kind that is
asked for. -/
theorem kindAt_natCast (hk : k ≠ .invalid) : s.KindAt p k ↔ (s.tokenAt p).kind = k := by
  constructor
  · rintro ⟨p', hp, t, ht, hKind⟩
    cases Int.ofNat_inj.mp hp
    rw [tokenAt_eq_of_getElem? ht, hKind]
  · intro hKind
    have hp : p < s.length := lt_length_of_kind_ne_invalid (hKind ▸ hk)
    exact ⟨p, rfl, s.tokenAt p, getElem?_eq_tokenAt hp, hKind⟩

theorem exists_kindAt_natCast (hP : ¬ P .invalid) :
    (∃ k, P k ∧ s.KindAt p k) ↔ P (s.tokenAt p).kind := by
  constructor
  · rintro ⟨k, hk, hAt⟩
    have hNe : k ≠ .invalid := by
      rintro rfl
      exact hP hk
    rwa [(kindAt_natCast hNe).mp hAt]
  · intro hKind
    have hNe : (s.tokenAt p).kind ≠ .invalid := by
      intro hEq
      exact hP (hEq ▸ hKind)
    exact ⟨_, hKind, (kindAt_natCast hNe).mpr rfl⟩

theorem between_natCast_iff (hP : ¬ P .invalid) :
    s.Between P p q ↔ ∀ i : Nat, p < i → i < q → P (s.tokenAt i).kind := by
  constructor
  · intro hBetween i hpi hiq
    exact (exists_kindAt_natCast hP).mp (hBetween i (by omega) (by omega))
  · intro hBetween pos hp hq
    obtain ⟨i, rfl⟩ := Int.eq_ofNat_of_zero_le (show 0 ≤ pos by omega)
    exact (exists_kindAt_natCast hP).mpr (hBetween i (by omega) (by omega))

theorem opensCall_iff_between : s.OpensCall p ↔
    ∃ n : Int, p < n ∧ s.KindAt n .openParenthesis ∧ s.Between (· ∈ Kind.trivia) p n := by
  have hTrivia : ¬ Kind.invalid ∈ Kind.trivia := by decide
  constructor
  · rintro ⟨n, hpn, hKind, hBetween⟩
    refine ⟨n, by omega, (kindAt_natCast (by decide)).mpr hKind, ?_⟩
    exact (between_natCast_iff hTrivia).mpr hBetween
  · rintro ⟨_, hpn, hAt, hBetween⟩
    obtain ⟨n, rfl⟩ := hAt.exists_eq
    refine ⟨n, by omega, (kindAt_natCast (by decide)).mp hAt, ?_⟩
    exact (between_natCast_iff hTrivia).mp hBetween

theorem isDeclared_iff_between : s.IsDeclared p ↔
    ∃ q k, q < (p : Int) ∧ s.KindAt q k ∧ k ∈ Kind.declarations ∧
      s.Between (fun k => k ∈ Kind.trivia ∨ k = .bitwiseAnd) q p := by
  have hDeclares : ∀ k ∈ Kind.declarations, k ≠ .invalid := by decide
  have hSkipped : ¬ (Kind.invalid ∈ Kind.trivia ∨ Kind.invalid = .bitwiseAnd) := by decide
  have hExtend : ∀ k, k ∈ Kind.extend Kind.trivia [.bitwiseAnd] ↔
      k ∈ Kind.trivia ∨ k = .bitwiseAnd := by
    intro k
    rw [Kind.mem_extend_iff, List.mem_singleton]
  constructor
  · rintro ⟨q, hqp, hKind, hBetween⟩
    refine ⟨q, _, by omega, (kindAt_natCast (hDeclares _ hKind)).mpr rfl, hKind, ?_⟩
    rw [between_natCast_iff hSkipped]
    intro i hqi hip
    exact (hExtend _).mp (hBetween i hqi hip)
  · rintro ⟨_, k, hqp, hAt, hKind, hBetween⟩
    obtain ⟨q, rfl⟩ := hAt.exists_eq
    rw [between_natCast_iff hSkipped] at hBetween
    refine ⟨q, by omega, (kindAt_natCast (hDeclares k hKind)).mp hAt ▸ hKind, ?_⟩
    intro i hqi hip
    exact (hExtend _).mpr (hBetween i hqi hip)

theorem isFunctionCall_of_neg {pos : Int} (h : pos < 0) : s.isFunctionCall pos = false := by
  have hValid : s.valid pos = false := by
    rw [valid, decide_eq_false (Int.not_le.mpr h)]
    rfl
  rw [isFunctionCall, hValid]
  rfl

/-- A name is called if an opening parenthesis follows it and no declaring keyword stands before it,
whatever trivia is between, and before the name the mark of a reference too. -/
theorem isFunctionCall_iff_between (s : Stream) (pos : Int) :
    s.isFunctionCall pos = true ↔
      s.KindAt pos .identifier ∧
      (∃ n, pos < n ∧ s.KindAt n .openParenthesis ∧ s.Between (· ∈ Kind.trivia) pos n) ∧
      ¬ ∃ q k, q < pos ∧ s.KindAt q k ∧
        k ∈ [Kind.functionKeyword, .arrowFunction, .constKeyword, .useKeyword, .newKeyword,
          .classKeyword, .interfaceKeyword, .traitKeyword] ∧
        s.Between (fun k => k ∈ Kind.trivia ∨ k = .bitwiseAnd) q pos := by
  rcases Int.lt_or_le pos 0 with hNeg | hPos
  · rw [isFunctionCall_of_neg hNeg]
    constructor
    · intro hCalled
      cases hCalled
    · rintro ⟨hAt, -⟩
      obtain ⟨p, rfl⟩ := hAt.exists_eq
      omega
  · obtain ⟨p, rfl⟩ := Int.eq_ofNat_of_zero_le hPos
    rw [isFunctionCall_iff, opensCall_iff_between, isDeclared_iff_between,
      kindAt_natCast (by decide)]
    rfl

end Stream

end TokenLint
