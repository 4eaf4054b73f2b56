import Mathlib.Tactic.ByContra
import TokenLint.Token.CallSite

/-!
# Searching a stream

What the searches of a stream find, in terms of the tokens at positions, and that both the
searches for kinds and the question whether a name is called depend on the kinds of the tokens
alone.

* `findNext_eq_some_iff`: the search finds the first token of a kind.
* `findPrevExcluding_eq_some_iff`: the search backwards finds the last token of no kind.
* `isFunctionCall_congr`: streams with the same kinds have the same calls.
* `kind_of_isFunctionCall`, `lt_length_of_isFunctionCall`: only a name that is there is called.
* `isFunctionCall_iff`: when a name is called, without searching.
-/

namespace TokenLint.Stream

/-! ## Tokens at positions -/

theorem tokenAt_natCast (s : Stream) (i : Nat) : s.tokenAt i = s.getD i {} := by
  have hi : ¬ (i : Int) < 0 := by omega
  simp [tokenAt, hi]

theorem tokenAt_eq_of_getElem? {s : Stream} {i : Nat} {t : Token} (h : s[i]? = some t) :
    s.tokenAt i = t := by
  rw [tokenAt_natCast, List.getD_eq_getElem?_getD, h]
  rfl

theorem getElem?_eq_tokenAt {s : Stream} {i : Nat} (h : i < s.length) :
    s[i]? = some (s.tokenAt i) := by
  rw [tokenAt_eq_of_getElem? (List.getElem?_eq_getElem h)]
  exact List.getElem?_eq_getElem h

/-- Where there is no token, the kind is invalid. -/
theorem lt_length_of_kind_ne_invalid {s : Stream} {i : Nat}
    (h : (s.tokenAt i).kind ≠ .invalid) : i < s.length := by
  by_contra hOut
  rw [tokenAt_natCast, List.getD_eq_getElem?_getD, List.getElem?_eq_none (by omega)] at h
  exact h rfl

/-! ## The first token of a sort -/

theorem findFrom_eq_some_iff {p : Token → Bool} {s : Stream} {i j : Nat} :
    s.findFrom p i = some j ↔
      i ≤ j ∧ j < s.length ∧ p (s.tokenAt j) = true ∧
        ∀ k, i ≤ k → k < j → p (s.tokenAt k) = false := by
  simp only [findFrom, Int.toNat_natCast, Option.map_eq_some_iff,
    List.findIdx?_eq_some_iff_getElem, List.length_drop, List.getElem_drop]
  constructor
  · rintro ⟨n, ⟨hn, hp, hBefore⟩, rfl⟩
    have hTok : ∀ m (hm : i + m < s.length), s.tokenAt ((i + m : Nat) : Int) = s[i + m] :=
      fun m hm => tokenAt_eq_of_getElem? (List.getElem?_eq_getElem hm)
    refine ⟨by omega, by omega, ?_, fun k hik hkj => ?_⟩
    · rw [Nat.add_comm n i, hTok n (by omega)]
      exact hp
    · obtain ⟨m, rfl⟩ := Nat.exists_eq_add_of_le hik
      rw [hTok m (by omega)]
      simpa using hBefore m (by omega)
  · rintro ⟨hij, hj, hp, hBefore⟩
    obtain ⟨n, rfl⟩ := Nat.exists_eq_add_of_le hij
    have hTok : ∀ m (hm : i + m < s.length), s[i + m] = s.tokenAt ((i + m : Nat) : Int) :=
      fun m hm => (tokenAt_eq_of_getElem? (List.getElem?_eq_getElem hm)).symm
    refine ⟨n, ⟨by omega, ?_, fun m hm => ?_⟩, Nat.add_comm n i⟩
    · rw [hTok n hj]
      exact hp
    · rw [hTok m (by omega)]
      rw [hBefore (i + m) (by omega) (by omega)]
      decide

theorem findFrom_eq_none_iff {p : Token → Bool} {s : Stream} {i : Nat} :
    s.findFrom p i = none ↔ ∀ k, i ≤ k → k < s.length → p (s.tokenAt k) = false := by
  simp only [findFrom, Option.map_eq_none_iff, List.findIdx?_eq_none_iff, Int.toNat_natCast,
    List.mem_drop_iff_getElem]
  constructor
  · intro h k hik hk
    refine h _ ⟨k - i, by omega, ?_⟩
    have hSum : i + (k - i) = k := by omega
    simp only [hSum]
    exact (tokenAt_eq_of_getElem? (List.getElem?_eq_getElem hk)).symm
  · rintro h x ⟨n, hn, rfl⟩
    have hn' : i + n < s.length := by omega
    rw [← tokenAt_eq_of_getElem? (List.getElem?_eq_getElem hn')]
    exact h (i + n) (by omega) hn'

theorem findNext_eq_some_iff {s : Stream} {kinds : List Kind} {i j : Nat} :
    s.findNext kinds i = some j ↔
      i ≤ j ∧ j < s.length ∧ (s.tokenAt j).kind ∈ kinds ∧
        ∀ k, i ≤ k → k < j → (s.tokenAt k).kind ∉ kinds := by
  simp [findNext, findFrom_eq_some_iff]

theorem findNext_eq_none_iff {s : Stream} {kinds : List Kind} {i : Nat} :
    s.findNext kinds i = none ↔ ∀ k, i ≤ k → k < s.length → (s.tokenAt k).kind ∉ kinds := by
  simp [findNext, findFrom_eq_none_iff]

/-! ## The last token of a sort -/

/-- The last element of a sort is the first one from behind. -/
theorem findIdx?_reverse_eq_some_iff {α : Type} {p : α → Bool} {xs : List α} {j : Nat} :
    (xs.reverse.findIdx? p).map (xs.length - 1 - ·) = some j ↔
      ∃ h : j < xs.length, p xs[j] = true ∧ ∀ k (hk : k < xs.length), j < k → p xs[k] = false := by
  simp only [Option.map_eq_some_iff, List.findIdx?_eq_some_iff_getElem, List.length_reverse,
    List.getElem_reverse]
  constructor
  · rintro ⟨n, ⟨hn, hp, hBefore⟩, rfl⟩
    refine ⟨by omega, hp, fun k hk hjk => ?_⟩
    have hFrom := hBefore (xs.length - 1 - k) (by omega)
    have hBack : xs.length - 1 - (xs.length - 1 - k) = k := by omega
    simpa [hBack] using hFrom
  · rintro ⟨hj, hp, hAfter⟩
    have hBack : xs.length - 1 - (xs.length - 1 - j) = j := by omega
    refine ⟨xs.length - 1 - j, ⟨by omega, by simpa [hBack] using hp, fun m hm => ?_⟩, hBack⟩
    rw [hAfter _ (by omega) (by omega)]
    decide

theorem findPrevExcluding_eq_some_iff {s : Stream} {kinds : List Kind} {i : Int} {j : Nat} :
    s.findPrevExcluding kinds i = some j ↔
      (j : Int) ≤ i ∧ j < s.length ∧ (s.tokenAt j).kind ∉ kinds ∧
        ∀ k : Nat, j < k → (k : Int) ≤ i → k < s.length → (s.tokenAt k).kind ∈ kinds := by
  have hTok : ∀ k (hk : k < s.length), s[k] = s.tokenAt k :=
    fun k hk => (tokenAt_eq_of_getElem? (List.getElem?_eq_getElem hk)).symm
  rw [findPrevExcluding, findIdx?_reverse_eq_some_iff]
  simp only [List.length_take, List.getElem_take, Nat.lt_min, decide_eq_true_eq,
    decide_eq_false_iff_not, Decidable.not_not]
  constructor
  · rintro ⟨⟨hji, hj⟩, hKind, hAfter⟩
    rw [hTok j hj] at hKind
    refine ⟨by omega, hj, hKind, fun k hjk hki hk => ?_⟩
    rw [← hTok k hk]
    exact hAfter k ⟨by omega, hk⟩ hjk
  · rintro ⟨hji, hj, hKind, hAfter⟩
    refine ⟨⟨by omega, hj⟩, hTok j hj ▸ hKind, fun k hk hjk => ?_⟩
    rw [hTok k hk.2]
    exact hAfter k hjk (by omega) hk.2

/-! ## Kinds alone decide -/

/-- The kinds of the tokens. -/
def kinds (s : Stream) : List Kind := s.map Token.kind

theorem kind_tokenAt_congr {s t : Stream} (h : s.kinds = t.kinds) (i : Int) :
    (s.tokenAt i).kind = (t.tokenAt i).kind := by
  have hAt : ∀ u : Stream, (u.tokenAt i).kind =
      if i < 0 then Kind.invalid else u.kinds.getD i.toNat .invalid := by
    intro u
    unfold tokenAt
    split
    · rfl
    · simp only [kinds, List.getD_eq_getElem?_getD, List.getElem?_map]
      cases u[i.toNat]? <;> rfl
  rw [hAt, hAt, h]

theorem length_congr {s t : Stream} (h : s.kinds = t.kinds) : s.length = t.length := by
  simpa [kinds] using congrArg List.length h

theorem findFrom_kind_congr {s t : Stream} (h : s.kinds = t.kinds) (q : Kind → Bool) (i : Int) :
    s.findFrom (fun x => q x.kind) i = t.findFrom (fun x => q x.kind) i := by
  have hKinds : ∀ u : Stream, u.findFrom (fun x => q x.kind) i =
      ((u.kinds.drop i.toNat).findIdx? q).map (· + i.toNat) := by
    intro u
    rw [kinds, ← List.map_drop, List.findIdx?_map]
    rfl
  rw [hKinds, hKinds, h]

theorem findPrevExcluding_congr {s t : Stream} (h : s.kinds = t.kinds) (ks : List Kind)
    (i : Int) : s.findPrevExcluding ks i = t.findPrevExcluding ks i := by
  have hKinds : ∀ u : Stream, u.findPrevExcluding ks i =
      ((u.kinds.take (i + 1).toNat).reverse.findIdx? fun k => decide (k ∉ ks)).map
        ((u.kinds.take (i + 1).toNat).length - 1 - ·) := by
    intro u
    rw [kinds, ← List.map_take, ← List.map_reverse, List.findIdx?_map, List.length_map]
    rfl
  rw [hKinds, hKinds, h]

theorem isFunctionCall_congr {s t : Stream} (h : s.kinds = t.kinds) (i : Int) :
    s.isFunctionCall i = t.isFunctionCall i := by
  have hNext : s.findNextExcluding Kind.trivia (i + 1) = t.findNextExcluding Kind.trivia (i + 1) :=
    findFrom_kind_congr h (fun k => decide (k ∉ Kind.trivia)) (i + 1)
  rw [isFunctionCall, isFunctionCall, valid, valid, length_congr h, kind_tokenAt_congr h, hNext,
    findPrevExcluding_congr h]
  cases t.findNextExcluding Kind.trivia (i + 1) with
  | none => rfl
  | some next =>
      simp only
      rw [kind_tokenAt_congr h]
      cases t.findPrevExcluding (Kind.extend Kind.trivia [.bitwiseAnd]) (i - 1) with
      | none => rfl
      | some prev =>
          simp only
          rw [kind_tokenAt_congr h]

/-! ## Names that are called -/

theorem kind_of_isFunctionCall {s : Stream} {i : Int} (h : s.isFunctionCall i = true) :
    (s.tokenAt i).kind = .identifier := by
  unfold isFunctionCall at h
  split at h
  · cases h
  · rename_i hName
    simp only [Bool.or_eq_true, Bool.not_eq_true', decide_eq_true_eq, not_or, Decidable.not_not]
      at hName
    exact hName.2

theorem lt_length_of_isFunctionCall {s : Stream} {i : Nat} (h : s.isFunctionCall i = true) :
    i < s.length := by
  apply lt_length_of_kind_ne_invalid
  rw [kind_of_isFunctionCall h]
  decide

/-- The next token that is no trivia is an opening parenthesis. -/
def OpensCall (s : Stream) (p : Nat) : Prop :=
  ∃ n, p < n ∧ (s.tokenAt n).kind = .openParenthesis ∧
    ∀ k, p < k → k < n → (s.tokenAt k).kind ∈ Kind.trivia

/-- The last token before that is neither trivia nor the mark of a reference is a keyword that
declares a name. -/
def IsDeclared (s : Stream) (p : Nat) : Prop :=
  ∃ q < p, (s.tokenAt q).kind ∈ Kind.declarations ∧
    ∀ k, q < k → k < p → (s.tokenAt k).kind ∈ Kind.extend Kind.trivia [.bitwiseAnd]

theorem opensCall_iff {s : Stream} {p : Nat} :
    s.OpensCall p ↔ ∃ n, s.findNextExcluding Kind.trivia (p + 1) = some n ∧
      (s.tokenAt n).kind = .openParenthesis := by
  have hNone : Kind.openParenthesis ∉ Kind.trivia := by decide
  have hFind : ∀ n, s.findNextExcluding Kind.trivia (p + 1) = some n ↔ p + 1 ≤ n ∧
      n < s.length ∧ (s.tokenAt n).kind ∉ Kind.trivia ∧
        ∀ k, p + 1 ≤ k → k < n → (s.tokenAt k).kind ∈ Kind.trivia := by
    intro n
    rw [findNextExcluding, ← Int.natCast_succ, findFrom_eq_some_iff]
    simp
  refine exists_congr fun n => ?_
  rw [hFind]
  constructor
  · rintro ⟨hpn, hKind, hBetween⟩
    refine ⟨⟨hpn, lt_length_of_kind_ne_invalid (by rw [hKind]; decide), hKind ▸ hNone, ?_⟩, hKind⟩
    exact fun k hpk hkn => hBetween k hpk hkn
  · rintro ⟨⟨hpn, -, -, hBetween⟩, hKind⟩
    exact ⟨hpn, hKind, fun k hpk hkn => hBetween k hpk hkn⟩

theorem isDeclared_iff {s : Stream} {p : Nat} (hp : p < s.length) :
    s.IsDeclared p ↔ ∃ q, s.findPrevExcluding (Kind.extend Kind.trivia [.bitwiseAnd]) (p - 1) =
      some q ∧ (s.tokenAt q).kind ∈ Kind.declarations := by
  have hNone : ∀ k ∈ Kind.declarations, k ∉ Kind.extend Kind.trivia [.bitwiseAnd] := by decide
  refine exists_congr fun q => ?_
  rw [findPrevExcluding_eq_some_iff]
  constructor
  · rintro ⟨hqp, hKind, hBetween⟩
    refine ⟨⟨by omega, by omega, hNone _ hKind, fun k hqk hkp _ => ?_⟩, hKind⟩
    exact hBetween k hqk (by omega)
  · rintro ⟨⟨hqp, -, -, hBetween⟩, hKind⟩
    exact ⟨by omega, hKind, fun k hqk hkp => hBetween k hqk (by omega) (by omega)⟩

/-- When a name is called, without searching. -/
theorem isFunctionCall_iff {s : Stream} {p : Nat} :
    s.isFunctionCall p = true ↔
      (s.tokenAt p).kind = .identifier ∧ s.OpensCall p ∧ ¬ s.IsDeclared p := by
  by_cases hKind : (s.tokenAt p).kind = .identifier
  · have hp : p < s.length := lt_length_of_kind_ne_invalid (by rw [hKind]; decide)
    have hValid : s.valid p = true := by simp [valid, hp]
    rw [opensCall_iff, isDeclared_iff hp, isFunctionCall]
    cases s.findNextExcluding Kind.trivia (p + 1) with
    | none => simp [hValid, hKind]
    | some n =>
        by_cases hOpen : (s.tokenAt n).kind = .openParenthesis
        · cases s.findPrevExcluding (Kind.extend Kind.trivia [.bitwiseAnd]) (p - 1) <;>
            simp [hValid, hKind, hOpen]
        · simp [hValid, hKind, hOpen]
  · simp [isFunctionCall, hKind]

end TokenLint.Stream
