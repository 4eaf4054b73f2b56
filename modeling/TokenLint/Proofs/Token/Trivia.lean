import Mathlib.Data.List.Forall2
import Mathlib.Data.List.Induction
import TokenLint.Proofs.Token.Search

/-!
# Streams without their trivia

White space and comments may stand anywhere in a stream. A question about a stream that does not
depend on them has the same answer for every stream with the same tokens in between. To say so,
the positions of two such streams are matched by the number of tokens before them that count.

* `map_ordinal_codePositions`: the tokens that count are numbered without gaps, in order.
* `SameCode.forall₂_aligned`: in streams that differ in trivia only, they match one by one.
* `SameCode.isFunctionCall_eq`: of two names that match, both are called or none is.
-/

namespace TokenLint.Stream

/-! ## Tokens that count -/

/-- The tokens that are no trivia. -/
def code (s : Stream) : Stream := s.filter (!·.isTrivia)

/-- There is a token at `p`, and it is no trivia. -/
def IsCode (s : Stream) (p : Nat) : Prop := p < s.length ∧ (s.tokenAt p).isTrivia = false

instance (s : Stream) (p : Nat) : Decidable (IsCode s p) := inferInstanceAs (Decidable (_ ∧ _))

/-- The number of tokens before `p` that are no trivia. -/
def ordinal (s : Stream) (p : Nat) : Nat := (code (s.take p)).length

/-- The positions of the tokens that are no trivia. -/
def codePositions (s : Stream) : List Nat := (List.range s.length).filter (s.IsCode ·)

theorem isCode_of_kind {s : Stream} {p : Nat} (hKind : (s.tokenAt p).kind ≠ .invalid)
    (hTrivia : (s.tokenAt p).kind ∉ Kind.trivia) : s.IsCode p :=
  ⟨lt_length_of_kind_ne_invalid hKind, decide_eq_false hTrivia⟩

theorem mem_codePositions {s : Stream} {p : Nat} : p ∈ s.codePositions ↔ s.IsCode p := by
  simp only [codePositions, List.mem_filter, List.mem_range, decide_eq_true_eq]
  exact ⟨fun h => h.2, fun h => ⟨h.1, h⟩⟩

theorem take_succ_eq {s : Stream} {p : Nat} (hp : p < s.length) :
    s.take (p + 1) = s.take p ++ [s.tokenAt p] := by
  rw [List.take_add_one, getElem?_eq_tokenAt hp, Option.toList_some]

theorem ordinal_succ {s : Stream} {p : Nat} (hp : p < s.length) :
    s.ordinal (p + 1) = s.ordinal p + if s.IsCode p then 1 else 0 := by
  rw [ordinal, ordinal, take_succ_eq hp, code, List.filter_append, List.length_append]
  cases hTrivia : (s.tokenAt p).isTrivia <;> simp [code, IsCode, hp, hTrivia]

theorem ordinal_mono {s : Stream} {p q : Nat} (h : p ≤ q) : s.ordinal p ≤ s.ordinal q :=
  ((List.take_sublist_take_left h).filter _).length_le

theorem ordinal_lt_ordinal {s : Stream} {p q : Nat} (hp : s.IsCode p) (h : p < q) :
    s.ordinal p < s.ordinal q := by
  have hSucc := ordinal_succ hp.1
  have hMono : s.ordinal (p + 1) ≤ s.ordinal q := ordinal_mono h
  rw [if_pos hp] at hSucc
  omega

theorem ordinal_lt_ordinal_iff {s : Stream} {p q : Nat} (hp : s.IsCode p) (hq : s.IsCode q) :
    s.ordinal p < s.ordinal q ↔ p < q := by
  refine ⟨fun h => ?_, ordinal_lt_ordinal hp⟩
  by_contra hLe
  rcases Nat.lt_or_eq_of_le (Nat.le_of_not_lt hLe) with hLt | rfl
  · exact Nat.lt_asymm h (ordinal_lt_ordinal hq hLt)
  · exact Nat.lt_irrefl _ h

/-- A token that is no trivia has the place among these that its ordinal says. -/
theorem getElem?_code_ordinal {s : Stream} {p : Nat} (h : s.IsCode p) :
    s.code[s.ordinal p]? = some (s.tokenAt p) := by
  have hSplit : s.code = code (s.take p) ++ s.tokenAt p :: code (s.drop (p + 1)) := by
    have hOne : code [s.tokenAt p] = [s.tokenAt p] := by simp [code, h.2]
    calc s.code = code (s.take (p + 1) ++ s.drop (p + 1)) := by rw [List.take_append_drop]
      _ = code (s.take p) ++ code [s.tokenAt p] ++ code (s.drop (p + 1)) := by
          rw [take_succ_eq h.1]
          simp only [code, List.filter_append]
      _ = _ := by rw [hOne, List.append_assoc, List.singleton_append]
  rw [hSplit, ordinal, List.getElem?_append_right (Nat.le_refl _), Nat.sub_self,
    List.getElem?_cons_zero]

/-- The tokens that are no trivia are numbered without gaps, in order. -/
theorem map_ordinal_codePositions (s : Stream) :
    s.codePositions.map s.ordinal = List.range s.code.length := by
  have hUpTo : ∀ n ≤ s.length, ((List.range n).filter (s.IsCode ·)).map s.ordinal =
      List.range (s.ordinal n) := by
    intro n
    induction n with
    | zero => exact fun _ => rfl
    | succ n ih =>
        intro hn
        rw [List.range_succ, List.filter_append, List.map_append, ih (by omega), ordinal_succ hn]
        by_cases hCode : s.IsCode n <;> simp [hCode, List.range_succ]
  have hAll : s.ordinal s.length = s.code.length := by rw [ordinal, List.take_length]
  rw [codePositions, hUpTo s.length (Nat.le_refl _), hAll]

/-! ## Streams that differ in trivia only -/

/-- Without their trivia, the streams agree in the kinds and contents of their tokens. -/
def SameCode (s t : Stream) : Prop :=
  s.code.map (fun x => (x.kind, x.content)) = t.code.map fun x => (x.kind, x.content)

instance (s t : Stream) : Decidable (SameCode s t) := inferInstanceAs (Decidable (_ = _))

/-- Neither of two tokens is trivia, and as many tokens before the one are none as before the
other. -/
structure Aligned (s t : Stream) (p q : Nat) : Prop where
  left : s.IsCode p
  right : t.IsCode q
  ordinal_eq : s.ordinal p = t.ordinal q

theorem Aligned.symm {s t : Stream} {p q : Nat} (h : s.Aligned t p q) : t.Aligned s q p :=
  ⟨h.right, h.left, h.ordinal_eq.symm⟩

theorem Aligned.lt_iff_lt {s t : Stream} {p q p' q' : Nat} (h : s.Aligned t p q)
    (h' : s.Aligned t p' q') : p < p' ↔ q < q' := by
  rw [← ordinal_lt_ordinal_iff h.left h'.left, ← ordinal_lt_ordinal_iff h.right h'.right,
    h.ordinal_eq, h'.ordinal_eq]

namespace SameCode

variable {s t : Stream} (hSame : s.SameCode t)
include hSame

theorem symm : t.SameCode s := Eq.symm hSame

theorem length_code_eq : s.code.length = t.code.length := by
  simpa using congrArg List.length hSame

theorem kind_content_eq {p q : Nat} (h : s.Aligned t p q) :
    ((s.tokenAt p).kind, (s.tokenAt p).content) = ((t.tokenAt q).kind, (t.tokenAt q).content) := by
  have hAt := congrArg (·[s.ordinal p]?) hSame
  simp only [List.getElem?_map, getElem?_code_ordinal h.left] at hAt
  rw [h.ordinal_eq, getElem?_code_ordinal h.right] at hAt
  exact Option.some.inj hAt

theorem kind_eq {p q : Nat} (h : s.Aligned t p q) : (s.tokenAt p).kind = (t.tokenAt q).kind :=
  congrArg Prod.fst (hSame.kind_content_eq h)

theorem content_eq {p q : Nat} (h : s.Aligned t p q) :
    (s.tokenAt p).content = (t.tokenAt q).content :=
  congrArg Prod.snd (hSame.kind_content_eq h)

/-- The tokens that are no trivia match one by one. -/
theorem forall₂_aligned : List.Forall₂ (s.Aligned t) s.codePositions t.codePositions := by
  have hOrdinals : s.codePositions.map s.ordinal = t.codePositions.map t.ordinal := by
    rw [map_ordinal_codePositions, map_ordinal_codePositions, hSame.length_code_eq]
  refine List.forall₂_iff_get.mpr ⟨by simpa using congrArg List.length hOrdinals, fun i hi hi' => ?_⟩
  refine ⟨mem_codePositions.mp (List.getElem_mem hi), mem_codePositions.mp (List.getElem_mem hi'), ?_⟩
  have hAt := congrArg (·[i]?) hOrdinals
  simpa [hi, hi'] using hAt

/-- Every token that is no trivia has a match. -/
theorem exists_aligned {p : Nat} (hp : s.IsCode p) : ∃ q, s.Aligned t p q := by
  have hMem : s.ordinal p ∈ t.codePositions.map t.ordinal := by
    rw [map_ordinal_codePositions, ← hSame.length_code_eq, ← map_ordinal_codePositions]
    exact List.mem_map_of_mem (mem_codePositions.mpr hp)
  obtain ⟨q, hq, hOrdinal⟩ := List.mem_map.mp hMem
  exact ⟨q, hp, mem_codePositions.mp hq, hOrdinal.symm⟩

/-- What holds of trivia, and of all that stands between two tokens, holds between their matches. -/
theorem between {Q : Kind → Prop} (hTrivia : ∀ k ∈ Kind.trivia, Q k) {p q p' q' : Nat}
    (h : s.Aligned t p q) (h' : s.Aligned t p' q')
    (hBetween : ∀ k, p < k → k < p' → Q (s.tokenAt k).kind) :
    ∀ k, q < k → k < q' → Q (t.tokenAt k).kind := by
  intro k hqk hkq
  by_cases hCode : t.IsCode k
  · obtain ⟨m, hm⟩ := hSame.symm.exists_aligned hCode
    rw [← hSame.kind_eq hm.symm]
    exact hBetween m ((h.lt_iff_lt hm.symm).mpr hqk) ((hm.symm.lt_iff_lt h').mpr hkq)
  · have hIsTrivia : (t.tokenAt k).isTrivia = true := by
      have hk : k < t.length := Nat.lt_trans hkq h'.right.1
      simpa [IsCode, hk] using hCode
    exact hTrivia _ (of_decide_eq_true hIsTrivia)

theorem opensCall {p q : Nat} (h : s.Aligned t p q) (hOpens : s.OpensCall p) : t.OpensCall q := by
  obtain ⟨n, hpn, hKind, hBetween⟩ := hOpens
  have hCode : s.IsCode n := isCode_of_kind (by rw [hKind]; decide) (by rw [hKind]; decide)
  obtain ⟨m, hm⟩ := hSame.exists_aligned hCode
  exact ⟨m, (h.lt_iff_lt hm).mp hpn, hSame.kind_eq hm ▸ hKind,
    hSame.between (fun _ hk => hk) h hm hBetween⟩

theorem isDeclared {p q : Nat} (h : s.Aligned t p q) (hDeclared : s.IsDeclared p) :
    t.IsDeclared q := by
  obtain ⟨n, hnp, hKind, hBetween⟩ := hDeclared
  have hNone : ∀ k ∈ Kind.declarations, k ≠ .invalid ∧ k ∉ Kind.trivia := by decide
  have hTrivia : ∀ k ∈ Kind.trivia, k ∈ Kind.extend Kind.trivia [.bitwiseAnd] := by decide
  obtain ⟨m, hm⟩ := hSame.exists_aligned (isCode_of_kind (hNone _ hKind).1 (hNone _ hKind).2)
  exact ⟨m, (hm.lt_iff_lt h).mp hnp, hSame.kind_eq hm ▸ hKind, hSame.between hTrivia hm h hBetween⟩

/-- Of two names that match, both are called or none is. -/
theorem isFunctionCall_eq {p q : Nat} (h : s.Aligned t p q) :
    s.isFunctionCall p = t.isFunctionCall q := by
  rw [Bool.eq_iff_iff, isFunctionCall_iff, isFunctionCall_iff, hSame.kind_eq h]
  have hOpens : s.OpensCall p ↔ t.OpensCall q :=
    ⟨hSame.opensCall h, hSame.symm.opensCall h.symm⟩
  have hDeclared : s.IsDeclared p ↔ t.IsDeclared q :=
    ⟨hSame.isDeclared h, hSame.symm.isDeclared h.symm⟩
  rw [hOpens, hDeclared]

end SameCode

end TokenLint.Stream
