import Mathlib.Algebra.Group.Int.Defs
import Mathlib.Algebra.Group.Nat.Defs
import Mathlib.Algebra.GroupWithZero.Nat
import Mathlib.Data.List.Forall2
import TokenLint.Dump
import TokenLint.Proofs.Text.Utf8

/-!
# Filling in positions

Filling in touches nothing but lines and columns that are zero. The counters of the walk start
from one, or from a positive number that a token has. They may wrap around, but then they are far
below zero, and it would take as many steps again as there are positive numbers to come back to it.
So no position is zero in the end unless the tokens have that many characters.

* `completes_fillFrom`: what filling in keeps.
* `fillFrom_ne_zero`: all positions are known in the end.
* `fillFrom_of_known`: known positions stay.
* `fillPositions_settles`: filling in is conservative, and once is enough.
-/

namespace TokenLint

/-! ## What stays -/

/-- The second token is the first one, with another line or column where there was none. -/
structure Token.Completes (t t' : Token) : Prop where
  kind : t'.kind = t.kind
  name : t'.name = t.name
  content : t'.content = t.content
  line : t.line ≠ 0 → t'.line = t.line
  column : t.column ≠ 0 → t'.column = t.column

theorem completes_fillFrom (c : Cursor) (s : Stream) :
    List.Forall₂ Token.Completes s (fillFrom c s) := by
  induction s generalizing c with
  | nil => exact .nil
  | cons t s ih => exact .cons ⟨rfl, rfl, rfl, fun h => if_neg h, fun h => if_neg h⟩ (ih _)

theorem exists_of_mem_fillFrom {c : Cursor} {s : Stream} {t' : Token} (h : t' ∈ fillFrom c s) :
    ∃ t ∈ s, t.Completes t' := by
  obtain ⟨i, hi, rfl⟩ := List.getElem_of_mem h
  have hLength := (completes_fillFrom c s).length_eq
  exact ⟨s[i], List.getElem_mem _, (completes_fillFrom c s).get (hLength ▸ hi) hi⟩

/-- Known positions stay, wherever the walk is. -/
theorem fillFrom_of_known {s : Stream} (h : ∀ t ∈ s, t.line ≠ 0 ∧ t.column ≠ 0) (c : Cursor) :
    fillFrom c s = s := by
  induction s generalizing c with
  | nil => rfl
  | cons t s ih =>
      obtain ⟨⟨hLine, hColumn⟩, hRest⟩ := List.forall_mem_cons.mp h
      rw [fillFrom, ih hRest, if_neg hLine, if_neg hColumn]

/-! ## Counters -/

/-- The number is positive, or one that is reached in at most `n` steps from a positive one by
wrapping around. -/
def Counts (n : Nat) (x : Int64) : Prop := 0 < x.toInt ∨ x.toInt < -2 ^ 63 + n

theorem counts_of_pos {x : Int64} (h : 0 < x) (n : Nat) : Counts n x := by
  rw [Int64.lt_iff_toInt_lt] at h
  exact Or.inl h

theorem counts_one (n : Nat) : Counts n 1 := counts_of_pos (by decide) n

theorem Counts.mono {m n : Nat} {x : Int64} (h : Counts m x) (hmn : m ≤ n) : Counts n x := by
  rcases h with h | h
  · exact Or.inl h
  · exact Or.inr (by omega)

theorem Counts.succ {n : Nat} {x : Int64} (h : Counts n x) (hn : n < 2 ^ 63) :
    Counts (n + 1) (x + 1) := by
  have hOne : (1 : Int64).toInt = 1 := rfl
  have hLow := Int64.le_toInt x
  have hHigh := Int64.toInt_lt x
  by_cases hLast : x.toInt = 2 ^ 63 - 1
  · -- the only step that wraps around
    right
    rw [Int64.toInt_add, hLast, hOne]
    have hWrap : Int.bmod (2 ^ 63 - 1 + 1) (2 ^ 64) = -2 ^ 63 := by decide
    rw [hWrap]
    omega
  · have hNext : (x + 1).toInt = x.toInt + 1 := by
      rw [Int64.toInt_add, hOne]
      exact Int.bmod_eq_of_le (by omega) (by omega)
    rcases h with h | h
    · left
      omega
    · right
      omega

theorem Counts.ne_zero {n : Nat} {x : Int64} (h : Counts n x) (hn : n ≤ 2 ^ 63) : x ≠ 0 := by
  rintro rfl
  have hZero : (0 : Int64).toInt = 0 := rfl
  rcases h with h | h <;> omega

/-! ## The walk -/

namespace Cursor

/-- Both counters of the walk, after at most `n` steps. -/
structure Within (n : Nat) (c : Cursor) : Prop where
  line : Counts n c.line
  column : Counts n c.column

variable {n : Nat} {c : Cursor}

theorem Within.step (h : c.Within n) (hn : n < 2 ^ 63) (r : Rune) : (c.step r).Within (n + 1) := by
  unfold Cursor.step
  split
  · exact ⟨h.line.succ hn, counts_one _⟩
  · exact ⟨h.line.mono (Nat.le_succ n), h.column.succ hn⟩

theorem Within.advance (h : c.Within n) {t : Text} (hn : n + Text.runeCount t ≤ 2 ^ 63) :
    (c.advance t).Within (n + Text.runeCount t) := by
  unfold Cursor.advance Text.runeCount at *
  generalize Text.runes t = rs at *
  induction rs generalizing n c with
  | nil => exact h
  | cons r rs ih =>
      rw [List.length_cons] at hn ⊢
      have hRest := ih (h.step (by omega) r) (by omega)
      rwa [Nat.add_assoc, Nat.add_comm 1] at hRest

theorem Within.sync (h : c.Within n) (t : Token) : (c.sync t).Within n := by
  unfold Cursor.sync
  split
  · refine ⟨counts_of_pos ‹_› n, ?_⟩
    split
    · exact counts_of_pos ‹_› n
    split
    · exact counts_one n
    · exact h.column
  · exact h

end Cursor

/-- How many characters the contents of the tokens have. -/
def Stream.runeCount (s : Stream) : Nat := (s.map fun t => Text.runeCount t.content).sum

theorem Stream.runeCount_cons (t : Token) (s : Stream) :
    Stream.runeCount (t :: s) = Text.runeCount t.content + Stream.runeCount s := rfl

theorem fillFrom_ne_zero {n : Nat} {c : Cursor} (h : c.Within n) {s : Stream}
    (hn : n + s.runeCount ≤ 2 ^ 63) : ∀ t ∈ fillFrom c s, t.line ≠ 0 ∧ t.column ≠ 0 := by
  induction s generalizing n c with
  | nil =>
      intro t ht
      cases ht
  | cons t s ih =>
      rw [Stream.runeCount_cons] at hn
      have hHere := h.sync t
      rw [fillFrom, List.forall_mem_cons]
      constructor
      · constructor
        · show (if t.line = 0 then (c.sync t).line else t.line) ≠ 0
          split
          · exact hHere.line.ne_zero (by omega)
          · assumption
        · show (if t.column = 0 then (c.sync t).column else t.column) ≠ 0
          split
          · exact hHere.column.ne_zero (by omega)
          · assumption
      · exact ih (hHere.advance (by omega)) (by omega)

/-- With fewer than `2 ^ 63` characters all positions are known in the end. -/
theorem fillPositions_ne_zero {s : Stream} (h : s.runeCount < 2 ^ 63) :
    ∀ t ∈ fillPositions s, t.line ≠ 0 ∧ t.column ≠ 0 := by
  have hStart : Cursor.Within 0 {} := ⟨counts_one 0, counts_one 0⟩
  exact fillFrom_ne_zero hStart (by omega)

theorem Stream.runeCount_le_length_source (s : Stream) : s.runeCount ≤ s.source.length := by
  induction s with
  | nil => exact Nat.le_refl 0
  | cons t s ih =>
      have hContent := Text.runeCount_le_length t.content
      rw [Stream.runeCount_cons, Stream.source, List.flatMap_cons, List.length_append]
      exact Nat.add_le_add hContent ih

/-- Filling in changes nothing that is known and leaves nothing unknown, so there is nothing left to
do for a second time. -/
theorem fillPositions_settles {s : Stream} (h : s.source.length < 2 ^ 63) :
    (fillPositions s).length = s.length ∧
      List.Forall₂ Token.Completes s (fillPositions s) ∧
      (∀ t ∈ fillPositions s, t.line ≠ 0 ∧ t.column ≠ 0) ∧
      fillPositions (fillPositions s) = fillPositions s := by
  have hCompletes : List.Forall₂ Token.Completes s (fillPositions s) := completes_fillFrom {} s
  have hKnown : ∀ t ∈ fillPositions s, t.line ≠ 0 ∧ t.column ≠ 0 :=
    fillPositions_ne_zero (Nat.lt_of_le_of_lt s.runeCount_le_length_source h)
  exact ⟨hCompletes.length_eq.symm, hCompletes, hKnown, fillFrom_of_known hKnown {}⟩

/-- The last line there is, with a line feed in it, a negative column, and tokens without position. -/
def farStream : Stream :=
  [{ kind := .whitespace, name := "T_WHITESPACE", content := "\n", line := Int64.maxValue },
    { kind := .identifier, name := "T_STRING", content := "get", column := -3 },
    { kind := .openParenthesis, content := "(" }]

theorem fillPositions_settles_farStream :
    farStream.source.length < 2 ^ 63 ∧
      List.Forall₂ Token.Completes farStream (fillPositions farStream) ∧
      (∀ t ∈ fillPositions farStream, t.line ≠ 0 ∧ t.column ≠ 0) ∧
      fillPositions (fillPositions farStream) = fillPositions farStream := by
  have hLength : farStream.source.length < 2 ^ 63 := by decide
  exact ⟨hLength, (fillPositions_settles hLength).2⟩

end TokenLint
