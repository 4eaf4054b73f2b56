import Mathlib.Data.List.Forall2
import TokenLint.Dump
import TokenLint.Token.Builder

/-!
# Reconstructing positions

A stream is in order if every token starts where the one before it ends, as in a stream that was
built token by token. Filling in walks over the same characters. So as long as nothing else is
known about the tokens than where they are, the walk is at the start of each of them, and a token
that has lost its line or its column gets back the one it had.

* `Cursor.sync_of_erased`: what is left of a position does not lead the walk astray.
* `fillFrom_of_erased`: whatever was erased comes back.
* `misplaced?_fillPositions`: without any positions, filling in puts a stream in order.
* `StreamBuilder.Made.inOrder`: streams that are built are in order.
-/

namespace TokenLint

/-- The second token is the first one, perhaps without its line or without its column. -/
structure Token.Erased (t e : Token) : Prop where
  kind : e.kind = t.kind
  name : e.name = t.name
  content : e.content = t.content
  line : e.line = t.line ∨ e.line = 0
  column : e.column = t.column ∨ e.column = 0

/-- The token without a position. -/
def Token.unplaced (t : Token) : Token := { t with line := 0, column := 0 }

theorem Token.erased_unplaced (t : Token) : t.Erased t.unplaced :=
  ⟨rfl, rfl, rfl, Or.inr rfl, Or.inr rfl⟩

/-! ## The walks -/

namespace Cell

/-- The place of a builder as one of the walk that fills in positions. -/
def cursor (c : Cell) : Cursor := ⟨c.line, c.column⟩

theorem cursor_advance (c : Cell) (t : Text) : (c.advance t).cursor = c.cursor.advance t := by
  unfold Cell.advance Cursor.advance
  symm
  apply List.foldl_hom cursor
  intro c r
  unfold Cursor.step
  split <;> rfl

end Cell

variable {c : Cell} {t e : Token} {s s' : Stream} {i : Nat}

/-- A token starts at a place. -/
def Token.StartsAt (t : Token) (c : Cell) : Prop := t.line = c.line ∧ t.column = c.column

/-- What is left of the position of a token that starts where the walk is does not lead it astray. -/
theorem Cursor.sync_of_erased (ht : t.StartsAt c) (he : t.Erased e) : c.cursor.sync e = c.cursor := by
  obtain ⟨hLine, hColumn⟩ := ht
  unfold Cursor.sync
  split
  · rename_i hKnown
    have hSame : e.line = c.cursor.line := by
      rcases he.line with h | h
      · exact h.trans hLine
      · rw [h] at hKnown
        exact absurd hKnown (by decide)
    rw [hSame, if_neg (not_not_intro rfl)]
    split
    · rename_i hPositive
      rcases he.column with h | h
      · rw [h, hColumn]
        rfl
      · rw [h] at hPositive
        exact absurd hPositive (by decide)
    · rfl
  · rfl

/-- A coordinate that was erased is the one of the walk, and one that was not is the same anyway. -/
theorem ite_of_erased {x y : Int64} (h : y = x ∨ y = 0) : (if y = 0 then x else y) = x := by
  split
  · rfl
  · exact h.resolve_right ‹_›

/-- A token that starts where the walk is gets back what it has lost. -/
theorem restore_of_erased (ht : t.StartsAt c) (he : t.Erased e) :
    { e with
      line := if e.line = 0 then c.line else e.line
      column := if e.column = 0 then c.column else e.column } = t := by
  obtain ⟨kind, name, content, line, column⟩ := t
  obtain ⟨hKind, hName, hContent, hLine, hColumn⟩ := he
  obtain ⟨rfl, rfl⟩ := ht
  rw [ite_of_erased hLine, ite_of_erased hColumn, hKind, hName, hContent]

/-! ## Streams in order -/

theorem misplacedFrom?_cons :
    Stream.misplacedFrom? i c (t :: s) = none ↔
      t.StartsAt c ∧ Stream.misplacedFrom? (i + 1) (c.advance t.content) s = none := by
  rw [Stream.misplacedFrom?]
  simp only [Bool.and_eq_true, decide_eq_true_eq]
  split
  · exact (and_iff_right ‹_›).symm
  · exact iff_of_false (Option.some_ne_none _) fun h => absurd h.1 ‹_›

/-- Whatever was erased of the positions of a stream in order comes back. -/
theorem fillFrom_of_erased (h : Stream.misplacedFrom? i c s = none)
    (he : List.Forall₂ Token.Erased s s') : fillFrom c.cursor s' = s := by
  induction he generalizing i c with
  | nil => rfl
  | @cons t e s s' hFirst _ ih =>
      obtain ⟨hStart, hRest⟩ := misplacedFrom?_cons.mp h
      rw [fillFrom, Cursor.sync_of_erased hStart hFirst]
      refine congrArg₂ List.cons (restore_of_erased hStart hFirst) ?_
      rw [hFirst.content, ← Cell.cursor_advance]
      exact ih hRest

/-- Where nothing is known, filling in says where every token starts. -/
theorem misplacedFrom?_fillFrom (i : Nat) (c : Cell) (s : Stream) :
    Stream.misplacedFrom? i c (fillFrom c.cursor (s.map Token.unplaced)) = none := by
  induction s generalizing i c with
  | nil => rfl
  | cons t s ih =>
      refine misplacedFrom?_cons.mpr ⟨⟨rfl, rfl⟩, ?_⟩
      have hSync : c.cursor.sync t.unplaced = c.cursor := rfl
      rw [hSync, ← Cell.cursor_advance]
      exact ih _ _

/-! ## Builders -/

namespace Stream

/-- The place behind the last token. -/
def endFrom (c : Cell) (s : Stream) : Cell := s.foldl (fun c t => c.advance t.content) c

theorem endFrom_concat (c : Cell) (s : Stream) (t : Token) :
    endFrom c (s ++ [t]) = (endFrom c s).advance t.content := List.foldl_concat _ _ _ _

end Stream

theorem misplacedFrom?_concat (h : Stream.misplacedFrom? i c s = none)
    (ht : t.StartsAt (Stream.endFrom c s)) : Stream.misplacedFrom? i c (s ++ [t]) = none := by
  induction s generalizing i c with
  | nil => exact misplacedFrom?_cons.mpr ⟨ht, rfl⟩
  | cons u s ih =>
      obtain ⟨hStart, hRest⟩ := misplacedFrom?_cons.mp h
      exact misplacedFrom?_cons.mpr ⟨hStart, ih hRest ht⟩

namespace StreamBuilder

/-- The builders that can be made: tokens are added to an empty one and named, in any order. -/
inductive Made : StreamBuilder → Prop
  | start : Made {}
  | add {b : StreamBuilder} (h : Made b) (kind : Kind) (content : Text) : Made (b.add kind content)
  | mark {b : StreamBuilder} (h : Made b) (name : Text) : Made (b.mark name)

/-- The tokens are in order, and the next one starts behind them. -/
structure InOrder (b : StreamBuilder) : Prop where
  misplaced?_eq : b.tokens.misplaced? = none
  next_eq : b.next = Stream.endFrom {} b.tokens

variable {b : StreamBuilder}

theorem InOrder.add (h : b.InOrder) (kind : Kind) (content : Text) :
    (b.add kind content).InOrder where
  misplaced?_eq := misplacedFrom?_concat h.misplaced?_eq (h.next_eq ▸ ⟨rfl, rfl⟩)
  next_eq := by
    show b.next.advance content = Stream.endFrom {} (b.tokens ++ [_])
    rw [Stream.endFrom_concat, ← h.next_eq]

theorem Made.inOrder (h : b.Made) : b.InOrder := by
  induction h with
  | start => exact ⟨rfl, rfl⟩
  | add _ kind content ih => exact ih.add kind content
  | mark _ name ih => exact ⟨ih.misplaced?_eq, ih.next_eq⟩

end StreamBuilder

/-- The streams in order are those that come back from whatever was erased of their positions, and
streams that are built are among them. -/
theorem positions_reconstructed :
    (∀ s : Stream, s.misplaced? = none ↔
      ∀ s', List.Forall₂ Token.Erased s s' → fillPositions s' = s) ∧
      ∀ b : StreamBuilder, b.Made → b.tokens.misplaced? = none := by
  refine ⟨fun s => ⟨fun h s' he => fillFrom_of_erased h he, fun h => ?_⟩,
    fun b hb => hb.inOrder.misplaced?_eq⟩
  have hErased : List.Forall₂ Token.Erased s (s.map Token.unplaced) :=
    List.forall₂_map_right_iff.mpr (List.forall₂_same.mpr fun t _ => t.erased_unplaced)
  rw [← h _ hErased]
  exact misplacedFrom?_fillFrom 0 {} s

/-- A comment of two lines, with a letter of two bytes. -/
def commentBuilder : StreamBuilder :=
  (((({} : StreamBuilder).add .openTag "<?php\n").add .comment "/* ä\n */").mark "c").add .variable
    "$x"

def commentStream : Stream :=
  [⟨.openTag, [], "<?php\n", 1, 1⟩, ⟨.comment, [], "/* ä\n */", 2, 1⟩, ⟨.variable, [], "$x", 3, 4⟩]

/-- The stream without one line, one column and one position. -/
def erasedStream : Stream :=
  [⟨.openTag, [], "<?php\n", 0, 1⟩, ⟨.comment, [], "/* ä\n */", 2, 0⟩, ⟨.variable, [], "$x", 0, 0⟩]

theorem positions_reconstructed_comment :
    commentBuilder.tokens = commentStream ∧ commentStream.misplaced? = none ∧
      fillPositions erasedStream = commentStream := by
  have hTokens : commentBuilder.tokens = commentStream := by decide +kernel
  have hMade : commentBuilder.Made := (((StreamBuilder.Made.start.add _ _).add _ _).mark _).add _ _
  have hOrder : commentStream.misplaced? = none := hTokens ▸ positions_reconstructed.2 _ hMade
  have hErased : List.Forall₂ Token.Erased commentStream erasedStream :=
    .cons ⟨rfl, rfl, rfl, Or.inr rfl, Or.inl rfl⟩ (.cons ⟨rfl, rfl, rfl, Or.inl rfl, Or.inr rfl⟩
      (.cons ⟨rfl, rfl, rfl, Or.inr rfl, Or.inr rfl⟩ .nil))
  exact ⟨hTokens, hOrder, (positions_reconstructed.1 _).mp hOrder _ hErased⟩

end TokenLint
