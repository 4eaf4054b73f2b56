import Mathlib.Algebra.GroupWithZero.Nat
import TokenLint.Proofs.Json.Margin

/-!
# The size of a value that was read

Every lexeme takes up at least as many bytes of the text as it has characters, and the reader
neither copies nor makes up lexemes. So the strings of a value have no more characters than the text
it was read from has bytes.

* `characters_of_lexFrom`: the lexemes of a text.
* `characters_of_build`: the value that is assembled from lexemes.
* `characters_of_parse`: the value that is read from a text.
-/

namespace TokenLint.Json

/-- How many characters the strings of a value have. Keys do not count. -/
def characters : Json → Nat
  | .null | .bool _ | .number _ => 0
  | .string t => Text.runeCount t
  | .array items => (items.map characters).sum
  | .object members => (members.map fun m => characters m.2).sum
termination_by v => sizeOf v
decreasing_by
  · have hItem := List.sizeOf_lt_of_mem ‹_›
    simp only [Json.array.sizeOf_spec]
    omega
  · have hMember := List.sizeOf_lt_of_mem ‹_›
    cases m
    simp only [Json.object.sizeOf_spec, Prod.mk.sizeOf_spec] at *
    omega

/-- How many characters a lexeme has. Only strings count. -/
def Lexeme.characters : Lexeme → Nat
  | .string t => Text.runeCount t
  | _ => 0

/-- How many characters the finished values of an open container have. -/
def Frame.characters : Frame → Nat
  | .array items => (items.map Json.characters).sum
  | .object members _ => (members.map fun m => m.2.characters).sum

/-- How many characters the finished values have that a reader keeps in its state. -/
def Expecting.characters : Expecting → Nat
  | .after v => v.characters
  | .key members | .colon members _ => (members.map fun m => m.2.characters).sum
  | _ => 0

/-! ## Lexemes -/

/-- How many bytes a piece of a literal takes up. -/
def Piece.width : Piece → Nat
  | .byte _ => 1
  | .escape _ => 6

theorem width_of_pieces {t rest : Text} {ps : List Piece} (h : pieces t = some (ps, rest)) :
    (ps.map Piece.width).sum + rest.length ≤ t.length := by
  -- the cases without an escape or a byte that is taken give nothing
  fun_induction pieces t generalizing ps rest <;> cases h
  case case2 => simp
  case case3 hPieces hQuad ih =>
      have hRest := ih hPieces
      simp only [List.map_cons, List.sum_cons, List.length_cons, Piece.width] at *
      omega
  case case5 hPieces hLetter ih =>
      have hRest := ih hPieces
      simp only [List.map_cons, List.sum_cons, List.length_cons, Piece.width] at *
      omega
  case case8 hPieces ih =>
      have hRest := ih hPieces
      simp only [List.map_cons, List.sum_cons, List.length_cons, Piece.width] at *
      omega

theorem length_assemble_le (ps : List Piece) :
    (assemble ps).length ≤ (ps.map Piece.width).sum := by
  have hRune := Text.length_encodeRune_le
  fun_induction assemble ps with
  | case1 => exact Nat.le_refl 0
  | case2 b rest ih =>
      simp only [List.map_cons, List.sum_cons, List.length_cons, Piece.width] at *
      omega
  | case3 high low rest hPair ih =>
      have hPairRune := hRune (0x10000 + (high - 0xD800) * 1024 + (low - 0xDC00))
      simp only [List.map_cons, List.sum_cons, List.length_append, Piece.width] at *
      omega
  | case4 high low rest hPair ih =>
      have hHighRune := hRune high
      simp only [List.map_cons, List.sum_cons, List.length_append, Piece.width] at *
      omega
  | case5 code rest hSingle ih =>
      have hCodeRune := hRune code
      simp only [List.map_cons, List.sum_cons, List.length_append, Piece.width] at *
      omega

theorem runeCount_of_readString {t u rest : Text} (h : readString t = some (u, rest)) :
    Text.runeCount u + rest.length ≤ t.length := by
  obtain ⟨⟨ps, after⟩, hPieces, hEq⟩ := Option.map_eq_some_iff.mp h
  obtain ⟨rfl, rfl⟩ := Prod.mk.inj hEq
  have hWidth := width_of_pieces hPieces
  have hLength := length_assemble_le ps
  have hCount := Text.runeCount_le_length (assemble ps)
  rw [Text.runeCount_toValid]
  omega

theorem readString_of_lexeme {b : UInt8} {t rest u : Text}
    (h : lexeme b t = some (.string u, rest)) : readString t = some (u, rest) := by
  have hNumber : ∀ {v : Text} {f : Text → Text},
      (readUnsigned v).map (fun p => (Lexeme.number (f p.1), p.2)) ≠ some (.string u, rest) := by
    intro v f hMap
    obtain ⟨_, -, hEq⟩ := Option.map_eq_some_iff.mp hMap
    cases hEq
  rw [lexeme] at h
  iterate 6
    rcases ite_eq_iff.mp h with ⟨-, h⟩ | ⟨-, h⟩
    · cases h
  rcases ite_eq_iff.mp h with ⟨-, h⟩ | ⟨-, h⟩
  · obtain ⟨p, hRead, hEq⟩ := Option.map_eq_some_iff.mp h
    cases hEq
    exact hRead
  rcases ite_eq_iff.mp h with ⟨-, h⟩ | ⟨-, h⟩
  · exact absurd h (hNumber (f := fun n => 45 :: n))
  rcases ite_eq_iff.mp h with ⟨-, h⟩ | ⟨-, h⟩
  · exact absurd h (hNumber (f := fun n => n))
  -- none of the words is a string
  split at h <;> cases h

/-- Only the characters of a string count, and it takes up as many bytes. -/
theorem characters_of_lexeme {b : UInt8} {t rest : Text} {x : Lexeme}
    (h : lexeme b t = some (x, rest)) : x.characters + rest.length ≤ t.length + 1 := by
  cases x with
  | string u =>
      have hString := runeCount_of_readString (readString_of_lexeme h)
      simp only [Lexeme.characters]
      omega
  | _ =>
      obtain ⟨body, rfl, -⟩ := (takesLexeme_of_lexeme h).again
      have hRest := (List.suffix_append body rest).length_le
      simp only [Lexeme.characters]
      omega

/-- Every lexeme takes up at least as many bytes as it has characters. -/
theorem characters_of_lexFrom {fuel : Nat} {t : Text} {ls : List Lexeme}
    (h : lexFrom fuel t = some ls) : (ls.map Lexeme.characters).sum ≤ t.length := by
  fun_induction lexFrom fuel t generalizing ls with
  | case1 =>
      cases h
      exact Nat.le_refl 0
  | case2 => cases h
  | case3 fuel b rest hSpace ih =>
      have hRest := ih h
      rw [List.length_cons]
      omega
  | case4 => cases h
  | case5 fuel b rest hSpace x after hLexeme ih =>
      obtain ⟨ls', hRest, rfl⟩ := Option.map_eq_some_iff.mp h
      have hFirst := characters_of_lexeme hLexeme
      have hSum := ih hRest
      rw [List.map_cons, List.sum_cons, List.length_cons]
      omega

/-! ## Values -/

theorem characters_of_build {e : Expecting} {stack : List Frame} {ls : List Lexeme} {v : Json}
    (h : build e stack ls = some v) :
    v.characters ≤ e.characters + (stack.map Frame.characters).sum +
      (ls.map Lexeme.characters).sum := by
  fun_induction build e stack ls
  all_goals try cases h
  case case1 => simp [Expecting.characters]
  -- no step raises the number of characters in the state and the lexemes in front of it
  all_goals
    rename_i ih
    have hRest := ih h
    simp only [Expecting.characters, Frame.characters, Lexeme.characters, characters, List.map_cons,
      List.map_reverse, List.sum_reverse, List.sum_cons, List.map_nil, List.sum_nil] at hRest ⊢
    omega

/-- The strings of a value have no more characters than the text it was read from has bytes. -/
theorem characters_of_parse {t : Text} {v : Json} (h : parse t = some v) :
    v.characters ≤ t.length := by
  obtain ⟨ls, hLex, hBuild⟩ := Option.bind_eq_some_iff.mp h
  have hLexemes := characters_of_lexFrom hLex
  have hValue := characters_of_build hBuild
  simp only [Expecting.characters, List.map_nil, List.sum_nil] at hValue
  omega

end TokenLint.Json
