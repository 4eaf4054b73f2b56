import TokenLint.Json.Reader
import TokenLint.Proofs.Text.Decimal
import TokenLint.Proofs.Text.Utf8

/-!
# Reading literals that were written

A text is written in quotes, rune by rune, and the reader puts together the same bytes, but for
stray ones: in their place stands the replacement character. An integer is written in decimal
digits and read back, whatever follows it that cannot belong to a number.

* `readString_renderString`: strings.
* `lexeme_ofInt`, `int64?_ofInt`: integers.
* `int64?_eq_some_iff`: which literals are read as integers.
-/

namespace TokenLint.Json

/-! ## Strings -/

/-- The literal is read up to its closing quote as pieces of the text. -/
def Spells (literal text after : Text) : Prop :=
  ∃ ps, pieces literal = some (ps, after) ∧ assemble ps = text

variable {literal text after : Text}

theorem spells_quote (after : Text) : Spells (34 :: after) [] after := ⟨[], rfl, rfl⟩

theorem Spells.byte (h : Spells literal text after) {b : UInt8} (hLow : ¬ b < 0x20) (hQuote : b ≠ 34)
    (hEscape : b ≠ 92) : Spells (b :: literal) (b :: text) after := by
  obtain ⟨ps, hPieces, rfl⟩ := h
  refine ⟨.byte b :: ps, ?_, rfl⟩
  rw [pieces, hPieces, if_neg (by simp [hLow, hEscape])]
  all_goals simp_all

theorem Spells.bytes (h : Spells literal text after) {t : Text}
    (ht : ∀ b ∈ t, ¬ b < 0x20 ∧ b ≠ 34 ∧ b ≠ 92) : Spells (t ++ literal) (t ++ text) after := by
  induction t with
  | nil => exact h
  | cons b t ih =>
      obtain ⟨⟨hLow, hQuote, hEscape⟩, hRest⟩ := List.forall_mem_cons.mp ht
      exact (ih hRest).byte hLow hQuote hEscape

theorem Spells.letter (h : Spells literal text after) {a b : UInt8} (ha : a ≠ 117)
    (hLetter : letterEscape? a = some b) : Spells (92 :: a :: literal) (b :: text) after := by
  obtain ⟨ps, hPieces, rfl⟩ := h
  refine ⟨.byte b :: ps, ?_, rfl⟩
  rw [pieces, hLetter, hPieces]
  simp_all

theorem assemble_escape {code : Nat} (h : isHighSurrogate code = false) (ps : List Piece) :
    assemble (.escape code :: ps) = Text.encodeRune code ++ assemble ps := by
  rcases ps with _ | ⟨b | low, ps⟩
  · rfl
  · rfl
  · rw [assemble, h, Bool.false_and, if_neg Bool.false_ne_true]

theorem hexValue?_hexDigit (n : Nat) : hexValue? (Text.hexDigit (n % 16)) = some (n % 16) := by
  have hAll : ∀ k : Fin 16, hexValue? (Text.hexDigit k) = some k.val := by decide
  exact hAll ⟨n % 16, Nat.mod_lt n (by decide)⟩

theorem Spells.escape (h : Spells literal text after) {code : Nat} (hCode : code < 0x10000)
    (hHigh : isHighSurrogate code = false) :
    Spells ("\\u" ++ Text.hexFixed 4 code ++ literal) (Text.encodeRune code ++ text) after := by
  obtain ⟨ps, hPieces, rfl⟩ := h
  refine ⟨.escape code :: ps, ?_, assemble_escape hHigh ps⟩
  have hDigits : Text.hexFixed 4 code = [Text.hexDigit (code / 16 / 16 / 16 % 16),
    Text.hexDigit (code / 16 / 16 % 16), Text.hexDigit (code / 16 % 16),
    Text.hexDigit (code % 16)] := rfl
  have hQuad : hexQuad? (Text.hexDigit (code / 16 / 16 / 16 % 16))
      (Text.hexDigit (code / 16 / 16 % 16)) (Text.hexDigit (code / 16 % 16))
      (Text.hexDigit (code % 16)) = some code := by
    simp only [hexQuad?, hexValue?_hexDigit]
    show some _ = some code
    congr 1
    omega
  rw [hDigits]
  show pieces (92 :: 117 :: _ :: _ :: _ :: _ :: literal) = _
  rw [pieces, hQuad, hPieces]

/-- The bytes of a character stand for themselves, unless it is one that must be escaped. -/
theorem plain_of_mem_encodeRune {code : Nat} (hLow : ¬ code < 0x20) (hQuote : code ≠ 34)
    (hEscape : code ≠ 92) : ∀ b ∈ Text.encodeRune code, ¬ b < 0x20 ∧ b ≠ 34 ∧ b ≠ 92 := by
  have hByte : ∀ n : Nat, 0x20 ≤ n → n < 0x100 → n ≠ 34 → n ≠ 92 →
      ¬ n.toUInt8 < 0x20 ∧ n.toUInt8 ≠ 34 ∧ n.toUInt8 ≠ 92 := by
    intro n hn hn' hn34 hn92
    simp [UInt8.lt_iff_toNat_lt, ← UInt8.toNat_inj, Nat.mod_eq_of_lt hn', hn34, hn92]
    omega
  unfold Text.encodeRune
  split
  · intro b hb
    rw [List.mem_singleton.mp hb]
    exact hByte code (by omega) (by omega) hQuote hEscape
  split
  · simp only [List.forall_mem_cons]
    refine ⟨hByte _ (by omega) (by omega) (by omega) (by omega),
      hByte _ (by omega) (by omega) (by omega) (by omega), List.forall_mem_nil _⟩
  split
  · simp only [List.forall_mem_cons]
    exact ⟨by decide, by decide, by decide, List.forall_mem_nil _⟩
  rename_i hScalar
  simp only [Bool.or_eq_true, Bool.and_eq_true, decide_eq_true_eq] at hScalar
  split
  · simp only [List.forall_mem_cons]
    refine ⟨hByte _ (by omega) (by omega) (by omega) (by omega),
      hByte _ (by omega) (by omega) (by omega) (by omega),
      hByte _ (by omega) (by omega) (by omega) (by omega), List.forall_mem_nil _⟩
  · simp only [List.forall_mem_cons]
    refine ⟨hByte _ (by omega) (by omega) (by omega) (by omega),
      hByte _ (by omega) (by omega) (by omega) (by omega),
      hByte _ (by omega) (by omega) (by omega) (by omega),
      hByte _ (by omega) (by omega) (by omega) (by omega), List.forall_mem_nil _⟩

theorem Spells.rune (h : Spells literal text after) {r : Rune} {t : Text} (hr : r ∈ Text.runes t)
    (hValid : r.valid = true) : Spells (escapeRune plain r ++ literal) (r.bytes ++ text) after := by
  have hBytes := Text.bytes_eq_encodeRune hr hValid
  have hLetter : ∀ {a b : UInt8}, r.code = b.toNat → b.toNat < 0x80 → a ≠ 117 →
      letterEscape? a = some b → Spells (92 :: a :: literal) (r.bytes ++ text) after := by
    intro a b hCode hb ha hEscape
    rw [hBytes, hCode, Text.encodeRune_one hb rfl]
    exact h.letter ha hEscape
  unfold escapeRune
  simp only [hValid, plain, beq_iff_eq, Bool.or_eq_true, Bool.false_and, Bool.or_false,
    decide_eq_true_eq]
  -- in the order of the cases of `escapeRune`
  split
  · cases ‹_›
  split
  · rename_i hCode
    rcases hCode with hCode | hCode
    · rw [hBytes, hCode]
      exact h.letter (by decide) rfl
    · rw [hBytes, hCode]
      exact h.letter (by decide) rfl
  rename_i hPlain
  split
  · exact hLetter (b := 8) ‹_› (by decide) (by decide) rfl
  split
  · exact hLetter (b := 12) ‹_› (by decide) (by decide) rfl
  split
  · exact hLetter (b := 10) ‹_› (by decide) (by decide) rfl
  split
  · exact hLetter (b := 13) ‹_› (by decide) (by decide) rfl
  split
  · exact hLetter (b := 9) ‹_› (by decide) (by decide) rfl
  split
  · rw [hBytes]
    exact h.escape (by omega) (by simp [isHighSurrogate]; omega)
  · apply h.bytes
    rw [hBytes]
    exact plain_of_mem_encodeRune (by omega) (by omega) (by omega)

/-- A stray byte is written as an escape. -/
theorem Spells.stray (h : Spells literal text after) {r : Rune} (hInvalid : ¬ r.valid = true) :
    Spells (escapeRune plain r ++ literal) (Text.encodeRune Text.replacement ++ text) after := by
  have hCode : Text.replacement < 0x10000 := by decide
  rw [escapeRune, if_pos (by simpa using hInvalid)]
  exact h.escape hCode (by decide)

theorem spells_runes {t : Text} {rs : List Rune} (hRunes : ∀ r ∈ rs, r ∈ Text.runes t)
    (after : Text) :
    Spells (rs.flatMap (escapeRune plain) ++ 34 :: after)
      (rs.flatMap fun r => if r.valid then r.bytes else Text.encodeRune Text.replacement) after := by
  induction rs with
  | nil => exact spells_quote after
  | cons r rs ih =>
      obtain ⟨hFirst, hRest⟩ := List.forall_mem_cons.mp hRunes
      rw [List.flatMap_cons, List.append_assoc, List.flatMap_cons]
      split
      · exact (ih hRest).rune hFirst ‹_›
      · exact (ih hRest).stray ‹_›

/-- A text is read back from its literal, with stray bytes replaced. -/
theorem readString_renderString (t after : Text) :
    readString ((Text.runes t).flatMap (escapeRune plain) ++ 34 :: after) =
      some (Text.toValid t, after) := by
  obtain ⟨ps, hPieces, hAssemble⟩ := spells_runes (t := t) (fun r hr => hr) after
  rw [readString, hPieces, Option.map_some]
  show some (Text.toValid (assemble ps), after) = _
  rw [hAssemble]
  exact congrArg (fun u => some (u, after)) (Text.toValid_of_isUtf8 (Text.isUtf8_toValid t))

/-! ## Numbers -/

/-- The text does not prolong a number in front of it. -/
def Stops (t : Text) : Prop := ∀ b ∈ t.head?, Text.isDigit b = false ∧ b ≠ 46 ∧ b ≠ 101 ∧ b ≠ 69

theorem Stops.fractionPart {t : Text} (h : Stops t) : fractionPart t = some ([], t) := by
  unfold Json.fractionPart
  split
  · exact absurd rfl (h 46 rfl).2.1
  · rfl

theorem Stops.exponentPart {t : Text} (h : Stops t) : exponentPart t = some ([], t) := by
  cases t with
  | nil => rfl
  | cons b t =>
      obtain ⟨-, -, hLower, hUpper⟩ := h b rfl
      simp [Json.exponentPart, hLower, hUpper]

theorem someDigits_append {ds t : Text} (hDigits : ∀ b ∈ ds, Text.isDigit b = true) (hNe : ds ≠ [])
    (h : ∀ b ∈ t.head?, Text.isDigit b = false) : someDigits (ds ++ t) = some (ds, t) := by
  have hTake : (ds ++ t).takeWhile Text.isDigit = ds := by
    rw [List.takeWhile_append_of_pos hDigits]
    cases t with
    | nil => rw [List.takeWhile_nil, List.append_nil]
    | cons b t => rw [List.takeWhile_cons_of_neg (by simp [h b rfl]), List.append_nil]
  rw [someDigits, hTake, List.drop_left, if_neg (by simpa using hNe)]

theorem integerPart_ofNat (n : Nat) {t : Text} (h : Stops t) :
    integerPart (Text.ofNat n ++ t) = some (Text.ofNat n, t) := by
  by_cases hZero : n = 0
  · subst hZero
    rfl
  · have hDigits := someDigits_append (fun _ => Text.isDigit_of_mem_ofNat) (Text.ofNat_ne_nil n)
      fun b hb => (h b hb).1
    obtain ⟨b, rest, hHead, hb⟩ := Text.head_ofNat hZero
    rw [hHead] at hDigits ⊢
    unfold integerPart
    split
    · rename_i hCons
      exact absurd (List.cons.inj hCons).1 hb
    · exact hDigits

theorem readUnsigned_ofNat (n : Nat) {t : Text} (h : Stops t) :
    readUnsigned (Text.ofNat n ++ t) = some (Text.ofNat n, t) := by
  rw [readUnsigned, integerPart_ofNat n h]
  show (fractionPart t >>= _) = _
  rw [h.fractionPart]
  show (exponentPart t >>= _) = _
  rw [h.exponentPart]
  show some _ = _
  rw [List.append_nil, List.append_nil]

theorem ne_of_isDigit {b c : UInt8} (hb : Text.isDigit b = true) (hc : Text.isDigit c = false) :
    b ≠ c := by
  rintro rfl
  rw [hb] at hc
  cases hc

theorem lexeme_digit {b : UInt8} (h : Text.isDigit b = true) (rest : Text) :
    lexeme b rest = (readUnsigned (b :: rest)).map fun (n, rest) => (.number n, rest) := by
  have hNe := fun c => ne_of_isDigit (c := c) h
  rw [lexeme, if_neg (hNe 91 rfl), if_neg (hNe 93 rfl), if_neg (hNe 123 rfl), if_neg (hNe 125 rfl),
    if_neg (hNe 44 rfl), if_neg (hNe 58 rfl), if_neg (hNe 34 rfl), if_neg (hNe 45 rfl), if_pos h]

theorem isSpace_of_isDigit {b : UInt8} (h : Text.isDigit b = true) : isSpace b = false := by
  have hNe := fun c => ne_of_isDigit (c := c) h
  simp [isSpace, hNe 32 rfl, hNe 9 rfl, hNe 10 rfl, hNe 13 rfl]

/-- An integer is one lexeme. -/
theorem lexeme_ofInt (n : Int) {t : Text} (h : Stops t) :
    ∃ b rest, Text.ofInt n ++ t = b :: rest ∧ t.length ≤ rest.length ∧ isSpace b = false ∧
      lexeme b rest = some (.number (Text.ofInt n), t) := by
  cases n with
  | ofNat n =>
      have hRead := readUnsigned_ofNat n h
      obtain ⟨b, digits, hHead⟩ := List.exists_cons_of_ne_nil (Text.ofNat_ne_nil n)
      have hDigit : Text.isDigit b = true :=
        Text.isDigit_of_mem_ofNat (n := n) (hHead ▸ List.mem_cons_self)
      refine ⟨b, digits ++ t, ?_, by simp, isSpace_of_isDigit hDigit, ?_⟩
      · show Text.ofNat n ++ t = _
        rw [hHead]
        rfl
      · rw [lexeme_digit hDigit, ← List.cons_append, ← hHead, hRead]
        rfl
  | negSucc n =>
      have hRead := readUnsigned_ofNat (n + 1) h
      refine ⟨45, Text.ofNat (n + 1) ++ t, rfl, by simp, rfl, ?_⟩
      show (readUnsigned (Text.ofNat (n + 1) ++ t)).map _ = _
      rw [hRead]
      rfl

/-- The literal of an integer: digits, perhaps with a sign in front. It has neither a fraction nor an
exponent. -/
def IsInteger (literal : Text) (n : Int) : Prop :=
  ∃ digits : Text, digits ≠ [] ∧ (∀ b ∈ digits, Text.isDigit b = true) ∧
    (literal = digits ∧ n = Text.digitsValue digits ∨
      literal = 45 :: digits ∧ n = -(Text.digitsValue digits : Int))

theorem isInteger_ofInt (n : Int) : IsInteger (Text.ofInt n) n := by
  have hDigits : ∀ n : Nat, ∀ b ∈ Text.ofNat n, Text.isDigit b = true := fun n _ =>
    Text.isDigit_of_mem_ofNat
  cases n with
  | ofNat n =>
      exact ⟨Text.ofNat n, Text.ofNat_ne_nil n, hDigits n,
        Or.inl ⟨rfl, congrArg Int.ofNat (Text.digitsValue_ofNat n).symm⟩⟩
  | negSucc n =>
      refine ⟨Text.ofNat (n + 1), Text.ofNat_ne_nil _, hDigits _, Or.inr ⟨rfl, ?_⟩⟩
      rw [Text.digitsValue_ofNat]
      rfl

theorem isInteger_minus {digits : Text} {n : Int} :
    IsInteger (45 :: digits) n ↔
      (digits ≠ [] ∧ ∀ b ∈ digits, Text.isDigit b = true) ∧
        n = -(Text.digitsValue digits : Int) := by
  constructor
  · rintro ⟨ds, hNe, hDigits, ⟨rfl, -⟩ | ⟨hEq, hn⟩⟩
    · cases hDigits 45 List.mem_cons_self
    · cases hEq
      exact ⟨⟨hNe, hDigits⟩, hn⟩
  · rintro ⟨⟨hNe, hDigits⟩, hn⟩
    exact ⟨digits, hNe, hDigits, Or.inr ⟨rfl, hn⟩⟩

theorem isInteger_unsigned {digits : Text} (h : ∀ ds, digits ≠ 45 :: ds) {n : Int} :
    IsInteger digits n ↔
      (digits ≠ [] ∧ ∀ b ∈ digits, Text.isDigit b = true) ∧ n = Text.digitsValue digits := by
  constructor
  · rintro ⟨ds, hNe, hDigits, ⟨rfl, hn⟩ | ⟨hEq, -⟩⟩
    · exact ⟨⟨hNe, hDigits⟩, hn⟩
    · exact absurd hEq (h ds)
  · rintro ⟨⟨hNe, hDigits⟩, hn⟩
    exact ⟨digits, hNe, hDigits, Or.inl ⟨rfl, hn⟩⟩

/-- A literal is read as an integer if it writes one that fits. -/
theorem int64?_eq_some_iff {literal : Text} {x : Int64} :
    int64? literal = some x ↔ IsInteger literal x.toInt := by
  have hFits : ∀ n : Int, ((-9223372036854775808 ≤ n ∧ n ≤ 9223372036854775807) ∧
      some (Int64.ofInt n) = some x) ↔ x.toInt = n := by
    intro n
    have hLow := Int64.le_toInt x
    have hHigh := Int64.toInt_lt x
    constructor
    · rintro ⟨hRange, h⟩
      cases h
      exact Int64.toInt_ofInt_of_le (by omega) (by omega)
    · rintro rfl
      exact ⟨by omega, by rw [Int64.ofInt_toInt]⟩
  unfold int64?
  split
  rename_i negative digits hMatch
  simp only [Bool.and_eq_true, Bool.not_eq_true', List.isEmpty_eq_false_iff, List.all_eq_true,
    decide_eq_true_eq, Option.ite_none_right_eq_some, hFits]
  split at hMatch
  · cases hMatch
    rw [isInteger_minus, if_pos rfl]
  · rename_i hSign
    cases hMatch
    rw [isInteger_unsigned hSign, if_neg Bool.false_ne_true]

/-- An integer is read back from its digits. -/
theorem int64?_ofInt (x : Int64) : int64? (Text.ofInt x.toInt) = some x :=
  int64?_eq_some_iff.mpr (isInteger_ofInt x.toInt)

end TokenLint.Json
