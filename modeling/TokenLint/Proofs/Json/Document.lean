import Mathlib.Data.List.Forall2
import TokenLint.Proofs.Json.Literal

/-!
# Reading a printed value

`Gives e stack t w` says that a reader in the given state gets the value `w` from the text in front
of it. Every lexeme is one step of such a reader, so the lemmas here go from the end of a text to
its start: what is known about the rest of the text is known about the whole text, one lexeme
earlier. `Reads n bytes v` says this of a whole value whose containers are nested at most `n` deep.

* `reads_string`: a string is read with its stray bytes replaced, and a valid one as it is.
* `reads_indented`: a printed value is read as that value, wherever it stands.
* `parse_indented`: a printed value that is not nested too deep is read back.
-/

namespace TokenLint.Json

/-- The strings are valid, the numbers are integers, and containers are nested at most `n` deep. -/
inductive Printable : Nat → Json → Prop
  | null {n : Nat} : Printable n .null
  | bool {n : Nat} (b : Bool) : Printable n (.bool b)
  | int {n : Nat} (k : Int) : Printable n (.ofInt k)
  | string {n : Nat} {t : Text} (h : Text.isUtf8 t = true) : Printable n (.string t)
  | array {n : Nat} {items : List Json} (h : ∀ v ∈ items, Printable n v) :
      Printable (n + 1) (.array items)
  | object {n : Nat} {members : List (Text × Json)} (hKeys : ∀ m ∈ members, Text.isUtf8 m.1 = true)
      (h : ∀ m ∈ members, Printable n m.2) : Printable (n + 1) (.object members)

/-! ## The reader in front of a text -/

/-- The lexemes of the text, as long as every byte may take a step. -/
def Lexes (t : Text) (ls : List Lexeme) : Prop :=
  ∀ fuel, t.length ≤ fuel → lexFrom fuel t = some ls

theorem lexes_nil : Lexes [] [] := fun _ _ => by rw [lexFrom]

theorem Lexes.space {t : Text} {ls : List Lexeme} (h : Lexes t ls) {b : UInt8}
    (hb : isSpace b = true) : Lexes (b :: t) ls := by
  intro fuel hFuel
  rw [List.length_cons] at hFuel
  obtain ⟨fuel, rfl⟩ : ∃ k, fuel = k + 1 := ⟨fuel - 1, by omega⟩
  rw [lexFrom, if_pos hb, h fuel (by omega)]

theorem Lexes.lexeme {t : Text} {ls : List Lexeme} (h : Lexes t ls) {b : UInt8} {rest : Text}
    {x : Lexeme} (hb : isSpace b = false) (hx : lexeme b rest = some (x, t))
    (hLength : t.length ≤ rest.length) : Lexes (b :: rest) (x :: ls) := by
  intro fuel hFuel
  rw [List.length_cons] at hFuel
  obtain ⟨fuel, rfl⟩ : ∃ k, fuel = k + 1 := ⟨fuel - 1, by omega⟩
  rw [lexFrom, if_neg (by rw [hb]; exact Bool.false_ne_true), hx]
  show (lexFrom fuel t).map (x :: ·) = some (x :: ls)
  rw [h fuel (by omega)]
  rfl

/-- A reader in the state `e` with the open containers `stack` gets the value `w` from the text. -/
def Gives (e : Expecting) (stack : List Frame) (t : Text) (w : Json) : Prop :=
  ∃ ls, Lexes t ls ∧ build e stack ls = some w

variable {e e' : Expecting} {stack stack' : List Frame} {t : Text} {v w : Json} {n level : Nat}

theorem parse_of_gives (h : Gives .value [] t w) : parse t = some w := by
  obtain ⟨ls, hLex, hBuild⟩ := h
  rw [parse, lex, hLex t.length (Nat.le_refl _)]
  exact hBuild

theorem gives_nil (v : Json) : Gives (.after v) [] [] v := ⟨[], lexes_nil, rfl⟩

theorem Gives.space (h : Gives e stack t w) {b : UInt8} (hb : isSpace b = true) :
    Gives e stack (b :: t) w := by
  obtain ⟨ls, hLex, hBuild⟩ := h
  exact ⟨ls, hLex.space hb, hBuild⟩

theorem Gives.lexeme (h : Gives e' stack' t w) {b : UInt8} {rest : Text} {x : Lexeme}
    (hb : isSpace b = false) (hx : lexeme b rest = some (x, t)) (hLength : t.length ≤ rest.length)
    (hStep : ∀ ls, build e stack (x :: ls) = build e' stack' ls) :
    Gives e stack (b :: rest) w := by
  obtain ⟨ls, hLex, hBuild⟩ := h
  exact ⟨x :: ls, hLex.lexeme hb hx hLength, (hStep ls).trans hBuild⟩

/-- A lexeme of one byte. -/
theorem Gives.mark (h : Gives e' stack' t w) {b : UInt8} {x : Lexeme} (hb : isSpace b = false)
    (hx : ∀ rest, Json.lexeme b rest = some (x, rest))
    (hStep : ∀ ls, build e stack (x :: ls) = build e' stack' ls) : Gives e stack (b :: t) w :=
  h.lexeme hb (hx t) (Nat.le_refl _) hStep

/-- A string is read with its stray bytes replaced. -/
theorem Gives.string (h : Gives e' stack' t w) {k : Text}
    (hStep : ∀ ls, build e stack (.string (Text.toValid k) :: ls) = build e' stack' ls) :
    Gives e stack (renderString plain k ++ t) w := by
  have hRead := readString_renderString k t
  rw [renderString, List.cons_append, List.cons_append, List.append_assoc]
  refine h.lexeme rfl ?_ (by simp; omega) hStep
  show (readString ((Text.runes k).flatMap (escapeRune plain) ++ 34 :: t)).map _ = _
  rw [hRead]
  rfl

theorem Gives.lineStart (h : Gives e stack t w) (level : Nat) :
    Gives e stack (lineStart level ++ t) w := by
  have hBlanks : ∀ k, Gives e stack (List.replicate k 32 ++ t) w := by
    intro k
    induction k with
    | zero => exact h
    | succ k ih => exact ih.space rfl
  exact (hBlanks _).space rfl

theorem stops_lineStart (level : Nat) (t : Text) : Stops (lineStart level ++ t) := by
  intro b hb
  cases hb
  decide

theorem stops_comma (t : Text) : Stops (44 :: t) := by
  intro b hb
  cases hb
  decide

/-! ## Values -/

/-- A value may come next. -/
def Expecting.WantsValue (e : Expecting) : Prop := e = .value ∨ e = .firstItem

/-- A key may come next, after the given members. -/
def Expecting.WantsKey (members : List (Text × Json)) (e : Expecting) : Prop :=
  e = .key members ∨ (e = .firstKey ∧ members = [])

/-- Where a value is wanted and there is room for `n` more levels, the bytes are read as `v`. -/
def Reads (n : Nat) (bytes : Text) (v : Json) : Prop :=
  ∀ {e : Expecting} {stack : List Frame} {t : Text} {w : Json}, e.WantsValue →
    stack.length + n ≤ maxDepth → Stops t → Gives (.after v) stack t w → Gives e stack (bytes ++ t) w

theorem reads_string (k : Text) : Reads n (renderString plain k) (.string (Text.toValid k)) := by
  intro e stack t w he _ _ hRest
  apply hRest.string
  rcases he with rfl | rfl <;> exact fun _ => rfl

theorem reads_ofInt (k : Int) : Reads n (Text.ofInt k) (.ofInt k) := by
  intro e stack t w he _ hStops hRest
  obtain ⟨b, rest, hBytes, hLength, hb, hLexeme⟩ := lexeme_ofInt k hStops
  rw [hBytes]
  apply hRest.lexeme hb hLexeme hLength
  rcases he with rfl | rfl <;> exact fun _ => rfl

/-- The second list is what is read where the items of the first one are printed. -/
def ReadsItems (n level : Nat) (items items' : List Json) : Prop :=
  List.Forall₂ (fun v v' => Reads n (indented plain level v) v') items items'

theorem reads_items {items items' : List Json} (hItems : ReadsItems n (level + 1) items items')
    (hNe : items ≠ []) (hDepth : stack.length + (n + 1) ≤ maxDepth) (before : List Json)
    (he : e.WantsValue) (h : Gives (.after (.array (before.reverse ++ items'))) stack t w) :
    Gives e (.array before :: stack)
      (Text.join (44 :: lineStart (level + 1)) (indentedItems plain (level + 1) items) ++
        (lineStart level ++ 93 :: t)) w := by
  have hRoom : (Frame.array before :: stack).length + n ≤ maxDepth := by
    rw [List.length_cons]
    omega
  induction hItems generalizing before e with
  | nil => exact absurd rfl hNe
  | @cons v v' items items' hFirst hRest ih =>
      cases hRest with
      | nil =>
          apply hFirst he hRoom (stops_lineStart _ _)
          apply Gives.lineStart
          refine h.mark rfl (fun _ => rfl) fun ls => ?_
          rw [← List.reverse_cons]
          rfl
      | @cons next next' rest rest' hNext hMore =>
          have hJoin : Text.join (44 :: lineStart (level + 1))
              (indentedItems plain (level + 1) (v :: next :: rest)) ++ (lineStart level ++ 93 :: t) =
              indented plain (level + 1) v ++ (44 :: (lineStart (level + 1) ++
                (Text.join (44 :: lineStart (level + 1))
                  (indentedItems plain (level + 1) (next :: rest)) ++
                    (lineStart level ++ 93 :: t)))) := by
            simp only [indentedItems, Text.join, List.append_assoc, List.cons_append]
          rw [hJoin]
          apply hFirst he hRoom (stops_comma _)
          have hTail := ih (List.cons_ne_nil _ _) (v' :: before) (Or.inl rfl)
            (by rwa [List.reverse_cons, List.append_assoc]) hRoom
          exact (hTail.lineStart _).mark rfl (fun _ => rfl) fun _ => rfl

theorem reads_array {items items' : List Json} (hItems : ReadsItems n (level + 1) items items') :
    Reads (n + 1) (indented plain level (.array items)) (.array items') := by
  intro e stack t w he hDepth _ hRest
  have hOpen : ∀ ls, build e stack (.openArray :: ls) = build .firstItem (.array [] :: stack) ls := by
    intro ls
    have hRoom : stack.length < maxDepth := by omega
    rcases he with rfl | rfl <;> exact if_pos hRoom
  by_cases hNe : items = []
  · subst hNe
    cases hItems
    have hClose : Gives .firstItem (.array [] :: stack) (93 :: t) w :=
      hRest.mark rfl (fun _ => rfl) fun _ => rfl
    exact hClose.mark rfl (fun _ => rfl) hOpen
  · have hParts : (indentedItems plain (level + 1) items).isEmpty = false := by
      cases items with
      | nil => exact absurd rfl hNe
      | cons v rest => rfl
    have hAll := reads_items hItems hNe hDepth [] (Or.inr rfl) hRest
    rw [indented, block, hParts, if_neg Bool.false_ne_true]
    simp only [List.cons_append, List.append_assoc]
    exact (hAll.lineStart _).mark rfl (fun _ => rfl) hOpen

theorem gives_member {members : List (Text × Json)} {k : Text} {v' : Json}
    (he : e.WantsKey members) (hk : Text.isUtf8 k = true)
    (hValue : Reads n (indented plain (level + 1) v) v') (hRoom : stack.length + 1 + n ≤ maxDepth)
    (hStops : Stops t) (h : Gives (.after v') (.object members k :: stack) t w) :
    Gives e stack (renderString plain k ++ 58 :: 32 :: (indented plain (level + 1) v ++ t)) w := by
  have hInside : Gives .value (.object members k :: stack) (indented plain (level + 1) v ++ t) w :=
    hValue (Or.inl rfl) hRoom hStops h
  have hColon : Gives (.colon members k) stack (58 :: 32 :: (indented plain (level + 1) v ++ t)) w :=
    (hInside.space rfl).mark rfl (fun _ => rfl) fun _ => rfl
  apply hColon.string
  rw [Text.toValid_of_isUtf8 hk]
  rcases he with rfl | ⟨rfl, rfl⟩ <;> exact fun _ => rfl

/-- The second member is what is read where the first one is printed. -/
structure ReadsMember (n level : Nat) (m m' : Text × Json) : Prop where
  key : m'.1 = m.1
  isUtf8 : Text.isUtf8 m.1 = true
  value : Reads n (indented plain level m.2) m'.2

theorem reads_members {members members' : List (Text × Json)}
    (h : List.Forall₂ (ReadsMember n (level + 1)) members members') (hNe : members ≠ [])
    (hRoom : stack.length + 1 + n ≤ maxDepth) (before : List (Text × Json)) (he : e.WantsKey before)
    (hRest : Gives (.after (.object (before.reverse ++ members'))) stack t w) :
    Gives e stack
      (Text.join (44 :: lineStart (level + 1)) (indentedMembers plain (level + 1) members) ++
        (lineStart level ++ 125 :: t)) w := by
  induction h generalizing before e with
  | nil => exact absurd rfl hNe
  | @cons m m' members members' hFirst hMembers ih =>
      obtain ⟨k, v⟩ := m
      obtain ⟨k', v'⟩ := m'
      obtain ⟨hSame, hKey, hValue⟩ := hFirst
      obtain rfl : k' = k := hSame
      cases hMembers with
      | nil =>
          simp only [indentedMembers, Text.join, List.append_assoc, List.cons_append]
          apply gives_member he hKey hValue hRoom (stops_lineStart _ _)
          apply Gives.lineStart
          refine hRest.mark rfl (fun _ => rfl) fun ls => ?_
          rw [← List.reverse_cons]
          rfl
      | @cons next next' rest rest' hNext hMore =>
          have hTail := ih (List.cons_ne_nil _ _) ((k', v') :: before) (Or.inl rfl)
            (by rwa [List.reverse_cons, List.append_assoc])
          have hJoin : Text.join (44 :: lineStart (level + 1))
              (indentedMembers plain (level + 1) ((k', v) :: next :: rest)) =
              renderString plain k' ++ 58 :: 32 :: (indented plain (level + 1) v ++
                (44 :: lineStart (level + 1) ++ Text.join (44 :: lineStart (level + 1))
                  (indentedMembers plain (level + 1) (next :: rest)))) := by
            simp only [indentedMembers, Text.join, List.append_assoc, List.cons_append]
          rw [hJoin]
          simp only [List.append_assoc, List.cons_append]
          apply gives_member he hKey hValue hRoom (stops_comma _)
          exact (hTail.lineStart _).mark rfl (fun _ => rfl) fun _ => rfl

theorem reads_object {members members' : List (Text × Json)}
    (h : List.Forall₂ (ReadsMember n (level + 1)) members members') :
    Reads (n + 1) (indented plain level (.object members)) (.object members') := by
  intro e stack t w he hDepth _ hRest
  have hOpen : ∀ ls, build e stack (.openObject :: ls) = build .firstKey stack ls := by
    intro ls
    have hRoom : stack.length < maxDepth := by omega
    rcases he with rfl | rfl <;> exact if_pos hRoom
  by_cases hNe : members = []
  · subst hNe
    cases h
    have hClose : Gives .firstKey stack (125 :: t) w :=
      hRest.mark rfl (fun _ => rfl) fun _ => by cases stack <;> rfl
    exact hClose.mark rfl (fun _ => rfl) hOpen
  · have hParts : (indentedMembers plain (level + 1) members).isEmpty = false := by
      cases members with
      | nil => exact absurd rfl hNe
      | cons m rest => rfl
    have hAll := reads_members h hNe (by omega) [] (Or.inr ⟨rfl, rfl⟩) hRest
    rw [indented, block, hParts, if_neg Bool.false_ne_true]
    simp only [List.cons_append, List.append_assoc]
    exact (hAll.lineStart _).mark rfl (fun _ => rfl) hOpen

/-- A word that stands for a value. -/
theorem reads_word {b : UInt8} {letters : Text} {x : Lexeme} {v : Json} (hb : isSpace b = false)
    (hx : ∀ rest, lexeme b (letters ++ rest) = some (x, rest))
    (hStep : ∀ {e : Expecting}, e.WantsValue → ∀ stack ls,
      build e stack (x :: ls) = build (.after v) stack ls) : Reads n (b :: letters) v := by
  intro e stack t w he _ _ hRest
  have hLength : t.length ≤ (letters ++ t).length := (List.suffix_append letters t).length_le
  exact hRest.lexeme hb (hx t) hLength (hStep he stack)

/-- A printed value is read as that value, wherever it stands. -/
theorem reads_indented (h : Printable n v) (level : Nat) : Reads n (indented plain level v) v := by
  induction h generalizing level with
  | null =>
      apply reads_word (x := .null) rfl (fun _ => rfl)
      rintro e (rfl | rfl) <;> exact fun _ _ => rfl
  | bool b =>
      cases b with
      | false =>
          apply reads_word (x := .bool false) rfl (fun _ => rfl)
          rintro e (rfl | rfl) <;> exact fun _ _ => rfl
      | true =>
          apply reads_word (x := .bool true) rfl (fun _ => rfl)
          rintro e (rfl | rfl) <;> exact fun _ _ => rfl
  | int k => exact reads_ofInt k
  | @string n t h =>
      have hRead : Reads n (renderString plain t) (.string (Text.toValid t)) := reads_string t
      rwa [Text.toValid_of_isUtf8 h] at hRead
  | array _ ih => exact reads_array (List.forall₂_same.mpr fun v hv => ih v hv _)
  | object hKeys _ ih =>
      exact reads_object (List.forall₂_same.mpr fun m hm => ⟨rfl, hKeys m hm, ih m hm _⟩)

/-- Bytes that are read as a value, and nothing behind them, are parsed as that value. -/
theorem parse_of_reads {bytes : Text} (h : Reads maxDepth bytes v) : parse bytes = some v := by
  have hStops : Stops [] := by
    intro b hb
    cases hb
  have hRead := h (Or.inl rfl) (Nat.le_of_eq (Nat.zero_add _)) hStops (gives_nil v)
  rw [List.append_nil] at hRead
  exact parse_of_gives hRead

/-- A printed value that is not nested too deep is read back. -/
theorem parse_indented (h : Printable maxDepth v) : parse (indented plain 0 v) = some v :=
  parse_of_reads (reads_indented h 0)

end TokenLint.Json
