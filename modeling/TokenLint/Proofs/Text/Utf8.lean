import Mathlib.Data.List.Basic
import TokenLint.Text.Utf8

/-!
# Runes of a text

The runes of a text are cut off one by one from the left. The first bytes of a text alone decide
which rune it starts with, so a text can be cut between two runes, and a text can be put behind
another one if it does not start in the middle of a rune.

* `encodeRune_of_scalar?`: the bytes of a scalar value are its encoding.
* `runes_append`: the runes of two texts one after the other.
* `runes_ofRunes`: neighbouring runes of a text are the runes of their own bytes.
* `toValid_of_isUtf8`, `runeCount_toValid`: replacing stray bytes keeps the number of runes, and
  changes nothing where there are none.
-/

namespace TokenLint.Text

/-! ## The first rune -/

theorem scalar?_append {b : UInt8} {u : Text} {p : Nat × Nat} (h : scalar? b u = some p)
    (w : Text) : scalar? b (u ++ w) = some p := by
  unfold scalar? at h ⊢
  rcases u with _ | ⟨c, _ | ⟨d, _ | ⟨e, u⟩⟩⟩ <;> grind

theorem scalar?_take {b : UInt8} {u : Text} {code k : Nat} (h : scalar? b u = some (code, k)) :
    scalar? b (u.take k) = some (code, k) := by
  unfold scalar? at h ⊢
  rcases u with _ | ⟨c, _ | ⟨d, _ | ⟨e, u⟩⟩⟩ <;> grind

theorem length_of_scalar? {b : UInt8} {u : Text} {code k : Nat}
    (h : scalar? b u = some (code, k)) : k ≤ u.length ∧ k ≤ 3 := by
  unfold scalar? at h
  rcases u with _ | ⟨c, _ | ⟨d, _ | ⟨e, u⟩⟩⟩ <;> grind

theorem isTail_of_scalar? {b : UInt8} {u : Text} {code k : Nat}
    (h : scalar? b u = some (code, k)) : ∀ c ∈ u.take k, isTail c = true := by
  unfold scalar? at h
  rcases u with _ | ⟨c, _ | ⟨d, _ | ⟨e, u⟩⟩⟩ <;> grind

/-- The text starts with no continuation byte, so it does not prolong a rune in front of it. -/
def Separate (t : Text) : Prop := ∀ b ∈ t.head?, isTail b = false

theorem separate_nil : Separate [] := by
  intro b hb
  cases hb

theorem separate_cons {b : UInt8} (h : isTail b = false) (t : Text) : Separate (b :: t) := by
  intro c hc
  rw [List.head?_cons, Option.mem_some] at hc
  exact hc ▸ h

/-- A text that does not prolong a rune does not complete one either. -/
theorem scalar?_append_of_separate {w : Text} (h : Separate w) (b : UInt8) (u : Text) :
    scalar? b (u ++ w) = scalar? b u := by
  cases hWhole : scalar? b (u ++ w) with
  | none =>
      cases hFirst : scalar? b u with
      | none => rfl
      | some p =>
          rw [scalar?_append hFirst w] at hWhole
          exact hWhole.symm
  | some p =>
      obtain ⟨code, k⟩ := p
      have hk : k ≤ u.length := by
        refine Nat.le_of_not_lt fun hLonger => ?_
        cases w with
        | nil =>
            rw [List.append_nil] at hWhole
            exact absurd (length_of_scalar? hWhole).1 (by omega)
        | cons c w =>
            -- the first byte of the second text would be a continuation byte
            have hMem : c ∈ (u ++ c :: w).take k :=
              List.mem_take_iff_getElem.mpr ⟨u.length, by simp; omega, by simp⟩
            have hTail := isTail_of_scalar? hWhole c hMem
            rw [h c rfl] at hTail
            cases hTail
      have hTake := scalar?_take hWhole
      rw [List.take_append_of_le_length hk] at hTake
      have hFirst := scalar?_append hTake (u.drop k)
      rw [List.take_append_drop] at hFirst
      exact hFirst.symm

theorem runes_nil : runes [] = [] := by
  rw [runes]

theorem runes_cons_of_scalar? {b : UInt8} {rest : Text} {code k : Nat}
    (h : scalar? b rest = some (code, k)) :
    runes (b :: rest) = ⟨code, b :: rest.take k, true⟩ :: runes (rest.drop k) := by
  rw [runes, h]

theorem runes_cons_of_none {b : UInt8} {rest : Text} (h : scalar? b rest = none) :
    runes (b :: rest) = ⟨replacement, [b], false⟩ :: runes rest := by
  rw [runes, h]

theorem runes_cons_of_lt {b : UInt8} (h : b < 0x80) (rest : Text) :
    runes (b :: rest) = ⟨b.toNat, [b], true⟩ :: runes rest := by
  have hScalar : scalar? b rest = some (b.toNat, 0) := by
    rw [scalar?.eq_def, if_pos h]
  rw [runes_cons_of_scalar? hScalar, List.take_zero, List.drop_zero]

theorem lt_or_of_scalar? {b : UInt8} {u : Text} {p : Nat × Nat} (h : scalar? b u = some p) :
    b < 0x80 ∨ ¬ b < 0xC2 := by
  unfold scalar? at h
  grind

theorem isTail_eq_false_of_scalar? {b : UInt8} {u : Text} {p : Nat × Nat}
    (h : scalar? b u = some p) : isTail b = false := by
  have hFirst := lt_or_of_scalar? h
  simp only [UInt8.lt_iff_toNat_lt, UInt8.reduceToNat] at hFirst
  simp only [isTail, UInt8.le_iff_toNat_le, UInt8.reduceToNat, Bool.and_eq_false_iff,
    decide_eq_false_iff_not]
  omega

theorem isTail_eq_false_of_lt {b : UInt8} (h : b < 0x80) : isTail b = false :=
  isTail_eq_false_of_scalar? (u := []) (by rw [scalar?.eq_def, if_pos h])

theorem not_lt_of_scalar?_eq_none {b : UInt8} {u : Text} (h : scalar? b u = none) : ¬ b < 0x80 := by
  intro hLow
  rw [scalar?.eq_def, if_pos hLow] at h
  cases h

/-! ## Encoding -/

theorem toNat_of_isTail {c : UInt8} (h : isTail c = true) : 0x80 ≤ c.toNat ∧ c.toNat ≤ 0xBF := by
  simp only [isTail, Bool.and_eq_true, decide_eq_true_eq, UInt8.le_iff_toNat_le] at h
  exact h

theorem toUInt8_eq {n : Nat} {b : UInt8} (h : n = b.toNat) : n.toUInt8 = b := by
  subst h
  simp

theorem encodeRune_one {code : Nat} {b : UInt8} (h : code < 0x80) (hb : code = b.toNat) :
    encodeRune code = [b] := by
  rw [encodeRune, if_pos h, toUInt8_eq hb]

theorem encodeRune_two {code : Nat} {b c : UInt8} (h : 0x80 ≤ code) (h' : code < 0x800)
    (hb : 0xC0 + code / 64 = b.toNat) (hc : 0x80 + code % 64 = c.toNat) :
    encodeRune code = [b, c] := by
  rw [encodeRune, if_neg (by omega), if_pos h', toUInt8_eq hb, toUInt8_eq hc]

theorem not_surrogate {code : Nat} (h : code < 0xD800 ∨ 0xDFFF < code) (h' : code < 0x110000) :
    ¬ ((0xD800 ≤ code && code ≤ 0xDFFF) || 0x110000 ≤ code) = true := by
  simp only [Bool.or_eq_true, Bool.and_eq_true, decide_eq_true_eq]
  omega

theorem encodeRune_three {code : Nat} {b c d : UInt8} (h : 0x800 ≤ code) (h' : code < 0x10000)
    (hScalar : code < 0xD800 ∨ 0xDFFF < code) (hb : 0xE0 + code / 4096 = b.toNat)
    (hc : 0x80 + code / 64 % 64 = c.toNat) (hd : 0x80 + code % 64 = d.toNat) :
    encodeRune code = [b, c, d] := by
  rw [encodeRune, if_neg (by omega), if_neg (by omega),
    if_neg (not_surrogate hScalar (by omega)), if_pos h', toUInt8_eq hb, toUInt8_eq hc,
    toUInt8_eq hd]

theorem encodeRune_four {code : Nat} {b c d e : UInt8} (h : 0x10000 ≤ code) (h' : code < 0x110000)
    (hb : 0xF0 + code / 262144 = b.toNat) (hc : 0x80 + code / 4096 % 64 = c.toNat)
    (hd : 0x80 + code / 64 % 64 = d.toNat) (he : 0x80 + code % 64 = e.toNat) :
    encodeRune code = [b, c, d, e] := by
  rw [encodeRune, if_neg (by omega), if_neg (by omega),
    if_neg (not_surrogate (Or.inr (by omega)) h'), if_neg (by omega), toUInt8_eq hb,
    toUInt8_eq hc, toUInt8_eq hd, toUInt8_eq he]

theorem length_encodeRune_le (code : Nat) : (encodeRune code).length ≤ 4 := by
  rw [encodeRune]
  split
  · exact Nat.le_of_ble_eq_true rfl
  split
  · exact Nat.le_of_ble_eq_true rfl
  split
  · exact Nat.le_of_ble_eq_true rfl
  split <;> exact Nat.le_of_ble_eq_true rfl

/-- The bytes of a scalar value are its encoding. -/
theorem encodeRune_of_scalar? {b : UInt8} {u : Text} {code k : Nat}
    (h : scalar? b u = some (code, k)) : encodeRune code = b :: u.take k := by
  have hTail := @toNat_of_isTail
  unfold scalar? tailBits at h
  simp only [UInt8.lt_iff_toNat_lt, UInt8.le_iff_toNat_le, UInt8.reduceToNat] at h
  -- by the first byte, which says how many continuation bytes there are
  split at h
  · obtain ⟨rfl, rfl⟩ := Prod.mk.inj (Option.some.inj h)
    exact encodeRune_one (by omega) rfl
  split at h
  · cases h
  split at h
  · split at h
    · rename_i c _
      split at h
      · obtain ⟨rfl, rfl⟩ := Prod.mk.inj (Option.some.inj h)
        have hc := hTail ‹_›
        exact encodeRune_two (by omega) (by omega) (by omega) (by omega)
      · cases h
    · cases h
  split at h
  · split at h
    · rename_i c d _
      split at h
      · rename_i hAll
        obtain ⟨rfl, rfl⟩ := Prod.mk.inj (Option.some.inj h)
        simp only [Bool.and_eq_true, Bool.or_eq_true, bne_iff_ne, decide_eq_true_eq, ne_eq,
          ← UInt8.toNat_inj, UInt8.reduceToNat] at hAll
        obtain ⟨⟨⟨hc, hd⟩, hLow⟩, hHigh⟩ := hAll
        have hc := hTail hc
        have hd := hTail hd
        exact encodeRune_three (by omega) (by omega) (by omega) (by omega) (by omega) (by omega)
      · cases h
    · cases h
  split at h
  · split at h
    · rename_i c d e _
      split at h
      · rename_i hAll
        obtain ⟨rfl, rfl⟩ := Prod.mk.inj (Option.some.inj h)
        simp only [Bool.and_eq_true, Bool.or_eq_true, bne_iff_ne, decide_eq_true_eq, ne_eq,
          ← UInt8.toNat_inj, UInt8.reduceToNat] at hAll
        obtain ⟨⟨⟨⟨hc, hd⟩, he⟩, hLow⟩, hHigh⟩ := hAll
        have hc := hTail hc
        have hd := hTail hd
        have he := hTail he
        exact encodeRune_four (by omega) (by omega) (by omega) (by omega) (by omega) (by omega)
      · cases h
    · cases h
  · cases h

/-! ## All runes -/

theorem ofRunes_nil : ofRunes [] = [] := rfl

theorem ofRunes_cons (r : Rune) (rs : List Rune) : ofRunes (r :: rs) = r.bytes ++ ofRunes rs := rfl

theorem ofRunes_runes (t : Text) : ofRunes (runes t) = t := by
  fun_induction runes t with
  | case1 => rfl
  | case2 b rest code k hScalar ih =>
      rw [ofRunes_cons, ih, List.cons_append, List.take_append_drop]
  | case3 b rest hScalar ih => rw [ofRunes_cons, ih, List.singleton_append]

/-- A rune is a scalar value with its encoding, or a stray byte. -/
theorem rune_cases {t : Text} {r : Rune} (h : r ∈ runes t) :
    (r.valid = true ∧ r.bytes = encodeRune r.code ∧ ∃ b u k, r.bytes = b :: u.take k ∧
      scalar? b u = some (r.code, k)) ∨
      ∃ b, ¬ b < 0x80 ∧ r = ⟨replacement, [b], false⟩ := by
  fun_induction runes t with
  | case1 => cases h
  | case2 b rest code k hScalar ih =>
      rcases List.mem_cons.mp h with rfl | h
      · exact Or.inl ⟨rfl, (encodeRune_of_scalar? hScalar).symm, b, rest, k, rfl, hScalar⟩
      · exact ih h
  | case3 b rest hScalar ih =>
      rcases List.mem_cons.mp h with rfl | h
      · exact Or.inr ⟨b, not_lt_of_scalar?_eq_none hScalar, rfl⟩
      · exact ih h

theorem bytes_eq_encodeRune {t : Text} {r : Rune} (h : r ∈ runes t) (hValid : r.valid = true) :
    r.bytes = encodeRune r.code := by
  rcases rune_cases h with ⟨-, hBytes, -⟩ | ⟨b, -, rfl⟩
  · exact hBytes
  · cases hValid

theorem length_bytes_le {t : Text} {r : Rune} (h : r ∈ runes t) :
    0 < r.bytes.length ∧ r.bytes.length ≤ 4 := by
  rcases rune_cases h with ⟨-, -, b, u, k, hBytes, hScalar⟩ | ⟨b, -, rfl⟩
  · have hk := (length_of_scalar? hScalar).2
    rw [hBytes, List.length_cons, List.length_take]
    omega
  · exact ⟨Nat.one_pos, Nat.le_of_ble_eq_true rfl⟩

theorem runeCount_nil : runeCount [] = 0 := by
  rw [runeCount, runes_nil, List.length_nil]

theorem runeCount_le_length (t : Text) : runeCount t ≤ t.length := by
  rw [runeCount]
  fun_induction runes t with
  | case1 => exact Nat.le_refl 0
  | case2 b rest code k hScalar ih =>
      rw [List.length_drop] at ih
      rw [List.length_cons, List.length_cons]
      omega
  | case3 b rest hScalar ih =>
      rw [List.length_cons, List.length_cons]
      omega

theorem runes_append (x : Text) {y : Text} (h : Separate y) :
    runes (x ++ y) = runes x ++ runes y := by
  fun_induction runes x with
  | case1 => rfl
  | case2 b rest code k hScalar ih =>
      have hk := (length_of_scalar? hScalar).1
      rw [List.cons_append, runes_cons_of_scalar? (scalar?_append hScalar y),
        List.take_append_of_le_length hk, List.drop_append_of_le_length hk, ih, List.cons_append]
  | case3 b rest hScalar ih =>
      have hNone : scalar? b (rest ++ y) = none := by
        rw [scalar?_append_of_separate h, hScalar]
      rw [List.cons_append, runes_cons_of_none hNone, ih, List.cons_append]

theorem runes_of_ascii {t : Text} (h : ∀ b ∈ t, b < 0x80) :
    runes t = t.map fun b => ⟨b.toNat, [b], true⟩ := by
  induction t with
  | nil => exact runes_nil
  | cons b t ih =>
      obtain ⟨hFirst, hRest⟩ := List.forall_mem_cons.mp h
      rw [runes_cons_of_lt hFirst, ih hRest, List.map_cons]

theorem isUtf8_of_ascii {t : Text} (h : ∀ b ∈ t, b < 0x80) : isUtf8 t = true := by
  rw [isUtf8, runes_of_ascii h, List.all_map, List.all_eq_true]
  exact fun _ _ => rfl

/-! ## Neighbouring runes -/

theorem exists_runes_of_suffix {t : Text} {rs : List Rune} (h : rs <:+ runes t) :
    ∃ u, rs = runes u := by
  fun_induction runes t with
  | case1 => exact ⟨[], by rw [List.suffix_nil.mp h, runes]⟩
  | case2 b rest code k hScalar ih =>
      rcases List.suffix_cons_iff.mp h with rfl | h
      · exact ⟨b :: rest, (runes_cons_of_scalar? hScalar).symm⟩
      · exact ih h
  | case3 b rest hScalar ih =>
      rcases List.suffix_cons_iff.mp h with rfl | h
      · exact ⟨b :: rest, (runes_cons_of_none hScalar).symm⟩
      · exact ih h

theorem ofRunes_prefix {t : Text} {rs : List Rune} (h : rs <+: runes t) : ofRunes rs <+: t := by
  obtain ⟨more, hMore⟩ := h
  refine ⟨ofRunes more, ?_⟩
  rw [ofRunes, ofRunes, ← List.flatMap_append, hMore]
  exact ofRunes_runes t

theorem runes_ofRunes_of_prefix {t : Text} {rs : List Rune} (h : rs <+: runes t) :
    runes (ofRunes rs) = rs := by
  fun_induction runes t generalizing rs with
  | case1 => rw [List.prefix_nil.mp h, ofRunes_nil, runes_nil]
  | case2 b rest code k hScalar ih =>
      rcases List.prefix_cons_iff.mp h with rfl | ⟨qs, rfl, hqs⟩
      · rw [ofRunes_nil, runes_nil]
      · have hk : (rest.take k).length = k := by
          rw [List.length_take]
          exact Nat.min_eq_left (length_of_scalar? hScalar).1
        have hFirst := scalar?_append (scalar?_take hScalar) (ofRunes qs)
        rw [ofRunes_cons, List.cons_append, runes_cons_of_scalar? hFirst,
          List.take_left' hk, List.drop_left' hk, ih hqs]
  | case3 b rest hScalar ih =>
      rcases List.prefix_cons_iff.mp h with rfl | ⟨qs, rfl, hqs⟩
      · rw [ofRunes_nil, runes_nil]
      · -- a byte that starts no rune starts none when less follows it
        have hFirst : scalar? b (ofRunes qs) = none := by
          obtain ⟨more, hMore⟩ := ofRunes_prefix hqs
          cases hFirst : scalar? b (ofRunes qs) with
          | none => rfl
          | some p =>
              have hWhole := scalar?_append hFirst more
              rw [hMore, hScalar] at hWhole
              cases hWhole
        rw [ofRunes_cons, List.singleton_append, runes_cons_of_none hFirst, ih hqs]

/-- Neighbouring runes of a text are the runes of their own bytes. -/
theorem runes_ofRunes {t : Text} {rs : List Rune} (h : rs <:+: runes t) :
    runes (ofRunes rs) = rs := by
  obtain ⟨before, after, hSplit⟩ := h
  have hSuffix : rs ++ after <:+ runes t := ⟨before, by rw [← hSplit, List.append_assoc]⟩
  obtain ⟨u, hu⟩ := exists_runes_of_suffix hSuffix
  exact runes_ofRunes_of_prefix (t := u) ⟨after, hu⟩

/-! ## Valid texts -/

theorem toValid_nil : toValid [] = [] := by rw [toValid, runes_nil, List.flatMap_nil]

theorem toValid_of_isUtf8 {t : Text} (h : isUtf8 t = true) : toValid t = t := by
  rw [isUtf8, List.all_eq_true] at h
  have hBytes : (runes t).flatMap (fun r => if r.valid then r.bytes else encodeRune replacement) =
      (runes t).flatMap Rune.bytes :=
    List.flatMap_congr fun r hr => if_pos (h r hr)
  rw [toValid, hBytes]
  exact ofRunes_runes t

theorem toValid_cons_of_scalar? {b : UInt8} {rest : Text} {code k : Nat}
    (h : scalar? b rest = some (code, k)) :
    toValid (b :: rest) = b :: rest.take k ++ toValid (rest.drop k) := by
  rw [toValid, runes_cons_of_scalar? h]
  rfl

theorem toValid_cons_of_none {b : UInt8} {rest : Text} (h : scalar? b rest = none) :
    toValid (b :: rest) = encodeRune replacement ++ toValid rest := by
  rw [toValid, runes_cons_of_none h]
  rfl

theorem separate_toValid (t : Text) : Separate (toValid t) := by
  cases t with
  | nil =>
      rw [toValid_nil]
      exact separate_nil
  | cons b rest =>
      cases hScalar : scalar? b rest with
      | none =>
          rw [toValid_cons_of_none hScalar]
          exact separate_cons (by decide) _
      | some p =>
          rw [toValid_cons_of_scalar? hScalar, List.cons_append]
          exact separate_cons (isTail_eq_false_of_scalar? hScalar) _

theorem runes_take_of_scalar? {b : UInt8} {rest : Text} {code k : Nat}
    (h : scalar? b rest = some (code, k)) :
    runes (b :: rest.take k) = [⟨code, b :: rest.take k, true⟩] := by
  have hk : (rest.take k).drop k = [] := by
    rw [List.drop_eq_nil_iff, List.length_take]
    exact Nat.min_le_left _ _
  rw [runes_cons_of_scalar? (scalar?_take h), hk, runes_nil, List.take_take, Nat.min_self]

theorem runes_replacement :
    runes (encodeRune replacement) = [⟨replacement, encodeRune replacement, true⟩] := by
  have hScalar : scalar? 0xEF [0xBF, 0xBD] = some (replacement, 2) := by decide
  exact runes_take_of_scalar? hScalar

theorem isUtf8_append (x : Text) {y : Text} (h : Separate y) :
    isUtf8 (x ++ y) = (isUtf8 x && isUtf8 y) := by
  rw [isUtf8, runes_append x h, List.all_append]
  rfl

/-- Without stray bytes a text is valid. -/
theorem isUtf8_toValid (t : Text) : isUtf8 (toValid t) = true := by
  fun_induction runes t with
  | case1 => rw [toValid_nil, isUtf8, runes_nil, List.all_nil]
  | case2 b rest code k hScalar ih =>
      rw [toValid_cons_of_scalar? hScalar, isUtf8_append _ (separate_toValid _), ih, isUtf8,
        runes_take_of_scalar? hScalar]
      rfl
  | case3 b rest hScalar ih =>
      rw [toValid_cons_of_none hScalar, isUtf8_append _ (separate_toValid _), ih, isUtf8,
        runes_replacement]
      rfl

theorem runeCount_append (x : Text) {y : Text} (h : Separate y) :
    runeCount (x ++ y) = runeCount x + runeCount y := by
  rw [runeCount, runes_append x h, List.length_append]
  rfl

/-- Replacing stray bytes keeps the number of runes. -/
theorem runeCount_toValid (t : Text) : runeCount (toValid t) = runeCount t := by
  fun_induction runes t with
  | case1 => rw [toValid_nil]
  | case2 b rest code k hScalar ih =>
      rw [toValid_cons_of_scalar? hScalar, runeCount_append _ (separate_toValid _), ih, runeCount,
        runes_take_of_scalar? hScalar, runeCount, runeCount, runes_cons_of_scalar? hScalar,
        List.length_cons, Nat.add_comm]
      rfl
  | case3 b rest hScalar ih =>
      rw [toValid_cons_of_none hScalar, runeCount_append _ (separate_toValid _), ih, runeCount,
        runes_replacement, runeCount, runeCount, runes_cons_of_none hScalar, List.length_cons,
        Nat.add_comm]
      rfl

end TokenLint.Text
