import TokenLint.Text

/-!
# Decimal digits

Numbers are written in digits only, and no two numbers are written alike. So a written number
ends where the first byte stands that is no digit, and texts made of numbers with separators
between them can be taken apart again. The digits give back the number, and none stands in front
of them that could be left out.
-/

namespace TokenLint.Text

theorem toNat_of_isDigit {c : Char} (h : c.isDigit = true) : 48 ≤ c.toNat ∧ c.toNat ≤ 57 := by
  simp only [Char.isDigit, Bool.and_eq_true, decide_eq_true_eq, UInt32.le_iff_toNat_le] at h
  exact h

theorem toNat_byte_of_isDigit {c : Char} (h : c.isDigit = true) : (byte c).toNat = c.toNat := by
  have hBound := (toNat_of_isDigit h).2
  exact Nat.mod_eq_of_lt (by omega)

theorem isDigit_of_mem_ofNat {n : Nat} {b : UInt8} (h : b ∈ ofNat n) : isDigit b = true := by
  obtain ⟨c, hc, rfl⟩ := List.mem_map.mp h
  have hDigit := Nat.isDigit_of_mem_toDigits (by omega) (by omega) hc
  have hBounds := toNat_of_isDigit hDigit
  rw [← toNat_byte_of_isDigit hDigit] at hBounds
  simp only [isDigit, Bool.and_eq_true, decide_eq_true_eq, UInt8.le_iff_toNat_le]
  exact hBounds

/-- No two numbers are written alike. -/
theorem ofNat_injective {m n : Nat} (h : ofNat m = ofNat n) : m = n := by
  -- a digit is read back from its byte
  have hRead : ∀ k, (ofNat k).map (fun b => Char.ofNat b.toNat) = Nat.toDigits 10 k := by
    intro k
    rw [ofNat, List.map_map]
    refine (List.map_congr_left fun c hc => ?_).trans (List.map_id _)
    have hDigit := Nat.isDigit_of_mem_toDigits (by omega) (by omega) hc
    rw [Function.comp_apply, toNat_byte_of_isDigit hDigit, Char.ofNat_toNat, id]
  have hDigits : Nat.toDigits 10 m = Nat.toDigits 10 n := by rw [← hRead, h, hRead]
  rw [← @Nat.ofDigitChars_ten_toDigits m, hDigits, Nat.ofDigitChars_ten_toDigits]

/-- A number ends at the first byte that is no digit. -/
theorem ofNat_append_inj {m n : Nat} {b : UInt8} (hb : isDigit b = false) {t u : Text}
    (h : ofNat m ++ b :: t = ofNat n ++ b :: u) : m = n ∧ t = u := by
  have hTake : ∀ k (r : Text), (ofNat k ++ b :: r).takeWhile isDigit = ofNat k := by
    intro k r
    rw [List.takeWhile_append_of_pos fun a ha => isDigit_of_mem_ofNat ha]
    simp [hb]
  have hNumber : ofNat m = ofNat n := by rw [← hTake m t, h, hTake]
  rw [hNumber] at h
  exact ⟨ofNat_injective hNumber, by simpa using h⟩

/-- A number begins behind the last byte that is no digit. -/
theorem append_ofNat_inj {m n : Nat} {b : UInt8} (hb : isDigit b = false) {t u : Text}
    (h : t ++ b :: ofNat m = u ++ b :: ofNat n) : t = u ∧ m = n := by
  have hTake : ∀ k (r : Text),
      (r ++ b :: ofNat k).reverse.takeWhile isDigit = (ofNat k).reverse := by
    intro k r
    rw [List.reverse_append, List.reverse_cons, List.append_assoc, List.singleton_append,
      List.takeWhile_append_of_pos fun a ha => isDigit_of_mem_ofNat (List.mem_reverse.mp ha)]
    simp [hb]
  have hNumber : ofNat m = ofNat n := by rw [← List.reverse_inj, ← hTake m t, h, hTake]
  rw [hNumber] at h
  exact ⟨List.append_cancel_right h, ofNat_injective hNumber⟩

/-- The digits of a number give its value. -/
theorem digitsValue_ofNat (n : Nat) : digitsValue (ofNat n) = n := by
  have hValue : ∀ (cs : List Char) (k : Nat), (∀ c ∈ cs, c.isDigit = true) →
      (cs.map byte).foldl (fun n b => n * 10 + (b.toNat - 48)) k = Nat.ofDigitChars 10 cs k := by
    intro cs
    induction cs with
    | nil =>
        intro k _
        rfl
    | cons c cs ih =>
        intro k h
        obtain ⟨hFirst, hRest⟩ := List.forall_mem_cons.mp h
        rw [List.map_cons, List.foldl_cons, toNat_byte_of_isDigit hFirst, ih _ hRest,
          Nat.ofDigitChars_cons, Nat.mul_comm]
        rfl
  have hDigits : ∀ c ∈ Nat.toDigits 10 n, c.isDigit = true := fun c hc =>
    Nat.isDigit_of_mem_toDigits (by omega) (by omega) hc
  rw [digitsValue, ofNat, hValue _ 0 hDigits, Nat.ofDigitChars_ten_toDigits]

theorem ofNat_ne_nil (n : Nat) : ofNat n ≠ [] := by
  intro h
  have hZero : n = 0 := by
    rw [← digitsValue_ofNat n, h]
    rfl
  subst hZero
  cases h

/-- No number but zero starts with a zero. -/
theorem head_ofNat {n : Nat} (h : n ≠ 0) : ∃ b rest, ofNat n = b :: rest ∧ b ≠ 48 := by
  induction n using Nat.strongRecOn with
  | ind n ih =>
      by_cases hSmall : n < 10
      · have hOne : ∀ k : Fin 10, k ≠ 0 → byte (Nat.digitChar k) ≠ 48 := by decide
        refine ⟨byte (Nat.digitChar n), [], ?_, hOne ⟨n, hSmall⟩ fun hk => h (congrArg Fin.val hk)⟩
        rw [ofNat, Nat.toDigits_of_lt_base hSmall]
        rfl
      · obtain ⟨b, rest, hRest, hb⟩ := ih (n / 10) (by omega) (by omega)
        refine ⟨b, rest ++ [byte (Nat.digitChar (n % 10))], ?_, hb⟩
        rw [ofNat, Nat.toDigits_of_base_le (by omega) (by omega), List.map_append, ← ofNat, hRest]
        rfl

end TokenLint.Text
