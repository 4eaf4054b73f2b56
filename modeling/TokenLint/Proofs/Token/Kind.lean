import TokenLint.Proofs.Text.Trim
import TokenLint.Token.Kind

/-!
# Names of kinds

The names of kinds are made of capital letters and low lines, and no two kinds have the same. So a
kind is found by its own name. A name under which a kind is found in a dump may be written in other
letters, but it is valid UTF-8, and it is not much longer than the name of the kind.
-/

namespace TokenLint

/-! ## Upper case -/

namespace Text

theorem upperRune_ne_nil {t : Text} {r : Rune} (h : r ∈ runes t) : upperRune r ≠ [] := by
  have hPos := (length_bytes_le h).1
  unfold upperRune
  split
  · simp
  split
  · simp
  split
  · simp
  · exact List.ne_nil_of_length_pos hPos

/-- Stray bytes stay, so a text that is ASCII in upper case has none. -/
theorem isUtf8_of_upper {t : Text} (h : ∀ b ∈ upper t, b < 0x80) : isUtf8 t = true := by
  rw [isUtf8, List.all_eq_true]
  intro r hr
  rcases rune_cases hr with ⟨hValid, -⟩ | ⟨b, hb, rfl⟩
  · exact hValid
  · refine absurd (h b (List.mem_flatMap.mpr ⟨_, hr, ?_⟩)) hb
    exact List.mem_singleton_self b

theorem length_le_upper (t : Text) : t.length ≤ 4 * (upper t).length := by
  have hRunes : ∀ rs : List Rune, (∀ r ∈ rs, r ∈ runes t) →
      (ofRunes rs).length ≤ 4 * (rs.flatMap upperRune).length := by
    intro rs
    induction rs with
    | nil => exact fun _ => Nat.le_refl 0
    | cons r rs ih =>
        intro hMem
        obtain ⟨hr, hrs⟩ := List.forall_mem_cons.mp hMem
        have hRest := ih hrs
        have hBytes := (length_bytes_le hr).2
        have hUpper := List.length_pos_iff.mpr (upperRune_ne_nil hr)
        rw [ofRunes_cons, List.length_append, List.flatMap_cons, List.length_append]
        omega
  have hAll := hRunes (runes t) fun _ hr => hr
  rwa [ofRunes_runes] at hAll

end Text

namespace Kind

/-! ## Names -/

/-- The bytes of which names of kinds are made. -/
def isNameByte (b : UInt8) : Bool := b == 95 || (65 ≤ b && b ≤ 90)

theorem all_isNameByte_name (k : Kind) : k.name.all isNameByte = true := by
  cases k <;> rfl

theorem length_name_le (k : Kind) : k.name.length ≤ 30 := by
  cases k <;> exact Nat.le_of_ble_eq_true rfl

theorem name_ne_nil (k : Kind) : k.name ≠ [] := by
  cases k <;> exact List.cons_ne_nil _ _

theorem mem_all (k : Kind) : k ∈ all := by
  cases k <;> decide

theorem ofExactName?_name (k : Kind) : ofExactName? k.name = some k := by
  have hAll : ∀ k ∈ all, ofExactName? k.name = some k := by decide +kernel
  exact hAll k (mem_all k)

theorem name_of_ofExactName? {t : Text} {k : Kind} (h : ofExactName? t = some k) : k.name = t := by
  have hFound := List.find?_some h
  simpa using hFound

theorem isNameByte_bounds {b : UInt8} (h : isNameByte b = true) :
    b.toNat = 95 ∨ 65 ≤ b.toNat ∧ b.toNat ≤ 90 := by
  simp only [isNameByte, Bool.or_eq_true, Bool.and_eq_true, beq_iff_eq, decide_eq_true_eq,
    UInt8.le_iff_toNat_le, ← UInt8.toNat_inj, UInt8.reduceToNat] at h
  exact h

theorem bounds_of_mem_name {k : Kind} {b : UInt8} (h : b ∈ k.name) :
    b.toNat = 95 ∨ 65 ≤ b.toNat ∧ b.toNat ≤ 90 :=
  isNameByte_bounds (List.all_eq_true.mp (all_isNameByte_name k) b h)

theorem lt_of_mem_name {k : Kind} {b : UInt8} (h : b ∈ k.name) : b < 0x80 := by
  have hBounds := bounds_of_mem_name h
  simp only [UInt8.lt_iff_toNat_lt, UInt8.reduceToNat]
  omega

theorem upper_name (k : Kind) : k.name.upper = k.name := by
  rw [Text.upper, Text.runes_of_ascii fun b hb => lt_of_mem_name hb, List.flatMap_map]
  refine (List.flatMap_congr fun b hb => ?_).trans (List.flatMap_singleton' _)
  have hBounds := bounds_of_mem_name hb
  simp only [Text.upperRune, beq_iff_eq, Bool.and_eq_true, decide_eq_true_eq]
  rw [if_neg (by omega), if_neg (by omega), if_neg (by omega)]

theorem trimBlank_name (k : Kind) : Text.trimBlank k.name = k.name := by
  have hBlank : ∀ r ∈ Text.runes k.name, Text.isBlank r.code = false := by
    rw [Text.runes_of_ascii fun b hb => lt_of_mem_name hb]
    intro r hr
    obtain ⟨b, hb, rfl⟩ := List.mem_map.mp hr
    have hBounds := bounds_of_mem_name hb
    simp only [Text.isBlank, Bool.or_eq_false_iff, Bool.and_eq_false_iff, beq_eq_false_iff_ne,
      decide_eq_false_iff_not]
    omega
  exact Text.trimBlank_of_forall hBlank

/-- A kind is found by its own name, unless it is one of those that have none in a dump. -/
theorem ofName?_name {k : Kind} (hInvalid : k ≠ .invalid) (hOther : k ≠ .other) :
    ofName? k.name = some k := by
  rw [ofName?, trimBlank_name, upper_name, ofExactName?_name]
  split
  · rename_i hk
    exact absurd (Option.some.inj hk) hInvalid
  · rename_i hk
    exact absurd (Option.some.inj hk) hOther
  · rename_i hk
    cases hk
  · rename_i hk
    exact hk.symm

theorem upper_of_ofName? {t : Text} {k : Kind} (h : ofName? t = some k) :
    (Text.trimBlank t).upper = k.name ∧ k ≠ .invalid ∧ k ≠ .other := by
  rw [ofName?] at h
  split at h
  · cases h
  · cases h
  · cases h
  · rename_i k' hInvalid hOther hExact
    cases h
    exact ⟨(name_of_ofExactName? hExact).symm, hInvalid, hOther⟩

/-- No kind is found without a name. -/
theorem ne_nil_of_ofName? {t : Text} {k : Kind} (h : ofName? t = some k) : t ≠ [] := by
  rintro rfl
  have hUpper := (upper_of_ofName? h).1
  rw [Text.trimBlank_nil, Text.upper, Text.runes_nil] at hUpper
  exact name_ne_nil k hUpper.symm

theorem isUtf8_of_ofName? {t : Text} {k : Kind} (h : ofName? t = some k) :
    Text.isUtf8 (Text.trimBlank t) = true := by
  refine Text.isUtf8_of_upper fun b hb => ?_
  rw [(upper_of_ofName? h).1] at hb
  exact lt_of_mem_name hb

theorem length_of_ofName? {t : Text} {k : Kind} (h : ofName? t = some k) :
    (Text.trimBlank t).length ≤ 120 := by
  have hUpper := Text.length_le_upper (Text.trimBlank t)
  have hName := length_name_le k
  rw [(upper_of_ofName? h).1] at hUpper
  omega

end Kind

end TokenLint
