import Mathlib.Algebra.Group.Int.Defs
import Mathlib.Algebra.Group.Nat.Defs
import TokenLint.MessagePack

/-!
# Reading MessagePack that was written

`Reads bytes v` says that the bytes are read as the value `v`, whatever stands behind them. It
holds of what is written for numbers and texts, and carries over to arrays and maps: `reads_array`
and `reads_map` have a header and the items or entries one after the other.

* `exists_writeHeader`: the header of an array or a map is read, with either set of codes.
* `reads_writeText`, `reads_writeInt`, `reads_writeUInt16`, `reads_array`, `reads_map`: what is
  written is read.
* `parse_append`, `parse_of_reads`: a reader finds the value at the start of a text.
-/

namespace TokenLint.MessagePack

/-! ## Numbers -/

theorem length_bigEndian (width n : Nat) : (bigEndian width n).length = width := by
  induction width generalizing n with
  | zero => rfl
  | succ width ih => rw [bigEndian, List.length_append, ih, List.length_singleton]

theorem ofBigEndian_bigEndian (width n : Nat) :
    ofBigEndian (bigEndian width n) = n % 256 ^ width := by
  induction width generalizing n with
  | zero => exact (Nat.mod_one n).symm
  | succ width ih =>
      have hByte : ((n % 256).toUInt8).toNat = n % 256 := by simp
      have hStep : ofBigEndian (bigEndian (width + 1) n) =
          ofBigEndian (bigEndian width (n / 256)) * 256 + n % 256 := by
        rw [bigEndian, ofBigEndian, List.foldl_append, List.foldl_cons, List.foldl_nil, hByte]
        rfl
      rw [hStep, ih, Nat.pow_succ', Nat.mod_mul]
      omega

theorem takeBytes_append (t rest : Text) : takeBytes t.length (t ++ rest) = some (t, rest) := by
  simp [takeBytes]

theorem readNat_bigEndian {width n : Nat} (h : n < 256 ^ width) (rest : Text) :
    readNat width (bigEndian width n ++ rest) = some (n, rest) := by
  have hTake := takeBytes_append (bigEndian width n) rest
  rw [length_bigEndian] at hTake
  simp only [readNat, hTake, Option.map_some, ofBigEndian_bigEndian, Nat.mod_eq_of_lt h]

/-! ## Values -/

/-- The bytes are read as the value, with fuel to spare, and what follows them is left. -/
def Reads (bytes : Text) (v : MessagePack) : Prop :=
  ∀ (fuel : Nat) (rest : Text), 2 * bytes.length ≤ fuel + 1 →
    readFrom fuel (bytes ++ rest) = some (v, rest)

theorem Reads.length_pos {bytes : Text} {v : MessagePack} (h : Reads bytes v) :
    0 < bytes.length := by
  rw [List.length_pos_iff]
  rintro rfl
  have hNone := h 0 [] (Nat.zero_le 1)
  rw [readFrom] at hNone
  cases hNone

/-- The value is found whatever follows it. -/
theorem parse_append {bytes : Text} {v : MessagePack} (h : Reads bytes v) (rest : Text) :
    parse (bytes ++ rest) = some v := by
  have hFuel : 2 * bytes.length ≤ 2 * (bytes ++ rest).length + 2 + 1 := by
    rw [List.length_append]
    omega
  rw [parse, h _ rest hFuel]
  rfl

theorem parse_of_reads {bytes : Text} {v : MessagePack} (h : Reads bytes v) :
    parse bytes = some v := by
  have hParse := parse_append h []
  rwa [List.append_nil] at hParse

/-- A value that is no container is read by its first byte. -/
theorem reads_of_readScalar {code : UInt8} {bytes : Text} {v : MessagePack}
    (hScalar : isContainer code = false)
    (hRead : ∀ rest, readScalar code (bytes ++ rest) = some (v, rest)) :
    Reads (code :: bytes) v := by
  intro fuel rest hFuel
  rw [List.length_cons] at hFuel
  obtain ⟨fuel, rfl⟩ : ∃ k, fuel = k + 1 := ⟨fuel - 1, by omega⟩
  rw [List.cons_append, readFrom, hScalar]
  exact hRead rest

theorem readUnsigned_bigEndian (width : Nat) {n : Nat} (h : n < 256 ^ width) (rest : Text) :
    readUnsigned width (bigEndian width n ++ rest) = some (.int n, rest) := by
  rw [readUnsigned, readNat_bigEndian h]
  rfl

theorem reads_writeUInt16 (n : UInt16) : Reads (writeUInt16 n) (.int n.toNat) := by
  have hFits : n.toNat < 256 ^ 2 := n.toNat_lt
  exact reads_of_readScalar (by decide) (readUnsigned_bigEndian 2 hFits)

/-- A negative number is written as its complement. -/
theorem readSigned_bigEndian (width m : Nat) {n : Int} (hm : 256 ^ width = 2 * m) (hLow : -m ≤ n)
    (hNegative : n < 0) (rest : Text) :
    readSigned width (bigEndian width (n + (2 * m : Nat)).toNat ++ rest) = some (.int n, rest) := by
  have hFits : (n + (2 * m : Nat)).toNat < 256 ^ width := by
    rw [hm]
    omega
  have hPow : Nat.pow 256 width = 2 * m := hm
  rw [readSigned, readNat_bigEndian hFits, Option.map_some, hPow]
  show some (MessagePack.int (if (n + (2 * m : Nat)).toNat < 2 * m / 2 then _ else _), rest) = _
  rw [if_neg (by omega)]
  congr 3
  omega

theorem reads_smallInt {n : Nat} (h : n < 128) : Reads [n.toUInt8] (.int n) := by
  have hCode : n.toUInt8.toNat = n := by
    simp
    omega
  apply reads_of_readScalar
  · simp only [isContainer, UInt8.le_iff_toNat_le, UInt8.lt_iff_toNat_lt, hCode]
    simp
    omega
  · intro rest
    have hSmall : n.toUInt8 < 0x80 := by
      rw [UInt8.lt_iff_toNat_lt, hCode]
      exact h
    unfold readScalar
    rw [if_pos hSmall, hCode]
    rfl

theorem reads_smallNegative {n : Int} (hLow : -32 ≤ n) (hNegative : n < 0) :
    Reads (bigEndian 1 (n + 0x100).toNat) (.int n) := by
  have hCode : (((n + 0x100).toNat % 256).toUInt8).toNat = (n + 0x100).toNat := by
    simp
    omega
  show Reads [((n + 0x100).toNat % 256).toUInt8] (.int n)
  apply reads_of_readScalar
  · simp only [isContainer, UInt8.le_iff_toNat_le, UInt8.lt_iff_toNat_lt, hCode]
    simp
    omega
  · intro rest
    have hNumber : ¬ ((n + 0x100).toNat % 256).toUInt8 < 0x80 := by
      rw [UInt8.lt_iff_toNat_lt, hCode]
      simp
      omega
    have hHigh : 0xE0 ≤ ((n + 0x100).toNat % 256).toUInt8 := by
      rw [UInt8.le_iff_toNat_le, hCode]
      simp
      omega
    unfold readScalar
    rw [if_neg hNumber, if_pos hHigh, hCode]
    congr 3
    omega

/-- Every integer that fits eight bytes, with or without sign, is read back. -/
theorem reads_writeInt {n : Int} (hLow : -2 ^ 63 ≤ n) (hHigh : n < 2 ^ 64) :
    Reads (writeInt n) (.int n) := by
  unfold writeInt
  split
  · rename_i hNonneg
    obtain ⟨n, rfl⟩ := Int.eq_ofNat_of_zero_le hNonneg
    dsimp only [Int.toNat_natCast]
    -- the width classes without sign
    split
    · exact reads_smallInt ‹_›
    split
    · exact reads_of_readScalar (by decide) (readUnsigned_bigEndian 1 ‹_›)
    split
    · exact reads_of_readScalar (by decide) (readUnsigned_bigEndian 2 ‹_›)
    split
    · exact reads_of_readScalar (by decide) (readUnsigned_bigEndian 4 ‹_›)
    · exact reads_of_readScalar (by decide) (readUnsigned_bigEndian 8 (by omega))
  · -- and those with sign
    split
    · exact reads_smallNegative ‹_› (by omega)
    split
    · exact reads_of_readScalar (by decide)
        (readSigned_bigEndian 1 0x80 rfl (by omega) (by omega))
    split
    · exact reads_of_readScalar (by decide)
        (readSigned_bigEndian 2 0x8000 rfl (by omega) (by omega))
    split
    · exact reads_of_readScalar (by decide)
        (readSigned_bigEndian 4 0x80000000 rfl (by omega) (by omega))
    · exact reads_of_readScalar (by decide)
        (readSigned_bigEndian 8 0x8000000000000000 rfl (by omega) (by omega))

theorem readText_bigEndian {width : Nat} {t : Text} (h : t.length < 256 ^ width) (rest : Text) :
    readText width ((bigEndian width t.length ++ t) ++ rest) = some (.text t, rest) := by
  rw [List.append_assoc, readText, readNat_bigEndian h]
  show (takeBytes t.length (t ++ rest) >>= _) = _
  rw [takeBytes_append]
  rfl

theorem reads_shortText {code : UInt8} {t : Text} (hCode : code.toNat = 0xA0 + t.length)
    (hShort : t.length < 32) : Reads (code :: t) (.text t) := by
  have hNumber : ¬ code < 0x80 := by
    rw [UInt8.lt_iff_toNat_lt, hCode]
    simp
    omega
  have hNegative : ¬ 0xE0 ≤ code := by
    rw [UInt8.le_iff_toNat_le, hCode]
    simp
    omega
  have hText : (0xA0 ≤ code && code < 0xC0) = true := by
    simp only [UInt8.le_iff_toNat_le, UInt8.lt_iff_toNat_lt, hCode]
    simp
    omega
  apply reads_of_readScalar
  · simp only [isContainer, UInt8.le_iff_toNat_le, UInt8.lt_iff_toNat_lt, hCode]
    simp
    omega
  · intro rest
    unfold readScalar
    rw [if_neg hNumber, if_neg hNegative, if_pos hText, hCode, Nat.add_sub_cancel_left,
      takeBytes_append]
    rfl

theorem reads_writeText {t : Text} (h : t.length < 2 ^ 32) : Reads (writeText t) (.text t) := by
  unfold writeText writeTextHeader
  split
  · rename_i hShort
    apply reads_shortText _ hShort
    simp
    omega
  · split
    · rename_i hFits
      exact reads_of_readScalar (by decide) (readText_bigEndian hFits)
    · split
      · rename_i hFits
        exact reads_of_readScalar (by decide) (readText_bigEndian hFits)
      · exact reads_of_readScalar (by decide) (readText_bigEndian h)

/-! ## Headers of containers -/

section Headers

variable {c : ContainerCodes} {code : UInt8}

/-- A container of this sort starts with the byte. -/
def ContainerCodes.Starts (c : ContainerCodes) (code : UInt8) : Prop :=
  (c.short ≤ code.toNat ∧ code.toNat < c.short + 16) ∨ code = c.medium ∨ code = c.long

instance : Decidable (c.Starts code) := inferInstanceAs (Decidable (_ ∨ _))

theorem readHeader?_of_not_starts (h : ¬ c.Starts code) (t : Text) :
    readHeader? c code t = none := by
  simp only [ContainerCodes.Starts, not_or] at h
  obtain ⟨hShort, hMedium, hLong⟩ := h
  rw [readHeader?, if_neg (by simpa using hShort), if_neg hMedium, if_neg hLong]

/-- A header is one of its codes and what the length is read from behind it. -/
theorem exists_writeHeader (c : ContainerCodes) {n : Nat} (h : n < 2 ^ 32) :
    ∃ code bytes, writeHeader c n = code :: bytes ∧ c.Starts code ∧
      ∀ t, readHeader? c code (bytes ++ t) = some (n, t) := by
  have hMedium := c.short_lt_medium
  have hLong := UInt8.lt_iff_toNat_lt.mp c.medium_lt_long
  have hRange : ∀ {code : UInt8}, c.medium.toNat ≤ code.toNat →
      ¬ (c.short ≤ code.toNat && code.toNat < c.short + 16) = true := by
    intro code hCode
    simp
    omega
  unfold writeHeader
  split
  · rename_i hShort
    have hCode : (c.short + n).toUInt8.toNat = c.short + n := by
      have hByte := c.medium.toNat_lt
      simp
      omega
    refine ⟨_, [], rfl, Or.inl ⟨by omega, by omega⟩, fun t => ?_⟩
    have hIn : (c.short ≤ (c.short + n).toUInt8.toNat &&
        (c.short + n).toUInt8.toNat < c.short + 16) = true := by
      rw [hCode]
      simpa using hShort
    rw [readHeader?, if_pos hIn, hCode, Nat.add_sub_cancel_left]
    rfl
  split
  · rename_i hFits
    refine ⟨_, _, rfl, Or.inr (Or.inl rfl), fun t => ?_⟩
    rw [readHeader?, if_neg (hRange (Nat.le_refl _)), if_pos rfl]
    exact readNat_bigEndian hFits t
  · refine ⟨_, _, rfl, Or.inr (Or.inr rfl), fun t => ?_⟩
    have hNe : c.long ≠ c.medium := fun hEq => by
      rw [hEq] at hLong
      omega
    rw [readHeader?, if_neg (hRange (by omega)), if_neg hNe, if_pos rfl]
    exact readNat_bigEndian h t

theorem isContainer_of_starts_array (h : ContainerCodes.array.Starts code) :
    isContainer code = true := by
  rcases h with ⟨hLow, hHigh⟩ | rfl | rfl
  · simp only [isContainer, UInt8.le_iff_toNat_le, UInt8.lt_iff_toNat_lt]
    simp [ContainerCodes.array] at hLow hHigh ⊢
    omega
  · rfl
  · rfl

/-- No code starts a map and an array. -/
theorem isContainer_of_starts_map (h : ContainerCodes.map.Starts code) :
    isContainer code = true ∧ ¬ ContainerCodes.array.Starts code := by
  rcases h with ⟨hLow, hHigh⟩ | rfl | rfl
  · have hCode : code.toNat < 0x90 := hHigh
    constructor
    · simp only [isContainer, UInt8.le_iff_toNat_le, UInt8.lt_iff_toNat_lt]
      simp [ContainerCodes.map] at hLow hHigh ⊢
      omega
    · rintro (⟨hArray, -⟩ | rfl | rfl)
      · exact absurd hArray (Nat.not_le_of_lt hCode)
      · exact absurd hCode (by decide)
      · exact absurd hCode (by decide)
  · exact ⟨rfl, by decide⟩
  · exact ⟨rfl, by decide⟩

/-- A container is read if what stands behind its header is. -/
theorem reads_of_header {n : Nat} {bytes : Text} {v : MessagePack}
    (h : ∀ (fuel : Nat) (rest : Text), 2 * bytes.length ≤ fuel →
      readFrom (fuel + 1) (writeHeader c n ++ (bytes ++ rest)) = some (v, rest)) :
    Reads (writeHeader c n ++ bytes) v := by
  intro fuel rest hFuel
  have hHeader : 0 < (writeHeader c n).length := by
    unfold writeHeader
    split
    · simp
    · split <;> simp
  rw [List.length_append] at hFuel
  obtain ⟨fuel, rfl⟩ : ∃ k, fuel = k + 1 := ⟨fuel - 1, by omega⟩
  rw [List.append_assoc]
  exact h fuel rest (by omega)

end Headers

/-! ## Arrays -/

/-- The bytes are read as the items of an array, with fuel to spare. -/
def ReadsItems (bytes : Text) (vs : List MessagePack) : Prop :=
  ∀ (fuel : Nat) (rest : Text), 2 * bytes.length ≤ fuel →
    readItems fuel vs.length (bytes ++ rest) = some (vs, rest)

theorem readsItems_nil : ReadsItems [] [] := by
  intro fuel rest _
  cases fuel <;> rfl

theorem ReadsItems.cons {itemBytes bytes : Text} {v : MessagePack} {vs : List MessagePack}
    (h : ReadsItems bytes vs) (hItem : Reads itemBytes v) :
    ReadsItems (itemBytes ++ bytes) (v :: vs) := by
  intro fuel rest hFuel
  have hItemPos := hItem.length_pos
  rw [List.length_append] at hFuel
  obtain ⟨fuel, rfl⟩ : ∃ k, fuel = k + 1 := ⟨fuel - 1, by omega⟩
  rw [List.append_assoc, List.length_cons, readItems, hItem fuel _ (by omega)]
  dsimp only
  rw [h fuel rest (by omega)]
  rfl

theorem readsItems_flatMap {α : Type} {bytes : α → Text} {value : α → MessagePack} {xs : List α}
    (h : ∀ x ∈ xs, Reads (bytes x) (value x)) : ReadsItems (xs.flatMap bytes) (xs.map value) := by
  induction xs with
  | nil => exact readsItems_nil
  | cons x xs ih =>
      obtain ⟨hFirst, hRest⟩ := List.forall_mem_cons.mp h
      rw [List.flatMap_cons, List.map_cons]
      exact (ih hRest).cons hFirst

theorem readFrom_writeHeader_array {n : Nat} (h : n < 2 ^ 32) (fuel : Nat) (t : Text) :
    readFrom (fuel + 1) (writeHeader .array n ++ t) =
      (readItems fuel n t).map fun (items, rest) => (.array items, rest) := by
  obtain ⟨code, bytes, hWritten, hStarts, hRead⟩ := exists_writeHeader .array h
  rw [hWritten, List.cons_append, readFrom, isContainer_of_starts_array hStarts, hRead]
  rfl

theorem reads_array {bytes : Text} {vs : List MessagePack} (hCount : vs.length < 2 ^ 32)
    (h : ReadsItems bytes vs) : Reads (writeHeader .array vs.length ++ bytes) (.array vs) := by
  apply reads_of_header
  intro fuel rest hFuel
  rw [readFrom_writeHeader_array hCount, h fuel rest hFuel]
  rfl

/-! ## Maps -/

/-- The bytes are read as the entries of a map, with fuel to spare. -/
def ReadsEntries (bytes : Text) (es : List (MessagePack × MessagePack)) : Prop :=
  ∀ (fuel : Nat) (rest : Text), 2 * bytes.length ≤ fuel →
    readEntries fuel es.length (bytes ++ rest) = some (es, rest)

theorem readsEntries_nil : ReadsEntries [] [] := by
  intro fuel rest _
  cases fuel <;> rfl

theorem ReadsEntries.cons {keyBytes valueBytes bytes : Text} {k v : MessagePack}
    {es : List (MessagePack × MessagePack)} (hKey : Reads keyBytes k) (hValue : Reads valueBytes v)
    (h : ReadsEntries bytes es) :
    ReadsEntries (keyBytes ++ valueBytes ++ bytes) ((k, v) :: es) := by
  intro fuel rest hFuel
  have hKeyPos := hKey.length_pos
  have hValuePos := hValue.length_pos
  rw [List.length_append, List.length_append] at hFuel
  obtain ⟨fuel, rfl⟩ : ∃ k, fuel = k + 1 := ⟨fuel - 1, by omega⟩
  rw [List.append_assoc, List.append_assoc, List.length_cons, readEntries,
    hKey fuel _ (by omega)]
  dsimp only
  rw [hValue fuel _ (by omega)]
  dsimp only
  rw [h fuel rest (by omega)]
  rfl

theorem readFrom_writeHeader_map {n : Nat} (h : n < 2 ^ 32) (fuel : Nat) (t : Text) :
    readFrom (fuel + 1) (writeHeader .map n ++ t) =
      (readEntries fuel n t).map fun (entries, rest) => (.map entries, rest) := by
  obtain ⟨code, bytes, hWritten, hStarts, hRead⟩ := exists_writeHeader .map h
  obtain ⟨hContainer, hNoArray⟩ := isContainer_of_starts_map hStarts
  rw [hWritten, List.cons_append, readFrom, hContainer, readHeader?_of_not_starts hNoArray, hRead]
  rfl

theorem reads_map {bytes : Text} {es : List (MessagePack × MessagePack)}
    (hCount : es.length < 2 ^ 32) (h : ReadsEntries bytes es) :
    Reads (writeHeader .map es.length ++ bytes) (.map es) := by
  apply reads_of_header
  intro fuel rest hFuel
  rw [readFrom_writeHeader_map hCount, h fuel rest hFuel]
  rfl

end TokenLint.MessagePack
