import Mathlib.Algebra.GroupWithZero.Nat
import TokenLint.MessagePack
import TokenLint.Proofs.Text.Utf8

/-!
# The size of a value that was read

Every value takes up at least as many bytes of the text as its texts have characters, whatever
widths the lengths and numbers in it are written in.

* `characters_of_readFrom`: one value and what is left behind it.
* `characters_of_parse`: the value at the start of a text.
-/

namespace TokenLint.MessagePack

/-- How many characters the texts of a value have. Keys do not count. -/
def characters : MessagePack → Nat
  | .text t => Text.runeCount t
  | .array items => (items.map characters).sum
  | .map entries => (entries.map fun e => characters e.2).sum
  | .nil | .bool _ | .int _ | .float _ | .extension _ => 0
termination_by v => sizeOf v
decreasing_by
  · have hItem := List.sizeOf_lt_of_mem ‹_›
    simp only [MessagePack.array.sizeOf_spec]
    omega
  · have hEntry := List.sizeOf_lt_of_mem ‹_›
    cases e
    simp only [MessagePack.map.sizeOf_spec, Prod.mk.sizeOf_spec] at *
    omega

variable {code : UInt8} {t rest bytes : Text} {v : MessagePack} {n width : Nat}

/-! ## Values that are no containers -/

theorem length_of_takeBytes (h : takeBytes n t = some (bytes, rest)) :
    bytes.length + rest.length = t.length := by
  unfold takeBytes at h
  split at h
  · cases h
    rw [← List.length_append, List.take_append_drop]
  · cases h

theorem length_of_readNat (h : readNat width t = some (n, rest)) : rest.length ≤ t.length := by
  obtain ⟨⟨bytes, after⟩, hTake, hEq⟩ := Option.map_eq_some_iff.mp h
  cases hEq
  have hLength := length_of_takeBytes hTake
  omega

/-- A value that is made of bytes and has no more characters than these. -/
theorem characters_of_takeBytes {f : Text × Text → MessagePack × Text}
    (hf : ∀ p, (f p).2 = p.2 ∧ (f p).1.characters ≤ p.1.length)
    (h : (takeBytes n t).map f = some (v, rest)) : v.characters + rest.length ≤ t.length := by
  obtain ⟨⟨bytes, after⟩, hTake, hEq⟩ := Option.map_eq_some_iff.mp h
  have hLength := length_of_takeBytes hTake
  have hValue := hf (bytes, after)
  rw [hEq] at hValue
  have hRest : rest = after := hValue.1
  have hCharacters : v.characters ≤ bytes.length := hValue.2
  rw [hRest]
  omega

/-- A value that is made of a number and has no characters. -/
theorem characters_of_readNat {f : Nat × Text → MessagePack × Text}
    (hf : ∀ p, (f p).2 = p.2 ∧ (f p).1.characters = 0)
    (h : (readNat width t).map f = some (v, rest)) : v.characters + rest.length ≤ t.length := by
  rw [readNat, Option.map_map] at h
  refine characters_of_takeBytes (fun p => ?_) h
  obtain ⟨hRest, hNone⟩ := hf (ofBigEndian p.1, p.2)
  exact ⟨hRest, Nat.le_trans (Nat.le_of_eq hNone) (Nat.zero_le _)⟩

theorem characters_text_le (t : Text) : (text t).characters ≤ t.length := by
  rw [characters]
  exact Text.runeCount_le_length t

theorem characters_of_readText (h : readText width t = some (v, rest)) :
    v.characters + rest.length ≤ t.length := by
  obtain ⟨⟨n, after⟩, hNat, hText⟩ := Option.bind_eq_some_iff.mp h
  obtain ⟨⟨bytes, after'⟩, hTake, hEq⟩ := Option.bind_eq_some_iff.mp hText
  cases hEq
  have hLength := length_of_readNat hNat
  have hBytes := length_of_takeBytes hTake
  have hCharacters := characters_text_le bytes
  omega

theorem characters_of_readExtension (h : readExtension n t = some (v, rest)) :
    v.characters + rest.length ≤ t.length :=
  characters_of_takeBytes (fun p => ⟨rfl, by simp [characters]⟩) h

theorem characters_of_readSizedExtension
    (h : ((readNat width t).bind fun (n, t) => readExtension n t) = some (v, rest)) :
    v.characters + rest.length ≤ t.length := by
  obtain ⟨⟨n, after⟩, hNat, hExtension⟩ := Option.bind_eq_some_iff.mp h
  have hLength := length_of_readNat hNat
  have hRest := characters_of_readExtension hExtension
  omega

theorem characters_of_readUnsigned (h : readUnsigned width t = some (v, rest)) :
    v.characters + rest.length ≤ t.length :=
  characters_of_readNat (fun p => ⟨rfl, by simp [characters]⟩) h

theorem characters_of_readSigned (h : readSigned width t = some (v, rest)) :
    v.characters + rest.length ≤ t.length :=
  characters_of_readNat (fun p => ⟨rfl, by simp [characters]⟩) h

theorem characters_of_readScalar (h : readScalar code t = some (v, rest)) :
    v.characters + rest.length ≤ t.length := by
  have hFixed : ∀ {y : MessagePack}, some (y, t) = some (v, rest) → y.characters = 0 →
      v.characters + rest.length ≤ t.length := by
    intro y hSome hy
    cases hSome
    omega
  have hFloat : ∀ {n : Nat}, (takeBytes n t).map (fun p => (float p.1, p.2)) =
      some (v, rest) → v.characters + rest.length ≤ t.length :=
    characters_of_takeBytes fun p => ⟨rfl, by simp [characters]⟩
  rw [readScalar.eq_def, ite_eq_iff] at h
  rcases h with ⟨-, h⟩ | ⟨-, h⟩
  · exact hFixed h (by simp [characters])
  rcases ite_eq_iff.mp h with ⟨-, h⟩ | ⟨-, h⟩
  · exact hFixed h (by simp [characters])
  rcases ite_eq_iff.mp h with ⟨-, h⟩ | ⟨-, h⟩
  · exact characters_of_takeBytes (fun p => ⟨rfl, characters_text_le p.1⟩) h
  -- the codes of their own, each with one of the readers above
  split at h
  case h_1 | h_2 | h_3 => exact hFixed h (by simp [characters])
  case h_4 | h_5 | h_6 | h_7 | h_8 | h_9 => exact characters_of_readText h
  case h_10 | h_11 | h_12 => exact characters_of_readSizedExtension h
  case h_13 | h_14 => exact hFloat h
  case h_15 | h_16 | h_17 | h_18 => exact characters_of_readUnsigned h
  case h_19 | h_20 | h_21 | h_22 => exact characters_of_readSigned h
  case h_23 | h_24 | h_25 | h_26 | h_27 => exact characters_of_readExtension h
  case h_28 => cases h

/-! ## Containers -/

theorem length_of_readHeader? {c : ContainerCodes} (h : readHeader? c code t = some (n, rest)) :
    rest.length ≤ t.length := by
  unfold readHeader? at h
  split at h
  · obtain ⟨-, rfl⟩ := Prod.mk.inj (Option.some.inj h)
    exact Nat.le_refl _
  split at h
  · exact length_of_readNat h
  split at h
  · exact length_of_readNat h
  · cases h

/-- Within the fuel, a value takes up as many bytes as it has characters. -/
def Shrinks (fuel : Nat) : Prop :=
  ∀ {t rest : Text} {v : MessagePack}, readFrom fuel t = some (v, rest) →
    v.characters + rest.length ≤ t.length

theorem characters_of_readItems {fuel : Nat} (hValue : ∀ k < fuel, Shrinks k)
    {vs : List MessagePack} (h : readItems fuel n t = some (vs, rest)) :
    (vs.map characters).sum + rest.length ≤ t.length := by
  induction n generalizing fuel t vs with
  | zero =>
      rw [readItems] at h
      cases h
      simp
  | succ n ih =>
      cases fuel with
      | zero => cases h
      | succ fuel =>
          rw [readItems] at h
          split at h
          · cases h
          · rename_i v after hRead
            obtain ⟨⟨vs', after'⟩, hItems, hEq⟩ := Option.map_eq_some_iff.mp h
            cases hEq
            have hFirst := hValue fuel (Nat.lt_succ_self _) hRead
            have hRest := ih (fun k hk => hValue k (by omega)) hItems
            rw [List.map_cons, List.sum_cons]
            omega

theorem characters_of_readEntries {fuel : Nat} (hValue : ∀ k < fuel, Shrinks k)
    {es : List (MessagePack × MessagePack)} (h : readEntries fuel n t = some (es, rest)) :
    (es.map fun e => e.2.characters).sum + rest.length ≤ t.length := by
  induction n generalizing fuel t es with
  | zero =>
      rw [readEntries] at h
      cases h
      simp
  | succ n ih =>
      cases fuel with
      | zero => cases h
      | succ fuel =>
          rw [readEntries] at h
          split at h
          · cases h
          split at h
          · cases h
          rename_i k afterKey hKey _ v afterValue hRead
          obtain ⟨⟨es', after'⟩, hEntries, hEq⟩ := Option.map_eq_some_iff.mp h
          cases hEq
          have hFirst := hValue fuel (Nat.lt_succ_self _) hKey
          have hSecond := hValue fuel (Nat.lt_succ_self _) hRead
          have hRest := ih (fun k hk => hValue k (by omega)) hEntries
          rw [List.map_cons, List.sum_cons]
          dsimp only
          omega

/-- Every value takes up at least as many bytes as its texts have characters. -/
theorem characters_of_readFrom (fuel : Nat) : Shrinks fuel := by
  induction fuel using Nat.strongRecOn with
  | ind fuel ih =>
      intro t rest v h
      cases fuel with
      | zero =>
          rw [readFrom] at h
          cases h
      | succ fuel =>
          have hInner : ∀ k < fuel, Shrinks k := fun k hk => ih k (by omega)
          cases t with
          | nil => cases h
          | cons code t =>
              rw [readFrom] at h
              rw [List.length_cons]
              split at h
              · have hScalar := characters_of_readScalar h
                omega
              split at h
              · rename_i n after hLength
                obtain ⟨⟨items, after'⟩, hItems, hEq⟩ := Option.map_eq_some_iff.mp h
                cases hEq
                have hHeader := length_of_readHeader? hLength
                have hSum := characters_of_readItems hInner hItems
                rw [characters]
                omega
              split at h
              · rename_i n after hLength
                obtain ⟨⟨entries, after'⟩, hEntries, hEq⟩ := Option.map_eq_some_iff.mp h
                cases hEq
                have hHeader := length_of_readHeader? hLength
                have hSum := characters_of_readEntries hInner hEntries
                rw [characters]
                omega
              · cases h

/-- The texts of a value have no more characters than the text it was read from has bytes. -/
theorem characters_of_parse (h : parse t = some v) : v.characters ≤ t.length := by
  obtain ⟨⟨v', rest⟩, hRead, hEq⟩ := Option.map_eq_some_iff.mp h
  have hSum := characters_of_readFrom _ hRead
  have hSame : v' = v := hEq
  rw [← hSame]
  omega

end TokenLint.MessagePack
