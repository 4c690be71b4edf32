import TypeReflection.Text.Numeral

/-! # Numerals read back

A number can be told from its numeral, in decimal and in hexadecimal, and a numeral is made of
letters and digits alone.
-/

namespace TypeReflection

theorem isAlphanum_digitChar {digit : Nat} (small : digit < 16) :
    (Nat.digitChar digit).isAlphanum := by
  have all : ∀ digit < 16, (Nat.digitChar digit).isAlphanum := by decide
  exact all digit small

theorem toNat_digitChar_bounds {digit : Nat} (small : digit < 16) :
    0x20 ≤ (Nat.digitChar digit).toNat ∧ (Nat.digitChar digit).toNat ≤ 0x7E := by
  have all : ∀ digit < 16,
      0x20 ≤ (Nat.digitChar digit).toNat ∧ (Nat.digitChar digit).toNat ≤ 0x7E := by decide
  exact all digit small

theorem isAlphanum_of_mem_toDigits {base number : Nat} {char : Char} (large : 1 < base)
    (small : base ≤ 16) (member : char ∈ Nat.toDigits base number) : char.isAlphanum := by
  induction number using Nat.base_induction base large with
  | single digit below =>
      rw [Nat.toDigits_of_lt_base below, List.mem_singleton] at member
      subst member
      exact isAlphanum_digitChar (by omega)
  | digit number digit below positive ih =>
      rw [← Nat.toDigits_append_toDigits large positive below, Nat.toDigits_of_lt_base below,
        List.mem_append, List.mem_singleton] at member
      rcases member with front | rfl
      · exact ih front
      · exact isAlphanum_digitChar (by omega)

theorem toDigits_ten_injective {number other : Nat}
    (same : Nat.toDigits 10 number = Nat.toDigits 10 other) : number = other := by
  have read := congrArg (Nat.ofDigitChars 10 · 0) same
  simpa using read

theorem hexValue?_digitChar {digit : Nat} (small : digit < 16) :
    hexValue? (Nat.digitChar digit) = some digit := by
  have all : ∀ digit < 16, hexValue? (Nat.digitChar digit) = some digit := by decide
  exact all digit small

theorem ofHexDigits?_hexPair (byte : UInt8) : ofHexDigits? (hexPair byte) = some byte.toNat := by
  have small := byte.toNat_lt
  have high : hexValue? (Nat.digitChar (byte.toNat / 16)) = some (byte.toNat / 16) :=
    hexValue?_digitChar (by omega)
  have low : hexValue? (Nat.digitChar (byte.toNat % 16)) = some (byte.toNat % 16) :=
    hexValue?_digitChar (by omega)
  have whole := Nat.div_add_mod' byte.toNat 16
  simp [ofHexDigits?, hexPair, high, low, whole]

theorem ofHexDigits?_toDigits (number : Nat) :
    ofHexDigits? (Nat.toDigits 16 number) = some number := by
  induction number using Nat.base_induction 16 (by decide) with
  | single digit below =>
      rw [Nat.toDigits_of_lt_base below]
      simp [ofHexDigits?, hexValue?_digitChar below]
  | digit number digit below positive ih =>
      rw [ofHexDigits?] at ih ⊢
      rw [← Nat.toDigits_append_toDigits (by decide) positive below,
        Nat.toDigits_of_lt_base below, List.foldlM_append, ih]
      simp [hexValue?_digitChar below, Nat.mul_comm]

theorem hex_injective {number other : Nat} (same : hex number = hex other) : number = other := by
  have digits : Nat.toDigits 16 number = Nat.toDigits 16 other := by
    simpa [hex, hexDigits, ← String.toList_inj] using same
  have read := congrArg ofHexDigits? digits
  simpa [ofHexDigits?_toDigits] using read

theorem isAlphanum_of_mem_hex {number : Nat} {char : Char} (member : char ∈ (hex number).toList) :
    char.isAlphanum := by
  simp only [hex, hexDigits, String.toList_append, String.toList_ofList, List.mem_append] at member
  rcases member with mark | digit
  · have all : ∀ char ∈ "0x".toList, char.isAlphanum := by simp
    exact all char mark
  · exact isAlphanum_of_mem_toDigits (by decide) (by decide) digit

end TypeReflection
