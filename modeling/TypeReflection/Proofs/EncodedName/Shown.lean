import Mathlib.Data.List.Basic
import TypeReflection.EncodedName
import TypeReflection.Proofs.Text.Numeral

/-! # Shown names read back

What is shown of a name is printable ASCII. A name without a backslash is read back from it, so that
two such names are never shown alike. With a backslash that fails: each name that has a byte to
escape is shown like another one, which spells the escape out.
-/

namespace TypeReflection

/-- Whether a byte is shown as it is. -/
def IsPrintable (byte : UInt8) : Prop :=
  0x20 ≤ byte ∧ byte ≤ 0x7E

instance (byte : UInt8) : Decidable (IsPrintable byte) :=
  inferInstanceAs (Decidable (_ ∧ _))

/-- The code of a backslash. -/
def backslash : UInt8 := 0x5C

/-- The bytes that shown characters stand for: one byte for `\x` and two hexadecimal digits, and for
    any other character its code. -/
def unescape : List Char → List UInt8
  | [] => []
  | '\\' :: 'x' :: high :: low :: rest =>
      match ofHexDigits? [high, low] with
      | some byte => .ofNat byte :: unescape rest
      | none => backslash :: unescape ('x' :: high :: low :: rest)
  | char :: rest => .ofNat char.toNat :: unescape rest

theorem unescape_cons_of_ne {char : Char} (plain : char ≠ '\\') (rest : List Char) :
    unescape (char :: rest) = .ofNat char.toNat :: unescape rest := by
  rw [unescape]
  rintro high low rest' rfl
  exact absurd rfl plain

theorem unescape_escape (byte : UInt8) (rest : List Char) :
    unescape ('\\' :: 'x' :: (hexPair byte ++ rest)) = byte :: unescape rest := by
  have read := ofHexDigits?_hexPair byte
  rw [hexPair] at read
  rw [hexPair, List.cons_append, List.cons_append, List.nil_append, unescape, read]
  simp

section Printable

variable {byte : UInt8}

theorem IsPrintable.toNat (printable : IsPrintable byte) :
    0x20 ≤ byte.toNat ∧ byte.toNat ≤ 0x7E :=
  ⟨UInt8.le_iff_toNat_le.mp printable.1, UInt8.le_iff_toNat_le.mp printable.2⟩

theorem IsPrintable.toNat_char (printable : IsPrintable byte) :
    (Char.ofNat byte.toNat).toNat = byte.toNat := by
  have bounds := printable.toNat
  have valid : byte.toNat.isValidChar := .inl (by omega)
  rw [Char.ofNat, dif_pos valid]
  rfl

end Printable

namespace EncodedName

variable {byte : UInt8} {char : Char}

theorem shownByte_of_printable (printable : IsPrintable byte) :
    shownByte byte = [Char.ofNat byte.toNat] := by
  rw [shownByte, if_pos (by simpa [IsPrintable] using printable)]

theorem shownByte_of_not_printable (escaped : ¬IsPrintable byte) :
    shownByte byte = '\\' :: 'x' :: hexPair byte := by
  rw [shownByte, if_neg (by simpa [IsPrintable] using escaped)]

theorem toNat_bounds_of_mem_shownByte (member : char ∈ shownByte byte) :
    0x20 ≤ char.toNat ∧ char.toNat ≤ 0x7E := by
  by_cases printable : IsPrintable byte
  · rw [shownByte_of_printable printable, List.mem_singleton] at member
    rw [member, printable.toNat_char]
    exact printable.toNat
  · have small := byte.toNat_lt
    rw [shownByte_of_not_printable printable] at member
    simp only [hexPair, List.mem_cons, List.not_mem_nil, or_false] at member
    rcases member with rfl | rfl | rfl | rfl
    · decide
    · decide
    · exact toNat_digitChar_bounds (by omega)
    · exact toNat_digitChar_bounds (by omega)

theorem toNat_bounds_of_mem_shown {name : EncodedName} (member : char ∈ name.shown.toList) :
    0x20 ≤ char.toNat ∧ char.toNat ≤ 0x7E := by
  rw [shown, String.toList_ofList, List.mem_flatMap] at member
  obtain ⟨byte, -, shows⟩ := member
  exact toNat_bounds_of_mem_shownByte shows

/-- The first byte is read back, whatever comes behind it. -/
theorem unescape_shownByte (plain : byte ≠ backslash) (rest : List Char) :
    unescape (shownByte byte ++ rest) = byte :: unescape rest := by
  by_cases printable : IsPrintable byte
  · have code := printable.toNat_char
    have other : Char.ofNat byte.toNat ≠ '\\' := by
      intro same
      rw [same] at code
      exact plain (UInt8.toNat_inj.mp code.symm)
    rw [shownByte_of_printable printable, List.singleton_append, unescape_cons_of_ne other, code,
      UInt8.ofNat_toNat]
  · rw [shownByte_of_not_printable printable]
    exact unescape_escape byte rest

theorem unescape_shown {name : EncodedName} (plain : backslash ∉ name.bytes) :
    unescape name.shown.toList = name.bytes := by
  obtain ⟨bytes⟩ := name
  rw [shown, String.toList_ofList]
  induction bytes with
  | nil => rfl
  | cons byte bytes ih =>
      rw [List.mem_cons, not_or] at plain
      rw [List.flatMap_cons, unescape_shownByte (Ne.symm plain.1), ih plain.2]

theorem shown_injective {name other : EncodedName} (plain : backslash ∉ name.bytes)
    (otherPlain : backslash ∉ other.bytes) (same : name.shown = other.shown) : name = other := by
  have read := unescape_shown plain
  rw [same, unescape_shown otherPlain] at read
  exact congrArg EncodedName.mk read.symm

/-! ## Names that spell out escapes -/

/-- The name whose bytes are the characters that are shown of another one. -/
def spelledOut (name : EncodedName) : EncodedName :=
  ⟨name.shown.toList.map fun char => .ofNat char.toNat⟩

theorem toNat_code_of_mem_shown {name : EncodedName} (member : char ∈ name.shown.toList) :
    (UInt8.ofNat char.toNat).toNat = char.toNat := by
  have bounds := toNat_bounds_of_mem_shown member
  rw [UInt8.toNat_ofNat']
  omega

theorem isPrintable_of_mem_spelledOut {name : EncodedName}
    (member : byte ∈ name.spelledOut.bytes) : IsPrintable byte := by
  obtain ⟨char, shows, rfl⟩ := List.mem_map.mp member
  rw [IsPrintable, UInt8.le_iff_toNat_le, UInt8.le_iff_toNat_le, toNat_code_of_mem_shown shows]
  exact toNat_bounds_of_mem_shown shows

theorem shown_spelledOut (name : EncodedName) : name.spelledOut.shown = name.shown := by
  have each : ∀ char ∈ name.shown.toList, shownByte (.ofNat char.toNat) = [char] := by
    intro char shows
    have printable := isPrintable_of_mem_spelledOut (List.mem_map_of_mem shows)
    rw [shownByte_of_printable printable, toNat_code_of_mem_shown shows, Char.ofNat_toNat]
  rw [shown, spelledOut, List.flatMap_map, List.flatMap_congr each, List.flatMap_singleton',
    String.ofList_toList]

/-- A name with a byte to escape is shown like another one. -/
theorem exists_shown_alike {name : EncodedName} (member : byte ∈ name.bytes)
    (escaped : ¬IsPrintable byte) : ∃ other, other ≠ name ∧ other.shown = name.shown := by
  refine ⟨name.spelledOut, ?_, shown_spelledOut name⟩
  intro same
  rw [← same] at member
  exact escaped (isPrintable_of_mem_spelledOut member)

end EncodedName

end TypeReflection
