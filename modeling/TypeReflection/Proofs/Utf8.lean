import TypeReflection.Text.Utf8

/-! # Texts read back from UTF-8

No character but NUL has a zero byte in its UTF-8 form, so that the bytes of a text up to the first
zero byte are read as the text up to its first NUL. A text has more bytes than characters unless it
is ASCII.
-/

namespace TypeReflection

/-- The text up to its first NUL character. -/
def cutAtNul (text : String) : String :=
  String.ofList (text.toList.takeWhile (· ≠ '\x00'))

theorem utf8Bytes_eq (text : String) :
    utf8Bytes text = text.toList.flatMap String.utf8EncodeChar := by
  rw [utf8Bytes, String.toUTF8_eq_toByteArray, ← String.utf8Encode_toList, List.utf8Encode,
    List.data_toByteArray]

theorem ne_zero_of_mem_utf8EncodeChar {char : Char} (visible : char ≠ '\x00') :
    ∀ byte ∈ String.utf8EncodeChar char, byte ≠ 0 := by
  have positive : 0 < char.val.toNat := by
    refine Nat.pos_of_ne_zero fun null => visible ?_
    exact Char.ext (UInt32.toNat_inj.mp null)
  have nonzero : ∀ number : Nat, 0 < number → number < 256 → UInt8.ofNat number ≠ 0 := by
    intro number some small null
    have value := congrArg UInt8.toNat null
    rw [UInt8.toNat_ofNat_of_lt' small] at value
    exact absurd value (Nat.ne_of_gt some)
  intro byte member
  rw [String.utf8EncodeChar] at member
  -- one case for each number of bytes
  split at member
  · rw [List.mem_singleton.mp member]
    exact nonzero _ positive (by omega)
  · split at member
    · simp only [List.mem_cons, List.not_mem_nil, or_false] at member
      rcases member with rfl | rfl
      · exact nonzero _ (by omega) (by omega)
      · exact nonzero _ (by omega) (by omega)
    · split at member
      · simp only [List.mem_cons, List.not_mem_nil, or_false] at member
        rcases member with rfl | rfl | rfl
        · exact nonzero _ (by omega) (by omega)
        · exact nonzero _ (by omega) (by omega)
        · exact nonzero _ (by omega) (by omega)
      · simp only [List.mem_cons, List.not_mem_nil, or_false] at member
        rcases member with rfl | rfl | rfl | rfl
        · exact nonzero _ (by omega) (by omega)
        · exact nonzero _ (by omega) (by omega)
        · exact nonzero _ (by omega) (by omega)
        · exact nonzero _ (by omega) (by omega)

theorem takeWhile_flatMap_utf8EncodeChar (chars : List Char) :
    (chars.flatMap String.utf8EncodeChar).takeWhile (· ≠ 0)
      = (chars.takeWhile (· ≠ '\x00')).flatMap String.utf8EncodeChar := by
  induction chars with
  | nil => rfl
  | cons char chars ih =>
      rw [List.flatMap_cons]
      by_cases null : char = '\x00'
      · subst null
        rfl
      · rw [List.takeWhile_append_of_pos, List.takeWhile_cons_of_pos, List.flatMap_cons, ih]
        · simpa using null
        · simpa using ne_zero_of_mem_utf8EncodeChar null

theorem utf8CharsFrom_skip (skipped rest : List UInt8) :
    utf8CharsFrom skipped.length (skipped ++ rest) = utf8CharsFrom 0 rest := by
  induction skipped with
  | nil => rfl
  | cons byte skipped ih => exact ih

theorem utf8Front?_encoded (char : Char) (rest : List UInt8) :
    utf8Front? (String.utf8EncodeChar char ++ rest) = some char := by
  have length := String.length_utf8EncodeChar char
  have small := char.utf8Size_le_four
  rw [utf8Front?, List.take_append, List.take_of_length_le (by omega), List.toByteArray_append]
  exact ByteArray.utf8DecodeChar?_utf8EncodeChar_append

/-- What was encoded is decoded again. -/
theorem utf8CharsFrom_encoded (chars : List Char) :
    utf8CharsFrom 0 (chars.flatMap String.utf8EncodeChar) = chars := by
  induction chars with
  | nil => rfl
  | cons char chars ih =>
      have front := utf8Front?_encoded char (chars.flatMap String.utf8EncodeChar)
      have length := String.length_utf8EncodeChar char
      rw [List.flatMap_cons]
      cases encoded : String.utf8EncodeChar char with
      | nil =>
          have positive := char.utf8Size_pos
          rw [encoded, List.length_nil] at length
          omega
      | cons lead followers =>
          rw [encoded, List.length_cons] at length
          rw [encoded] at front
          have skipped : char.utf8Size - 1 = followers.length := by omega
          -- the lead byte gives the character, and the bytes that belong to it are passed over
          rw [List.cons_append] at front ⊢
          rw [utf8CharsFrom, front]
          dsimp only
          rw [skipped, utf8CharsFrom_skip, ih]

/-! ## Sizes -/

/-- There are as many bytes as characters at least, and no more where all of them are ASCII. -/
theorem length_le_utf8ByteSize (text : String) : text.length ≤ text.utf8ByteSize ∧
    (text.length = text.utf8ByteSize ↔ ∀ char ∈ text.toList, char.val ≤ 127) := by
  obtain ⟨chars, rfl⟩ : ∃ chars, text = String.ofList chars := ⟨_, String.ofList_toList.symm⟩
  rw [String.length_ofList, String.toList_ofList]
  induction chars with
  | nil => simp
  | cons char chars ih =>
      have positive := char.utf8Size_pos
      rw [String.ofList_cons, String.utf8ByteSize_append, String.utf8ByteSize_singleton,
        List.length_cons, List.forall_mem_cons, ← ih.2, ← Char.utf8Size_eq_one_iff]
      have below := ih.1
      omega

theorem utf8Lossy_cut (text : String) :
    utf8Lossy ((utf8Bytes text).takeWhile (· ≠ 0)) = cutAtNul text := by
  rw [utf8Lossy, utf8Bytes_eq, takeWhile_flatMap_utf8EncodeChar, utf8CharsFrom_encoded, cutAtNul]

end TypeReflection
