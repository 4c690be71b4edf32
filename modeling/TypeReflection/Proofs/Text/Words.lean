/-! # Words parted by spaces

However many spaces stand before a word, the word and what comes behind it can be told from the
whole text.
-/

namespace TypeReflection

/-- Characters that are no space, at least one. -/
def IsWord (chars : List Char) : Prop :=
  chars ≠ [] ∧ ' ' ∉ chars

/-- Nothing, or what begins with a space. -/
def EndsWord (chars : List Char) : Prop :=
  ∀ char ∈ chars.head?, char = ' '

theorem IsWord.head?_ne {word : List Char} (whole : IsWord word) (rest : List Char) :
    (word ++ rest).head? ≠ some ' ' := by
  cases word with
  | nil => exact absurd rfl whole.1
  | cons char word =>
      intro blank
      exact whole.2 (Option.some.inj blank ▸ List.mem_cons_self)

/-- Spaces are counted up to the first other character. -/
theorem spaces_cancel {count count' : Nat} {rest rest' : List Char} (stop : rest.head? ≠ some ' ')
    (stop' : rest'.head? ≠ some ' ')
    (same : List.replicate count ' ' ++ rest = List.replicate count' ' ' ++ rest') :
    count = count' ∧ rest = rest' := by
  induction count generalizing count' with
  | zero =>
      cases count' with
      | zero => exact ⟨rfl, same⟩
      | succ count' =>
          refine absurd ?_ stop
          rw [List.replicate_zero, List.nil_append] at same
          rw [same]
          rfl
  | succ count ih =>
      cases count' with
      | zero =>
          refine absurd ?_ stop'
          rw [List.replicate_zero, List.nil_append] at same
          rw [← same]
          rfl
      | succ count' =>
          rw [List.replicate_succ, List.replicate_succ, List.cons_append, List.cons_append] at same
          obtain ⟨equal, behind⟩ := ih (List.cons.inj same).2
          exact ⟨congrArg _ equal, behind⟩

/-- A word reaches up to the first space behind it. -/
theorem word_cancel {word word' rest rest' : List Char} (whole : ' ' ∉ word)
    (whole' : ' ' ∉ word') (ends : EndsWord rest) (ends' : EndsWord rest')
    (same : word ++ rest = word' ++ rest') : word = word' ∧ rest = rest' := by
  induction word generalizing word' with
  | nil =>
      cases word' with
      | nil => exact ⟨rfl, same⟩
      | cons char word' =>
          rw [List.nil_append] at same
          have blank : char = ' ' := ends char (by rw [same]; rfl)
          exact absurd (blank ▸ List.mem_cons_self) whole'
  | cons char word ih =>
      cases word' with
      | nil =>
          rw [List.nil_append] at same
          have blank : char = ' ' := ends' char (by rw [← same]; rfl)
          exact absurd (blank ▸ List.mem_cons_self) whole
      | cons other word' =>
          rw [List.mem_cons, not_or] at whole whole'
          obtain ⟨first, later⟩ := List.cons.inj same
          obtain ⟨equal, behind⟩ := ih whole.2 whole'.2 later
          exact ⟨by rw [first, equal], behind⟩

/-- The first word of a text, and what comes behind it. -/
theorem spaced_word_cancel {count count' : Nat} {word word' rest rest' : List Char}
    (whole : IsWord word) (whole' : IsWord word') (ends : EndsWord rest) (ends' : EndsWord rest')
    (same : List.replicate count ' ' ++ (word ++ rest)
      = List.replicate count' ' ' ++ (word' ++ rest')) : word = word' ∧ rest = rest' := by
  have words := (spaces_cancel (whole.head?_ne rest) (whole'.head?_ne rest') same).2
  exact word_cancel whole.2 whole'.2 ends ends' words

end TypeReflection
