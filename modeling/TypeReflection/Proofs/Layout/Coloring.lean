import TypeReflection.Proofs.Layout.Listing

/-! # Colors only decorate

The escape sequences of a palette can be erased from a listing again. All that is needed of them is
that they begin with a character that no text has, and that none of them begins another.
-/

namespace TypeReflection

/-- Characters without the sequences that occur among them, found from the left, the next `pending`
    characters belonging to an occurrence. -/
def eraseFrom (sequences : List String) : (pending : Nat) → List Char → List Char
  | _, [] => []
  | pending + 1, _ :: rest => eraseFrom sequences pending rest
  | 0, char :: rest =>
      match sequences.find? (·.toList.isPrefixOf (char :: rest)) with
      | some found => eraseFrom sequences (found.length - 1) rest
      | none => char :: eraseFrom sequences 0 rest

/-- A text without the sequences that occur in it. -/
def erase (sequences : List String) (text : String) : String :=
  String.ofList (eraseFrom sequences 0 text.toList)

theorem eraseFrom_skip (sequences : List String) (skipped rest : List Char) :
    eraseFrom sequences skipped.length (skipped ++ rest) = eraseFrom sequences 0 rest := by
  induction skipped with
  | nil => rfl
  | cons char skipped ih => exact ih

namespace Palette

/-- The escape sequences of a palette. -/
def sequences (palette : Palette) : List String :=
  [palette.type, palette.field, palette.detail, palette.reset]

/-- Every sequence begins with `mark`, and none of them is the beginning of another. -/
structure IsMarkedBy (palette : Palette) (mark : Char) : Prop where
  begins : ∀ sequence ∈ palette.sequences, sequence.toList.head? = some mark
  apart : ∀ sequence ∈ palette.sequences, ∀ other ∈ palette.sequences,
    sequence.toList <+: other.toList → sequence = other

theorem colored_isMarkedBy : colored.IsMarkedBy '\x1b' where
  begins := by decide
  apart := by decide

/-- Erasing the sequences of the palette from `painted` gives `text`, whatever comes behind. -/
def Decorates (palette : Palette) (painted text : String) : Prop :=
  ∀ rest, eraseFrom palette.sequences 0 (painted.toList ++ rest)
    = text.toList ++ eraseFrom palette.sequences 0 rest

section Marked

variable {palette : Palette} {mark : Char} (marked : palette.IsMarkedBy mark)

include marked

theorem eraseFrom_sequence {sequence : String} (member : sequence ∈ palette.sequences)
    (rest : List Char) : eraseFrom palette.sequences 0 (sequence.toList ++ rest)
      = eraseFrom palette.sequences 0 rest := by
  have found : palette.sequences.find? (·.toList.isPrefixOf (sequence.toList ++ rest))
      = some sequence := by
    cases search : palette.sequences.find? (·.toList.isPrefixOf (sequence.toList ++ rest)) with
    | none =>
        have missed := List.find?_eq_none.mp search sequence member
        exact absurd (List.isPrefixOf_iff_prefix.mpr (List.prefix_append ..)) missed
    | some other =>
        have among := List.mem_of_find?_eq_some search
        have found : other.toList.isPrefixOf (sequence.toList ++ rest) := by
          simpa using List.find?_some search
        have front := List.isPrefixOf_iff_prefix.mp found
        -- two beginnings of one text: the shorter begins the longer
        rcases List.prefix_or_prefix_of_prefix front (List.prefix_append ..) with shorter | longer
        · rw [marked.apart other among sequence member shorter]
        · rw [marked.apart sequence member other among longer]
  have begins := marked.begins sequence member
  cases chars : sequence.toList with
  | nil =>
      rw [chars] at begins
      cases begins
  | cons char followers =>
      have length : sequence.length - 1 = followers.length := by
        rw [← String.length_toList, chars, List.length_cons, Nat.add_sub_cancel]
      rw [chars, List.cons_append] at found
      rw [List.cons_append, eraseFrom, found]
      dsimp only
      rw [length, eraseFrom_skip]

theorem eraseFrom_clear {chars : List Char} (clear : mark ∉ chars) (rest : List Char) :
    eraseFrom palette.sequences 0 (chars ++ rest)
      = chars ++ eraseFrom palette.sequences 0 rest := by
  induction chars with
  | nil => rfl
  | cons char chars ih =>
      rw [List.mem_cons, not_or] at clear
      have missed : palette.sequences.find? (·.toList.isPrefixOf (char :: (chars ++ rest)))
          = none := by
        rw [List.find?_eq_none]
        intro sequence member front
        obtain ⟨behind, whole⟩ := List.isPrefixOf_iff_prefix.mp front
        have begins := marked.begins sequence member
        cases first : sequence.toList with
        | nil =>
            rw [first] at begins
            cases begins
        | cons lead followers =>
            rw [first] at begins whole
            exact clear.1 (Option.some.inj begins ▸ (List.cons.inj whole).1)
      rw [List.cons_append, eraseFrom, missed]
      dsimp only
      rw [ih clear.2, List.cons_append]

theorem decorates_self {text : String} (clear : mark ∉ text.toList) :
    palette.Decorates text text :=
  eraseFrom_clear marked clear

theorem decorates_plain {text : String} (plain : IsPlain text) (foreign : IsForeign mark) :
    palette.Decorates text text :=
  decorates_self marked (plain.avoids foreign)

theorem decorates_paint {painted text sequence : String} (member : sequence ∈ palette.sequences)
    (inside : palette.Decorates painted text) :
    palette.Decorates (palette.paint sequence painted) text := by
  intro rest
  rw [paint]
  split
  · exact inside rest
  · have reset : palette.reset ∈ palette.sequences := by simp [sequences]
    rw [String.toList_append, String.toList_append, List.append_assoc, List.append_assoc,
      eraseFrom_sequence marked member, inside, eraseFrom_sequence marked reset]

end Marked

variable {palette : Palette}

theorem Decorates.append {painted text painted' text' : String}
    (front : palette.Decorates painted text) (back : palette.Decorates painted' text') :
    palette.Decorates (painted ++ painted') (text ++ text') := by
  intro rest
  rw [String.toList_append, String.toList_append, List.append_assoc, front, back,
    List.append_assoc]

theorem Decorates.join {α : Type} {items : List α} {painted text : α → String}
    (each : ∀ item ∈ items, palette.Decorates (painted item) (text item)) :
    palette.Decorates (String.join (items.map painted)) (String.join (items.map text)) := by
  induction items with
  | nil => exact fun rest => rfl
  | cons item items ih =>
      rw [List.forall_mem_cons] at each
      rw [List.map_cons, List.map_cons, String.join_cons, String.join_cons]
      exact each.1.append (ih each.2)

theorem Decorates.erase_eq {painted text : String} (decorated : palette.Decorates painted text) :
    erase palette.sequences painted = text := by
  have whole := decorated []
  rw [List.append_nil] at whole
  rw [erase, whole]
  simp [eraseFrom]

end Palette

open Palette

section Listings

variable {palette : Palette} {mark : Char} {layout : TypeLayout} {field : FieldLayout}

theorem FieldLayout.typeText_decorated (marked : palette.IsMarkedBy mark)
    (foreign : IsForeign mark) (clear : layout.Avoids mark) (member : field ∈ layout.fields) :
    palette.Decorates (field.typeText palette) (field.typeText .plain) := by
  cases given : field.typeName with
  | none =>
      simp only [typeText, given]
      exact decorates_plain marked (by decide) foreign
  | some typeName =>
      simp only [typeText, given, plain_paint_detail]
      refine .append (decorates_plain marked (by decide) foreign) ?_
      refine decorates_paint marked (by simp [sequences]) (decorates_self marked ?_)
      exact clear _ (TypeLayout.typeName_mem_texts member given)

namespace TypeLayout

theorem rowOf_decorated (marked : palette.IsMarkedBy mark) (foreign : IsForeign mark)
    (clear : layout.Avoids mark) (member : field ∈ layout.fields) :
    palette.Decorates (layout.rowOf palette field) (layout.rowOf .plain field) := by
  have name : palette.Decorates field.name field.name :=
    decorates_self marked (clear _ (fieldName_mem_texts member))
  have offset := decorates_plain marked field.isPlain_offsetText foreign
  have flags := decorates_plain marked field.isPlain_flagsText foreign
  have filled (count : Nat) := decorates_plain marked (isPlain_spaces count) foreign
  have indent : palette.Decorates "  " "  " := decorates_plain marked (by decide) foreign
  have blank : palette.Decorates " " " " := decorates_plain marked (by decide) foreign
  simp only [rowOf, FieldLayout.row, plain_paint_field, plain_paint_detail]
  refine .append (.append (.append (.append (.append indent ?_) blank) ?_) ?_) flags
  · exact decorates_paint marked (by simp [sequences]) (name.append (filled _))
  · exact decorates_paint marked (by simp [sequences]) ((filled _).append offset)
  · exact field.typeText_decorated marked foreign clear member

theorem headLine_decorated (marked : palette.IsMarkedBy mark) (foreign : IsForeign mark)
    (clear : layout.Avoids mark) :
    palette.Decorates (layout.headLine palette) (layout.headLine .plain) := by
  have kind := decorates_plain marked (isPlain_kind layout.kind) foreign
  have blank : palette.Decorates " " " " := decorates_plain marked (by decide) foreign
  have colon : palette.Decorates " : " " : " := decorates_plain marked (by decide) foreign
  have name : palette.Decorates (layout.qualifiedName.getD "<unnamed>")
      (layout.qualifiedName.getD "<unnamed>") := by
    cases given : layout.qualifiedName with
    | some name => exact decorates_self marked (clear _ (qualifiedName_mem_texts given))
    | none => exact decorates_plain marked (by decide) foreign
  have type : palette.type ∈ palette.sequences := by simp [sequences]
  have head := decorates_paint marked type ((kind.append blank).append name)
  cases given : layout.superclass with
  | none => simpa only [headLine, given, plain_paint_type] using head
  | some superclass =>
      simp only [headLine, given, plain_paint_type]
      refine (head.append colon).append (decorates_paint marked type ?_)
      exact decorates_self marked (clear _ (superclass_mem_texts given))

theorem countLine_decorated (marked : palette.IsMarkedBy mark) (foreign : IsForeign mark) :
    palette.Decorates (layout.countLine palette) (layout.countLine .plain) := by
  cases given : layout.fieldCount with
  | some count =>
      have same : layout.countLine palette = layout.countLine .plain := by
        simp only [countLine, given]
      rw [same]
      exact decorates_plain marked isPlain_countLine foreign
  | none =>
      simp only [countLine, given, plain_paint_detail]
      refine .append (decorates_plain marked (by decide) foreign) ?_
      exact decorates_paint marked (by simp [sequences]) (decorates_plain marked (by decide) foreign)

/-- Erasing the escape sequences from a colored listing gives the plain one, and neither exists
    where a name is too long to be filled up. -/
theorem listing_erased (clear : layout.Avoids '\x1b') :
    (layout.listing .colored).map (erase colored.sequences) = layout.listing .plain := by
  have foreign : IsForeign '\x1b' := by decide
  by_cases fits : layout.Fits
  · have decorated : colored.Decorates
        (String.join ((layout.allLines .colored).map (· ++ "\n")))
        (String.join ((layout.allLines .plain).map (· ++ "\n"))) := by
      have feed : colored.Decorates "\n" "\n" := decorates_self colored_isMarkedBy (by decide)
      simp only [allLines, List.map_cons, List.map_map, String.join_cons]
      refine .append ?_ (.append ?_ (.join fun field member => ?_))
      · exact (headLine_decorated colored_isMarkedBy foreign clear).append feed
      · exact (countLine_decorated colored_isMarkedBy foreign).append feed
      · exact (rowOf_decorated colored_isMarkedBy foreign clear member).append feed
    rw [listing_of_fits fits, listing_of_fits fits, Except.map, decorated.erase_eq]
  · rw [listing_of_not_fits fits, listing_of_not_fits fits, Except.map]

/-- A class of two fields, the second of which has a name of two characters in three bytes. -/
def dog : TypeLayout :=
  ⟨.classType, some "Dog", some "Zoo.Dog", none, some "Zoo.Animal",
    [⟨"age", some 8, some "Si", ⟨0x12⟩⟩, ⟨"né", none, none, ⟨0⟩⟩]⟩

theorem listing_erased_dog : dog.Avoids '\x1b' ∧
    dog.listing .colored = .ok ("\x1b[34mclass Zoo.Dog\x1b[0m : \x1b[34mZoo.Animal\x1b[0m\n"
      ++ "  field_count = \x1b[2munsupported\x1b[0m\n"
      ++ "  \x1b[32mage\x1b[0m \x1b[2m+8\x1b[0m  \x1b[2mSi\x1b[0m  [var, 0x10]\n"
      ++ "  \x1b[32mné \x1b[0m \x1b[2m -\x1b[0m\n") ∧
    (dog.listing .colored).map (erase colored.sequences)
      = .ok ("class Zoo.Dog : Zoo.Animal\n  field_count = unsupported\n"
        ++ "  age +8  Si  [var, 0x10]\n  né   -\n") := by
  have clear : dog.Avoids '\x1b' := by decide +kernel
  refine ⟨clear, ok_of_toOption (by decide +kernel), (listing_erased clear).trans ?_⟩
  exact ok_of_toOption (by decide +kernel)

end TypeLayout

end Listings

end TypeReflection
