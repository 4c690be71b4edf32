import TypeReflection.Layout.Listing
import TypeReflection.Proofs.Reading
import TypeReflection.Proofs.Text.Numeral
import TypeReflection.Proofs.Text.Words

/-! # What listings are made of

There is a listing exactly if every name fits its column, and then its text is that of the lines,
each of them ended by a line feed. In plain listings the line of a field has its name, its offset
and the rest of the line, parted by spaces. Apart from the texts that a layout gives, all that is
written is letters, digits and a few marks.
-/

namespace TypeReflection

/-! ## Maxima -/

theorem le_foldl_max {numbers : List Nat} {number : Nat} (member : number ∈ numbers) :
    number ≤ numbers.foldl max 0 := by
  rw [List.foldl_max_eq_max (List.ne_nil_of_mem member)]
  exact Nat.le_trans (List.le_max_of_mem member) (Nat.le_max_right ..)

theorem foldl_max_mem {numbers : List Nat} (some : numbers ≠ []) :
    numbers.foldl max 0 ∈ numbers := by
  rw [List.foldl_max_eq_max some, Nat.zero_max]
  exact List.max_mem some

theorem foldl_max_le_iff {numbers : List Nat} {bound : Nat} :
    numbers.foldl max 0 ≤ bound ↔ ∀ number ∈ numbers, number ≤ bound := by
  constructor
  · intro below number member
    exact Nat.le_trans (le_foldl_max member) below
  · intro each
    by_cases none : numbers = []
    · subst none
      exact Nat.zero_le bound
    · exact each _ (foldl_max_mem none)

/-! ## Texts that are shown -/

namespace FieldLayout

/-- The texts that a field gives to a listing. -/
def texts (field : FieldLayout) : List String :=
  field.name :: field.typeName.toList

end FieldLayout

namespace TypeLayout

/-- The texts that a layout gives to its listing. -/
def texts (layout : TypeLayout) : List String :=
  layout.qualifiedName.toList ++ layout.superclass.toList ++ layout.fields.flatMap (·.texts)

/-- No text that the layout gives has this character. -/
def Avoids (layout : TypeLayout) (char : Char) : Prop :=
  ∀ text ∈ layout.texts, char ∉ text.toList

instance (layout : TypeLayout) (char : Char) : Decidable (layout.Avoids char) :=
  inferInstanceAs (Decidable (∀ text ∈ layout.texts, char ∉ text.toList))

variable {layout : TypeLayout} {field : FieldLayout} {name : String}

theorem qualifiedName_mem_texts (given : layout.qualifiedName = some name) :
    name ∈ layout.texts := by
  simp [texts, given]

theorem superclass_mem_texts (given : layout.superclass = some name) : name ∈ layout.texts := by
  simp [texts, given]

theorem fieldName_mem_texts (member : field ∈ layout.fields) : field.name ∈ layout.texts := by
  simp only [texts, List.mem_append, List.mem_flatMap]
  exact .inr ⟨field, member, List.mem_cons_self⟩

theorem typeName_mem_texts (member : field ∈ layout.fields) (given : field.typeName = some name) :
    name ∈ layout.texts := by
  simp only [texts, List.mem_append, List.mem_flatMap]
  refine .inr ⟨field, member, ?_⟩
  simp [FieldLayout.texts, given]

end TypeLayout

/-! ## Characters that come from texts alone -/

/-- The marks that listings put between texts, letters and digits. -/
def marks : List Char :=
  " +-[],<>:=_".toList

/-- Listings have this character only where a text has it. -/
def IsForeign (char : Char) : Prop :=
  ¬char.isAlphanum ∧ char ∉ marks

instance (char : Char) : Decidable (IsForeign char) :=
  inferInstanceAs (Decidable (¬char.isAlphanum ∧ char ∉ marks))

/-- Letters, digits and marks, and nothing else. -/
def IsPlain (text : String) : Prop :=
  ∀ char ∈ text.toList, char.isAlphanum ∨ char ∈ marks

instance (text : String) : Decidable (IsPlain text) :=
  List.decidableBAll (fun char : Char => char.isAlphanum ∨ char ∈ marks) text.toList

theorem IsPlain.avoids {text : String} {char : Char} (plain : IsPlain text)
    (foreign : IsForeign char) : char ∉ text.toList := by
  intro member
  rcases plain char member with letter | mark
  · exact foreign.1 letter
  · exact foreign.2 mark

theorem IsPlain.append {front back : String} (first : IsPlain front) (last : IsPlain back) :
    IsPlain (front ++ back) := by
  intro char member
  rw [String.toList_append, List.mem_append] at member
  exact member.elim (first char) (last char)

theorem isPlain_spaces (count : Nat) : IsPlain (spaces count) := by
  intro char member
  rw [spaces, String.toList_ofList] at member
  rw [List.eq_of_mem_replicate member]
  decide

theorem isPlain_repr (number : Nat) : IsPlain number.repr := by
  intro char member
  rw [Nat.toList_repr] at member
  exact .inl (isAlphanum_of_mem_toDigits (by decide) (by decide) member)

theorem isPlain_kind (kind : TypeKind) : IsPlain kind.name := by
  cases kind <;> decide

namespace FieldFlags

theorem isAlphanum_of_mem_names {flags : FieldFlags} {name : String}
    (listed : name ∈ flags.names) : ∀ char ∈ name.toList, char.isAlphanum := by
  rw [names, List.mem_append] at listed
  rcases listed with present | unnamed
  · obtain ⟨entry, member, rfl⟩ := List.mem_map.mp present
    have all : ∀ entry ∈ named, ∀ char ∈ entry.2.toList, char.isAlphanum := by
      simp [named]
    exact all entry (List.mem_filter.mp member).1
  · split at unnamed
    · cases unnamed
    · rw [List.mem_singleton] at unnamed
      subst unnamed
      exact fun char => isAlphanum_of_mem_hex

end FieldFlags

/-- What is not in a separator or in any item is not in the items put together. -/
theorem not_mem_intercalate {char : Char} {separator : List Char} {items : List (List Char)}
    (apart : char ∉ separator) (clear : ∀ item ∈ items, char ∉ item) :
    char ∉ separator.intercalate items := by
  induction items with
  | nil => exact List.not_mem_nil
  | cons item items ih =>
      rw [List.forall_mem_cons] at clear
      by_cases last : items = []
      · subst last
        rw [List.intercalate_singleton]
        exact clear.1
      · rw [List.intercalate_cons_of_ne_nil last, List.mem_append, List.mem_append]
        rintro ((first | between) | later)
        · exact clear.1 first
        · exact apart between
        · exact ih clear.2 later

namespace FieldLayout

variable (field : FieldLayout)

theorem toList_offsetText : field.offsetText.toList
    = field.offset.elim ['-'] fun offset => '+' :: Nat.toDigits 10 offset.toNat := by
  have sign : (toString "+").toList = ['+'] := by decide
  cases given : field.offset <;> simp [offsetText, given, sign]

/-- The text of an offset begins with a sign. -/
theorem isWord_offsetText : IsWord field.offsetText.toList := by
  rw [toList_offsetText]
  cases field.offset with
  | none => exact ⟨by decide, by decide⟩
  | some offset =>
      refine ⟨nofun, ?_⟩
      rw [Option.elim_some, List.mem_cons, not_or]
      refine ⟨by decide, fun blank => ?_⟩
      exact absurd (isAlphanum_of_mem_toDigits (by decide) (by decide) blank) (by decide)

theorem isPlain_offsetText : IsPlain field.offsetText := by
  intro char member
  rw [toList_offsetText] at member
  cases given : field.offset with
  | none =>
      rw [given, Option.elim_none, List.mem_singleton] at member
      subst member
      exact .inr (by decide)
  | some offset =>
      rw [given, Option.elim_some, List.mem_cons] at member
      rcases member with rfl | digit
      · exact .inr (by decide)
      · exact .inl (isAlphanum_of_mem_toDigits (by decide) (by decide) digit)

theorem isPlain_flagsText : IsPlain field.flagsText := by
  rw [flagsText]
  split
  · decide
  · refine IsPlain.append (IsPlain.append (by decide) ?_) (by decide)
    intro char member
    refine Classical.byContradiction fun strange => ?_
    rw [not_or] at strange
    rw [String.toList_intercalate] at member
    refine not_mem_intercalate (IsPlain.avoids (by decide) strange) ?_ member
    intro item listed letter
    obtain ⟨name, given, rfl⟩ := List.mem_map.mp listed
    exact strange.1 (FieldFlags.isAlphanum_of_mem_names given char letter)

end FieldLayout

/-! ## Widths -/

theorem checkWidth_of_le {width : Nat} (fits : width ≤ widestColumn) : checkWidth width = .ok () :=
  if_pos fits

theorem checkWidth_of_lt {width : Nat} (wide : widestColumn < width) :
    checkWidth width = .error .columnTooWide :=
  if_neg (Nat.not_le.mpr wide)

namespace TypeLayout

variable (layout : TypeLayout)

/-- The bytes of every name can be counted by sixteen bits. -/
def Fits : Prop :=
  ∀ field ∈ layout.fields, field.name.utf8ByteSize ≤ widestColumn

instance : Decidable layout.Fits :=
  inferInstanceAs (Decidable (∀ field ∈ layout.fields, field.name.utf8ByteSize ≤ widestColumn))

theorem nameWidth_le_iff : layout.nameWidth ≤ widestColumn ↔ layout.Fits := by
  rw [nameWidth, foldl_max_le_iff, Fits]
  exact List.forall_mem_map

/-- A sign and the digits of an offset fit every column. -/
theorem length_offsetText_le (field : FieldLayout) : field.offsetText.length ≤ widestColumn := by
  rw [← String.length_toList, FieldLayout.toList_offsetText]
  cases field.offset with
  | none => decide
  | some offset =>
      have digits : (Nat.toDigits 10 offset.toNat).length ≤ 10 := by
        have bound := offset.toNat_lt
        rw [Nat.length_toDigits_le_iff (by decide) (by decide)]
        omega
      rw [Option.elim_some, List.length_cons, widestColumn]
      omega

theorem offsetWidth_le : layout.offsetWidth ≤ widestColumn := by
  rw [offsetWidth, foldl_max_le_iff, List.forall_mem_map]
  exact fun field _ => length_offsetText_le field

/-- The spaces between the name and the offset of a field. -/
def gap (field : FieldLayout) : Nat :=
  layout.nameWidth - field.name.length + 1 + (layout.offsetWidth - field.offsetText.length)

/-- The line of a field of the layout. -/
def rowOf (palette : Palette) (field : FieldLayout) : String :=
  field.row palette (field.name ++ spaces (layout.nameWidth - field.name.length))
    (spaces (layout.offsetWidth - field.offsetText.length) ++ field.offsetText)

/-- The lines of a listing that there is. -/
def allLines (palette : Palette) : List String :=
  layout.headLine palette :: layout.countLine palette :: layout.fields.map (layout.rowOf palette)

variable {layout}

theorem line_eq (fits : layout.Fits) (palette : Palette) (field : FieldLayout) :
    field.line palette layout.nameWidth layout.offsetWidth = .ok (layout.rowOf palette field) := by
  rw [FieldLayout.line, padRight, padLeft,
    checkWidth_of_le (layout.nameWidth_le_iff.mpr fits), checkWidth_of_le layout.offsetWidth_le]
  rfl

/-- Where every name fits, the listing is that of all lines. -/
theorem listing_of_fits (fits : layout.Fits) (palette : Palette) :
    layout.listing palette = .ok (String.join ((layout.allLines palette).map (· ++ "\n"))) := by
  have written : layout.fieldLines palette
      = .ok (layout.fields.map (layout.rowOf palette)) :=
    mapM_eq_ok fun field _ => line_eq fits palette field
  rw [listing, lines, written]
  rfl

/-- Where a name does not fit, there is no listing: filling up the first name fails. -/
theorem listing_of_not_fits (wide : ¬layout.Fits) (palette : Palette) :
    layout.listing palette = .error .columnTooWide := by
  have failed : layout.fieldLines palette = .error .columnTooWide := by
    rw [fieldLines]
    cases fields : layout.fields with
    | nil =>
        refine absurd ?_ wide
        rw [Fits, fields]
        exact List.forall_mem_nil _
    | cons first rest =>
        rw [← nameWidth_le_iff, Nat.not_le] at wide
        rw [List.mapM_cons, FieldLayout.line, padRight, checkWidth_of_lt wide]
        rfl
  rw [listing, lines, failed]
  rfl

end TypeLayout

/-! ## Plain lines -/

namespace Palette

variable (text : String)

@[simp] theorem plain_paint_type : plain.paint plain.type text = text :=
  rfl

@[simp] theorem plain_paint_field : plain.paint plain.field text = text :=
  rfl

@[simp] theorem plain_paint_detail : plain.paint plain.detail text = text :=
  rfl

end Palette

namespace FieldLayout

variable (field : FieldLayout)

/-- What a plain listing has behind the offset of a field. -/
def tail : List Char :=
  (field.typeText .plain).toList ++ field.flagsText.toList

theorem toList_typeText_plain :
    (field.typeText .plain).toList = match field.typeName with
      | some typeName => [' ', ' '] ++ typeName.toList
      | none => [] := by
  cases given : field.typeName <;> simp [typeText, given]

end FieldLayout

namespace TypeLayout

variable {layout : TypeLayout} {field : FieldLayout} {char : Char}

theorem toList_rowOf_plain : (layout.rowOf .plain field).toList
    = [' ', ' '] ++ (field.name.toList ++ (List.replicate (layout.gap field) ' '
        ++ (field.offsetText.toList ++ field.tail))) := by
  have indent : "  ".toList = [' ', ' '] := by decide
  have space : " ".toList = List.replicate 1 ' ' := by decide
  simp only [rowOf, FieldLayout.row, FieldLayout.tail, spaces, gap, Palette.plain_paint_field,
    Palette.plain_paint_detail, String.toList_append, String.toList_ofList, indent, space,
    ← List.replicate_append_replicate, List.append_assoc]

theorem rowOf_plain_avoids (clear : layout.Avoids char) (foreign : IsForeign char)
    (member : field ∈ layout.fields) : char ∉ (layout.rowOf .plain field).toList := by
  have name : char ∉ field.name.toList := clear _ (fieldName_mem_texts member)
  have space : char ≠ ' ' := by
    rintro rfl
    exact foreign.2 (by decide)
  have typeText : char ∉ (field.typeText .plain).toList := by
    rw [FieldLayout.toList_typeText_plain]
    split
    · next typeName given =>
        have shown := clear _ (typeName_mem_texts member given)
        simp [space, shown]
    · exact List.not_mem_nil
  have offset := field.isPlain_offsetText.avoids foreign
  have flags := field.isPlain_flagsText.avoids foreign
  simp [toList_rowOf_plain, FieldLayout.tail, List.mem_replicate, name, space, typeText, offset,
    flags]

theorem headLine_plain_avoids (clear : layout.Avoids char) (foreign : IsForeign char) :
    char ∉ (layout.headLine .plain).toList := by
  have kind := (isPlain_kind layout.kind).avoids foreign
  have blank : char ∉ " ".toList := IsPlain.avoids (by decide) foreign
  have colon : char ∉ " : ".toList := IsPlain.avoids (by decide) foreign
  have name : char ∉ (layout.qualifiedName.getD "<unnamed>").toList := by
    cases given : layout.qualifiedName with
    | some name => exact clear _ (qualifiedName_mem_texts given)
    | none => exact IsPlain.avoids (by decide) foreign
  rw [headLine]
  split
  · next superclass given =>
      have shown := clear _ (superclass_mem_texts given)
      simp only [Palette.plain_paint_type, String.toList_append, List.mem_append, not_or]
      exact ⟨⟨⟨⟨kind, blank⟩, name⟩, colon⟩, shown⟩
  · simp only [Palette.plain_paint_type, String.toList_append, List.mem_append, not_or]
    exact ⟨⟨kind, blank⟩, name⟩

theorem isPlain_countLine : IsPlain (layout.countLine .plain) := by
  rw [countLine]
  split
  · exact IsPlain.append (by decide) (isPlain_repr _)
  · decide

/-- The lines of a plain listing have no line feed of their own. -/
theorem allLines_plain_avoid (clear : layout.Avoids char) (foreign : IsForeign char) :
    ∀ line ∈ layout.allLines .plain, char ∉ line.toList := by
  intro line listed
  rw [allLines, List.mem_cons, List.mem_cons, List.mem_map] at listed
  rcases listed with rfl | rfl | ⟨field, member, rfl⟩
  · exact headLine_plain_avoids clear foreign
  · exact isPlain_countLine.avoids foreign
  · exact rowOf_plain_avoids clear foreign member

end TypeLayout

/-- Lines that are ended by line feeds and have none of their own are found again by splitting. -/
theorem splitOn_join_lines {lines : List String} (single : ∀ line ∈ lines, '\n' ∉ line.toList) :
    (String.join (lines.map (· ++ "\n"))).toList.splitOn '\n'
      = lines.map String.toList ++ [[]] := by
  induction lines with
  | nil => rfl
  | cons line lines ih =>
      rw [List.forall_mem_cons] at single
      have feed : "\n".toList = ['\n'] := by decide
      rw [List.map_cons, String.join_cons, String.toList_append, String.toList_append, feed,
        List.append_assoc, List.singleton_append,
        List.splitOn_append_cons_self_of_not_mem single.1, ih single.2]
      rfl

/-- The lines of a plain listing can be told from its text. -/
theorem TypeLayout.splitOn_listing {layout : TypeLayout} {text : String}
    (clear : layout.Avoids '\n') (written : layout.listing .plain = .ok text) :
    text.toList.splitOn '\n' = (layout.allLines .plain).map String.toList ++ [[]] := by
  by_cases fits : layout.Fits
  · rw [listing_of_fits fits] at written
    rw [← Except.ok.inj written]
    exact splitOn_join_lines (allLines_plain_avoid clear (by decide))
  · rw [listing_of_not_fits fits] at written
    cases written

end TypeReflection
