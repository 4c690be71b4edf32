import Mathlib.Data.List.Forall2
import TypeReflection.Proofs.Layout.Listing
import TypeReflection.Proofs.Utf8

/-! # Columns of plain listings

In a plain listing all names begin in one column and all offsets end in one column. The column of
names is as wide as the largest name in bytes, though it is filled up by characters, so that it is
wider than any name unless one of the largest names is ASCII.
-/

namespace TypeReflection

namespace FieldLayout

variable (field : FieldLayout)

/-- In `row` the name stands from column 2 on, and the text of the offset up to `column`. Both are
    whole, and spaces part them. -/
def StandsIn (column : Nat) (row : List Char) : Prop :=
  ∃ gap rest, 0 < gap ∧ 2 + field.name.length + gap + field.offsetText.length = column + 1 ∧
    row = [' ', ' '] ++ (field.name.toList ++ (List.replicate gap ' '
      ++ (field.offsetText.toList ++ rest)))

/-- In `row` the name stands from column 2 on, then come `gap` spaces, then a column of
    `offsetWidth` characters with the text of the offset at its end. -/
def PartedBy (offsetWidth gap : Nat) (row : List Char) : Prop :=
  ∃ rest, row = [' ', ' '] ++ (field.name.toList ++ (List.replicate gap ' '
    ++ (List.replicate (offsetWidth - field.offsetText.length) ' '
      ++ (field.offsetText.toList ++ rest))))

variable {field}

theorem PartedBy.unique {offsetWidth gap other : Nat} {row : List Char}
    (parted : field.PartedBy offsetWidth gap row) (also : field.PartedBy offsetWidth other row) :
    gap = other := by
  obtain ⟨rest, rfl⟩ := parted
  obtain ⟨rest', same⟩ := also
  have behind := List.append_cancel_left (List.append_cancel_left same)
  simp only [← List.append_assoc, List.replicate_append_replicate] at behind
  simp only [List.append_assoc] at behind
  have counts := (spaces_cancel (field.isWord_offsetText.head?_ne rest)
    (field.isWord_offsetText.head?_ne rest') behind).1
  omega

end FieldLayout

namespace TypeLayout

variable {layout : TypeLayout}

/-- The text is a line for the type, a line for the number of fields and a line for each field, in
    order. All names stand from column 2 on and all offsets up to one column. -/
def LinesUp (layout : TypeLayout) (text : String) : Prop :=
  ∃ rows column,
    text.toList.splitOn '\n' = (layout.headLine .plain).toList :: (layout.countLine .plain).toList
      :: rows ++ [[]] ∧
    List.Forall₂ (fun field row => field.StandsIn column row) layout.fields rows

theorem length_name_le {field : FieldLayout} (member : field ∈ layout.fields) :
    field.name.length ≤ layout.nameWidth :=
  Nat.le_trans (length_le_utf8ByteSize field.name).1
    (le_foldl_max (List.mem_map_of_mem member))

theorem length_offset_le {field : FieldLayout} (member : field ∈ layout.fields) :
    field.offsetText.length ≤ layout.offsetWidth :=
  le_foldl_max (List.mem_map_of_mem member)

/-- The lines of the fields of a plain listing. -/
def plainRows (layout : TypeLayout) : List (List Char) :=
  layout.fields.map fun field => (layout.rowOf .plain field).toList

theorem splitOn_plain {text : String} (clear : layout.Avoids '\n')
    (written : layout.listing .plain = .ok text) :
    text.toList.splitOn '\n' = (layout.headLine .plain).toList :: (layout.countLine .plain).toList
      :: layout.plainRows ++ [[]] := by
  rw [splitOn_listing clear written, allLines, plainRows]
  simp

/-- What holds of every field and its line holds of the lines of a listing in order. -/
theorem forall₂_plainRows {relation : FieldLayout → List Char → Prop}
    (each : ∀ field ∈ layout.fields, relation field (layout.rowOf .plain field).toList) :
    List.Forall₂ relation layout.fields layout.plainRows := by
  rw [plainRows, List.forall₂_map_right_iff, List.forall₂_same]
  exact each

theorem rowOf_standsIn {field : FieldLayout} (member : field ∈ layout.fields) :
    field.StandsIn (layout.nameWidth + layout.offsetWidth + 2)
      (layout.rowOf .plain field).toList := by
  have name := length_name_le member
  have offset := length_offset_le member
  refine ⟨layout.gap field, field.tail, ?_, ?_, toList_rowOf_plain⟩
  · rw [gap]
    omega
  · rw [gap]
    omega

/-- Where every name has at most 65535 bytes there is a plain listing and its rows line up, and
    elsewhere there is no listing. -/
theorem rows_line_up (clear : layout.Avoids '\n') :
    ((∀ field ∈ layout.fields, field.name.utf8ByteSize ≤ 65535) →
      ∃ text, layout.listing .plain = .ok text ∧ layout.LinesUp text) ∧
    ((∃ field ∈ layout.fields, 65535 < field.name.utf8ByteSize) →
      layout.listing .plain = .error .columnTooWide) := by
  constructor
  · intro fits
    have written := listing_of_fits fits .plain
    refine ⟨_, written, layout.plainRows, layout.nameWidth + layout.offsetWidth + 2,
      splitOn_plain clear written, ?_⟩
    exact forall₂_plainRows fun field => rowOf_standsIn
  · rintro ⟨field, member, wide⟩
    refine listing_of_not_fits (fun fits => ?_) .plain
    exact absurd (fits field member) (Nat.not_le.mpr wide)

/-- A struct whose first name has more bytes than characters. -/
def wing : TypeLayout :=
  ⟨.structType, some "Wing", some "Bird.Wing", some 2, none,
    [⟨"né", some 8, none, ⟨0⟩⟩, ⟨"span", some 16, some "Sd", ⟨2⟩⟩]⟩

theorem wing_listing : wing.listing .plain
    = .ok "struct Bird.Wing\n  field_count = 2\n  né    +8\n  span +16  Sd  [var]\n" :=
  ok_of_toOption (by decide +kernel)

theorem rows_line_up_wing : wing.Avoids '\n' ∧
    (∀ field ∈ wing.fields, field.name.utf8ByteSize ≤ 65535) ∧
    wing.LinesUp "struct Bird.Wing\n  field_count = 2\n  né    +8\n  span +16  Sd  [var]\n" := by
  have clear : wing.Avoids '\n' := by decide +kernel
  have fits : ∀ field ∈ wing.fields, field.name.utf8ByteSize ≤ 65535 := by decide +kernel
  obtain ⟨text, written, linesUp⟩ := (rows_line_up clear).1 fits
  rw [Except.ok.inj (wing_listing.symm.trans written)]
  exact ⟨clear, fits, linesUp⟩

/-- A struct with one field, whose name is `count` times the letter a. -/
def stretched (count : Nat) : TypeLayout :=
  ⟨.structType, none, some "Tape", some 1, none,
    [⟨String.ofList (List.replicate count 'a'), none, none, ⟨0⟩⟩]⟩

/-- The layout has one field and no line feed, and still no listing of three lines. -/
theorem rows_missing_stretched : (stretched 65536).Avoids '\n' ∧
    ∀ text, (stretched 65536).listing .plain ≠ .ok text := by
  have clear (count : Nat) : (stretched count).Avoids '\n' := by
    intro text member
    have shown : text = "Tape" ∨ text = String.ofList (List.replicate count 'a') := by
      simpa only [stretched, texts, FieldLayout.texts, Option.toList, List.flatMap_cons,
        List.flatMap_nil, List.append_nil, List.cons_append, List.nil_append, List.mem_cons,
        List.not_mem_nil, or_false] using member
    rcases shown with rfl | rfl
    · decide
    · rw [String.toList_ofList, List.mem_replicate]
      exact fun feed => absurd feed.2 (by decide)
  have wide (count : Nat) (many : widestColumn < count) : ¬(stretched count).Fits := by
    intro fits
    have size := fits _ List.mem_cons_self
    have length := (length_le_utf8ByteSize (String.ofList (List.replicate count 'a'))).1
    rw [String.length_ofList, List.length_replicate] at length
    exact absurd (Nat.le_trans length size) (Nat.not_le.mpr many)
  refine ⟨clear 65536, fun text written => ?_⟩
  rw [listing_of_not_fits (wide 65536 (by decide))] at written
  cases written

/-! ## Width of the column of names -/

/-- The rows have a column of names of this width, from column 2 on, and one space behind it. -/
def HasNameColumn (layout : TypeLayout) (width : Nat) (rows : List (List Char)) : Prop :=
  List.Forall₂ (fun field row => field.name.length ≤ width ∧
    field.PartedBy layout.offsetWidth (width - field.name.length + 1) row) layout.fields rows

/-- The number of characters of the longest name. -/
def longestName (layout : TypeLayout) : Nat :=
  (layout.fields.map fun field => field.name.length).foldl max 0

theorem hasNameColumn_nameWidth : layout.HasNameColumn layout.nameWidth layout.plainRows := by
  refine forall₂_plainRows fun field member => ⟨length_name_le member, field.tail, ?_⟩
  rw [toList_rowOf_plain, gap, ← List.replicate_append_replicate, List.append_assoc]

theorem HasNameColumn.unique {width other : Nat} {rows : List (List Char)}
    (column : layout.HasNameColumn width rows) (also : layout.HasNameColumn other rows)
    (some : layout.fields ≠ []) : width = other := by
  rw [HasNameColumn] at column also
  cases fields : layout.fields with
  | nil => exact absurd fields some
  | cons field rest =>
      rw [fields] at column also
      cases column with
      | cons first _ =>
          cases also with
          | cons first' _ =>
              have gaps := first.2.unique first'.2
              have bounds := And.intro first.1 first'.1
              omega

theorem longestName_le : layout.longestName ≤ layout.nameWidth := by
  rw [longestName, foldl_max_le_iff, List.forall_mem_map]
  exact fun field => length_name_le

/-- The column of names is as narrow as the longest name where one of the largest is ASCII. -/
theorem longestName_eq_iff (some : layout.fields ≠ []) : layout.longestName = layout.nameWidth ↔
    ∃ field ∈ layout.fields, (∀ char ∈ field.name.toList, char.val ≤ 127) ∧
      field.name.utf8ByteSize = layout.nameWidth := by
  constructor
  · intro same
    have longest : layout.longestName ∈ layout.fields.map fun field => field.name.length :=
      foldl_max_mem (by simpa using some)
    obtain ⟨field, member, length⟩ := List.mem_map.mp longest
    have below := le_foldl_max (List.mem_map_of_mem (f := fun field => field.name.utf8ByteSize) member)
    rw [← nameWidth] at below
    have size := length_le_utf8ByteSize field.name
    exact ⟨field, member, size.2.mp (by omega), by omega⟩
  · rintro ⟨field, member, ascii, largest⟩
    have length := (length_le_utf8ByteSize field.name).2.mpr ascii
    have below := le_foldl_max (List.mem_map_of_mem (f := fun field => field.name.length) member)
    rw [← longestName] at below
    exact Nat.le_antisymm longestName_le (by omega)

theorem hasNameColumn_longestName_iff (some : layout.fields ≠ []) :
    layout.HasNameColumn layout.longestName layout.plainRows ↔
      ∃ field ∈ layout.fields, (∀ char ∈ field.name.toList, char.val ≤ 127) ∧
        field.name.utf8ByteSize = layout.nameWidth := by
  rw [← longestName_eq_iff some]
  constructor
  · exact fun tight => tight.unique hasNameColumn_nameWidth some
  · intro same
    rw [same]
    exact hasNameColumn_nameWidth

/-- The column of names is as wide as the largest name in bytes. It is as wide as the longest name
    in characters exactly if one of the largest names is ASCII. -/
theorem name_column_width (some : layout.fields ≠ []) (clear : layout.Avoids '\n')
    (fits : ∀ field ∈ layout.fields, field.name.utf8ByteSize ≤ 65535) :
    ∃ text rows width, layout.listing .plain = .ok text ∧
      text.toList.splitOn '\n' = (layout.headLine .plain).toList
        :: (layout.countLine .plain).toList :: rows ++ [[]] ∧
      layout.HasNameColumn width rows ∧
      (∃ field ∈ layout.fields, field.name.utf8ByteSize = width) ∧
      (∀ field ∈ layout.fields, field.name.utf8ByteSize ≤ width) ∧
      (layout.HasNameColumn layout.longestName rows ↔
        ∃ field ∈ layout.fields, (∀ char ∈ field.name.toList, char.val ≤ 127) ∧
          field.name.utf8ByteSize = width) := by
  have written := listing_of_fits fits .plain
  have largest : layout.nameWidth ∈ layout.fields.map fun field => field.name.utf8ByteSize :=
    foldl_max_mem (by simpa using some)
  refine ⟨_, layout.plainRows, layout.nameWidth, written, splitOn_plain clear written,
    hasNameColumn_nameWidth, List.mem_map.mp largest, ?_, hasNameColumn_longestName_iff some⟩
  exact fun field member => le_foldl_max (List.mem_map_of_mem member)

/-- The larger name is ASCII, and so the column is as narrow as it can be. -/
theorem name_column_width_wing : wing.fields ≠ [] ∧ wing.Avoids '\n' ∧
    (∀ field ∈ wing.fields, field.name.utf8ByteSize ≤ 65535) ∧
    ∃ rows, "struct Bird.Wing\n  field_count = 2\n  né    +8\n  span +16  Sd  [var]\n".toList.splitOn
        '\n' = (wing.headLine .plain).toList :: (wing.countLine .plain).toList :: rows ++ [[]] ∧
      wing.HasNameColumn 4 rows ∧ wing.HasNameColumn wing.longestName rows := by
  have some : wing.fields ≠ [] := nofun
  have clear : wing.Avoids '\n' := by decide +kernel
  have fits : ∀ field ∈ wing.fields, field.name.utf8ByteSize ≤ 65535 := by decide +kernel
  obtain ⟨text, rows, width, written, split, column, ⟨field, member, size⟩, below, tight⟩ :=
    name_column_width some clear fits
  have sizes : ∀ field ∈ wing.fields, field.name.utf8ByteSize ≤ 4 := by decide +kernel
  have span : ⟨"span", Option.some 16, Option.some "Sd", ⟨2⟩⟩ ∈ wing.fields :=
    List.mem_cons_of_mem _ List.mem_cons_self
  have lower : 4 ≤ width := below _ span
  obtain rfl : width = 4 := Nat.le_antisymm (size ▸ sizes field member) lower
  rw [← Except.ok.inj (wing_listing.symm.trans written)] at split
  exact ⟨some, clear, fits, rows, split, column, tight.mpr ⟨_, span, by simp, by decide +kernel⟩⟩

/-- A struct with a name of one character in two bytes. -/
def accent : TypeLayout :=
  ⟨.structType, none, some "Note", some 1, none, [⟨"é", none, none, ⟨0⟩⟩]⟩

/-- Two spaces stand behind the longest name. -/
theorem name_column_loose_accent : accent.fields ≠ [] ∧ accent.Avoids '\n' ∧
    accent.listing .plain = .ok "struct Note\n  field_count = 1\n  é  -\n" ∧
    ¬accent.HasNameColumn accent.longestName ["  é  -".toList] := by
  have some : accent.fields ≠ [] := nofun
  refine ⟨some, by decide +kernel, ok_of_toOption (by decide +kernel), ?_⟩
  have rows : accent.plainRows = ["  é  -".toList] := by decide +kernel
  rw [← rows, hasNameColumn_longestName_iff some]
  simp [accent]

end TypeLayout

end TypeReflection
