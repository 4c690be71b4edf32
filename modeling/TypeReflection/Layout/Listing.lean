import TypeReflection.Layout.Basic
import TypeReflection.Layout.Palette

/-! # Listings of layouts

A listing has a line for the type, a line for the number of fields and a line for each field:

```text
struct Shapes.Point
  field_count = 2
  x +0  Si  [var]
  y +8  Si
```

The names and the offsets of the fields stand in columns. Texts are filled up with spaces as far as
sixteen bits can count; a wider column leaves no listing.
-/

namespace TypeReflection

/-- Why a layout has no listing. -/
inductive ListingError where
  /-- A column is wider than texts can be filled up to. -/
  | columnTooWide
  deriving Repr, DecidableEq

/-- Text of an error. -/
def ListingError.message : ListingError → String
  | .columnTooWide => "Formatting argument out of range"

/-- Width of the widest column. -/
def widestColumn : Nat := 0xFFFF

/-- Whether a column of this width can be filled up. -/
def checkWidth (width : Nat) : Except ListingError Unit :=
  if width ≤ widestColumn then .ok () else .error .columnTooWide

/-- A text of `count` spaces. -/
def spaces (count : Nat) : String :=
  String.ofList (List.replicate count ' ')

/-- `text` with spaces after it up to `width` characters. -/
def padRight (width : Nat) (text : String) : Except ListingError String := do
  checkWidth width
  return text ++ spaces (width - text.length)

/-- `text` with spaces before it up to `width` characters. -/
def padLeft (width : Nat) (text : String) : Except ListingError String := do
  checkWidth width
  return spaces (width - text.length) ++ text

namespace FieldFlags

/-- The flags that have a name in listings, in the order in which they are listed. -/
def named : List (UInt32 × String) :=
  [(variableMask, "var"), (indirectCaseMask, "indirect"), (artificialMask, "artificial")]

/-- The flags with a name that are set. -/
def present (flags : FieldFlags) : List (UInt32 × String) :=
  named.filter fun (mask, _) => flags.contains mask

/-- The bits that are set and have no name. -/
def unnamed (flags : FieldFlags) : UInt32 :=
  flags.present.foldl (fun bits (mask, _) => bits &&& ~~~mask) flags.bits

/-- The names of the flags that are set, then the bits without a name, if any is set. -/
def names (flags : FieldFlags) : List String :=
  flags.present.map Prod.snd ++ if flags.unnamed = 0 then [] else [hex flags.unnamed.toNat]

end FieldFlags

namespace FieldLayout

/-- Text of the offset. -/
def offsetText (field : FieldLayout) : String :=
  match field.offset with
  | some offset => s!"+{offset.toNat}"
  | none => "-"

/-- Text of the encoded type name, if there is one, and of what parts it from the offset. -/
def typeText (palette : Palette) (field : FieldLayout) : String :=
  match field.typeName with
  | some typeName => "  " ++ palette.paint palette.detail typeName
  | none => ""

/-- Text of the flags, if any is set, and of what parts it from the text before. -/
def flagsText (field : FieldLayout) : String :=
  match field.flags.names with
  | [] => ""
  | names => "  [" ++ ", ".intercalate names ++ "]"

/-- The line of a field, from the contents of the columns of names and of offsets. -/
def row (palette : Palette) (name offset : String) (field : FieldLayout) : String :=
  "  " ++ palette.paint palette.field name ++ " " ++ palette.paint palette.detail offset
    ++ field.typeText palette ++ field.flagsText

/-- The line of a field, its name and its offset filled up to the given widths. -/
def line (palette : Palette) (nameWidth offsetWidth : Nat) (field : FieldLayout) :
    Except ListingError String := do
  let name ← padRight nameWidth field.name
  let offset ← padLeft offsetWidth field.offsetText
  return field.row palette name offset

end FieldLayout

namespace TypeLayout

/-- The line that names the type. -/
def headLine (layout : TypeLayout) (palette : Palette) : String :=
  let name := layout.qualifiedName.getD "<unnamed>"
  let head := palette.paint palette.type (layout.kind.name ++ " " ++ name)
  match layout.superclass with
  | some superclass => head ++ " : " ++ palette.paint palette.type superclass
  | none => head

/-- The line with the number of fields. -/
def countLine (layout : TypeLayout) (palette : Palette) : String :=
  match layout.fieldCount with
  | some count => s!"  field_count = {count}"
  | none => "  field_count = " ++ palette.paint palette.detail "unsupported"

/-- Width of the column of names: the size of the largest name in bytes. -/
def nameWidth (layout : TypeLayout) : Nat :=
  (layout.fields.map fun field => field.name.utf8ByteSize).foldl max 0

/-- Width of the column of offsets. -/
def offsetWidth (layout : TypeLayout) : Nat :=
  (layout.fields.map fun field => field.offsetText.length).foldl max 0

/-- The lines of the fields. -/
def fieldLines (layout : TypeLayout) (palette : Palette) : Except ListingError (List String) :=
  layout.fields.mapM (FieldLayout.line palette layout.nameWidth layout.offsetWidth)

/-- The lines of a listing. -/
def lines (layout : TypeLayout) (palette : Palette) : Except ListingError (List String) := do
  let fieldLines ← layout.fieldLines palette
  return layout.headLine palette :: layout.countLine palette :: fieldLines

/-- The listing of a layout, each line ended by a line feed. -/
def listing (layout : TypeLayout) (palette : Palette) : Except ListingError String := do
  let lines ← layout.lines palette
  return String.join (lines.map (· ++ "\n"))

end TypeLayout

end TypeReflection
