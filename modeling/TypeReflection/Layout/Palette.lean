/-! # Palettes

A palette has an escape sequence for each kind of text in a listing. A palette of empty sequences
leaves the text plain.
-/

namespace TypeReflection

/-- Escape sequences for the kinds of text in a listing. -/
structure Palette where
  /-- Starts the line that names the type. -/
  type : String
  /-- Starts the name of a field. -/
  field : String
  /-- Starts offsets, encoded type names and markers. -/
  detail : String
  /-- Ends each of them. -/
  reset : String
  deriving Repr, DecidableEq

namespace Palette

/-- Blue types, green field names and faint details. -/
def colored : Palette := ⟨"\x1b[34m", "\x1b[32m", "\x1b[2m", "\x1b[0m"⟩

/-- No escape sequences. -/
def plain : Palette := ⟨"", "", "", ""⟩

/-- The colored palette or the plain one. -/
def ofBool (enabled : Bool) : Palette :=
  if enabled then colored else plain

/-- `text` between `sequence` and the reset sequence, or as it is if `sequence` is empty. -/
def paint (palette : Palette) (sequence text : String) : String :=
  if sequence.isEmpty then text else sequence ++ text ++ palette.reset

end Palette

end TypeReflection
