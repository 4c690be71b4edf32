import TypeReflection.Field.Cursor

/-! # Enumeration from both ends

An enumeration takes records from either end of a cursor, may remember where the cursor is and go
back there, and ends at the first record that cannot be read.
-/

namespace TypeReflection

/-- One step of an enumeration. -/
inductive EnumerationStep where
  /-- Takes the first record left. -/
  | next
  /-- Takes the last record left. -/
  | nextBack
  /-- Asks how many records are left. -/
  | size
  /-- Remembers where the cursor is. -/
  | save
  /-- Goes back to where the cursor was remembered, at first to the start. -/
  | restore
  /-- Reads the records left, in order, and takes none. -/
  | toList
  /-- Reads the records left, last first, and takes none. -/
  | toListBack
  deriving Repr, DecidableEq

/-- What a step gives. -/
inductive EnumerationAnswer where
  /-- The record taken, nothing if none was left. -/
  | record (record : Option FieldRecord)
  | size (size : Nat)
  | records (records : List FieldRecord)
  /-- Saving and restoring give nothing. -/
  | done
  deriving Repr, DecidableEq

/-- A cursor and the place remembered for it. -/
structure Enumeration where
  cursor : FieldCursor
  saved : FieldCursor
  deriving Repr, DecidableEq

namespace Enumeration

/-- An enumeration that remembers the place of its cursor. -/
def ofCursor (cursor : FieldCursor) : Enumeration :=
  ⟨cursor, cursor⟩

/-- The enumeration after a record was taken, if one was, and the record. -/
def taken (enumeration : Enumeration) :
    Option (FieldRecord × FieldCursor) → EnumerationAnswer × Enumeration
  | some (record, cursor) => (.record (some record), { enumeration with cursor })
  | none => (.record none, enumeration)

/-- One step: what it gives and the enumeration after it. -/
def step (enumeration : Enumeration) (memory : Memory) :
    EnumerationStep → Except Fault (EnumerationAnswer × Enumeration)
  | .next => enumeration.taken <$> enumeration.cursor.next memory
  | .nextBack => enumeration.taken <$> enumeration.cursor.nextBack memory
  | .size => .ok (.size enumeration.cursor.size, enumeration)
  | .save => .ok (.done, { enumeration with saved := enumeration.cursor })
  | .restore => .ok (.done, { enumeration with cursor := enumeration.saved })
  | .toList => (.records ·, enumeration) <$> enumeration.cursor.toList memory
  | .toListBack => (.records ·, enumeration) <$> enumeration.cursor.toListBack memory

/-- What steps give in order, up to the first that fails. -/
def run (enumeration : Enumeration) (memory : Memory) :
    List EnumerationStep → List (Except Fault EnumerationAnswer)
  | [] => []
  | first :: rest =>
    match enumeration.step memory first with
    | .error fault => [.error fault]
    | .ok (answer, enumeration) => .ok answer :: enumeration.run memory rest

end Enumeration

end TypeReflection
