import TypeReflection.Field.Descriptor

/-! # Enumeration of fields

A cursor holds the numbers of the records that are left, and hands them out from either end.
-/

namespace TypeReflection

/-- The records of a descriptor numbered from `front` on, up to `back`, which is not included. -/
structure FieldCursor where
  descriptor : FieldDescriptor
  front : Nat
  back : Nat
  deriving Repr, DecidableEq

namespace FieldCursor

/-- All the records of a descriptor. -/
def all (descriptor : FieldDescriptor) (memory : Memory) : Except Fault FieldCursor := do
  let count ← descriptor.fieldCount memory
  return ⟨descriptor, 0, count⟩

/-- How many records are left. -/
def size (cursor : FieldCursor) : Nat :=
  cursor.back - cursor.front

/-- The first record left and the cursor behind it, nothing when no record is left. -/
def next (cursor : FieldCursor) (memory : Memory) :
    Except Fault (Option (FieldRecord × FieldCursor)) :=
  if cursor.front = cursor.back then
    .ok none
  else do
    let record ← cursor.descriptor.readRecord memory cursor.front
    return some (record, { cursor with front := cursor.front + 1 })

/-- The last record left and the cursor before it, nothing when no record is left. -/
def nextBack (cursor : FieldCursor) (memory : Memory) :
    Except Fault (Option (FieldRecord × FieldCursor)) :=
  if cursor.front = cursor.back then
    .ok none
  else do
    let record ← cursor.descriptor.readRecord memory (cursor.back - 1)
    return some (record, { cursor with back := cursor.back - 1 })

/-- The records left, in order. -/
def toList (cursor : FieldCursor) (memory : Memory) : Except Fault (List FieldRecord) :=
  cursor.descriptor.readRecords memory cursor.front cursor.size

/-- The records left, last first. -/
def toListBack (cursor : FieldCursor) (memory : Memory) : Except Fault (List FieldRecord) :=
  cursor.descriptor.readRecordsBack memory cursor.front cursor.size

end FieldCursor

/-- All the records of a descriptor, in order. -/
def FieldDescriptor.records (descriptor : FieldDescriptor) (memory : Memory) :
    Except Fault (List FieldRecord) := do
  let cursor ← FieldCursor.all descriptor memory
  cursor.toList memory

end TypeReflection
