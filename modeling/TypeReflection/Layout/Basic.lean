import TypeReflection.Field.Cursor
import TypeReflection.Metadata.Type

/-! # Layouts of types

A layout collects what the views show of a type into plain data that no longer needs the memory.
-/

namespace TypeReflection

/-- One field of a layout. -/
structure FieldLayout where
  name : String
  /-- Byte offset, where the type has an offset vector that reaches this field. -/
  offset : Option UInt32
  /-- Encoded name of the type, as shown. -/
  typeName : Option String
  flags : FieldFlags
  deriving Repr, DecidableEq

/-- Layout of a struct or a class. -/
structure TypeLayout where
  kind : TypeKind
  /-- The name, which classes without a descriptor lack. -/
  name : Option String
  qualifiedName : Option String
  /-- Number of stored fields, which is not reported for classes. -/
  fieldCount : Option Nat
  /-- Qualified name of the superclass. -/
  superclass : Option String
  fields : List FieldLayout
  deriving Repr, DecidableEq

/-- The layout of a field with the given record and offset. -/
def FieldLayout.ofRecord (record : FieldRecord) (offset : Option UInt32) : FieldLayout where
  name := record.nameText
  offset := offset
  typeName := record.typeName.map EncodedName.shown
  flags := record.flags

namespace ReflectedType

variable (type : ReflectedType) (memory : Memory)

/-- The offset vector, if the type has one. -/
def offsetVector : Except Fault (Option Slice) :=
  match type with
  | .ofStruct type => type.fieldOffsets memory
  | .ofClass _ => .ok none

/-- The superclass, if there is one, after a check of its metadata. -/
def checkSuperclass : Except Failure (Option ClassType) :=
  match type with
  | .ofStruct _ => .ok none
  | .ofClass type => type.checkSuperclass memory

/-- The number of stored fields, if it is reported. -/
def fieldCount? : Except Fault (Option Nat) :=
  match type with
  | .ofStruct type => some <$> type.fieldCount memory
  | .ofClass _ => .ok none

end ReflectedType

namespace TypeLayout

/-- The entry of an offset vector for the field numbered `index`, if there is one. -/
def offsetOf (vector : Option Slice) (memory : Memory) (index : Nat) :
    Except Fault (Option UInt32) :=
  match vector with
  | some vector => Option.map UInt32.ofNat <$> vector.get? memory index
  | none => .ok none

/-- The layouts of the fields that a descriptor declares. -/
def fieldsOf (descriptor : FieldDescriptor) (vector : Option Slice) (memory : Memory) :
    Except Fault (List FieldLayout) := do
  let records ← descriptor.records memory
  records.zipIdx.mapM fun (record, index) =>
    FieldLayout.ofRecord record <$> offsetOf vector memory index

/-- The layouts of the fields of a type, none if it has no field descriptor. -/
def fieldsOf? (descriptor : Option FieldDescriptor) (vector : Option Slice) (memory : Memory) :
    Except Fault (List FieldLayout) :=
  match descriptor with
  | some descriptor => fieldsOf descriptor vector memory
  | none => .ok []

/-- The qualified name of a superclass, nothing where there is none or it has no descriptor. -/
def superclassName (superclass : Option ClassType) (memory : Memory) :
    Except Fault (Option String) :=
  match superclass with
  | some superclass => superclass.qualifiedName memory
  | none => .ok none

/-- The layout of a type, after checks of its field descriptor and its superclass. -/
def ofType (type : ReflectedType) (memory : Memory) : Except Failure TypeLayout := do
  let vector ← type.offsetVector memory
  let descriptor ← type.checkFields memory
  let fields ← fieldsOf? descriptor vector memory
  let superclass ← type.checkSuperclass memory
  let superclassName ← superclassName superclass memory
  let name ← type.name memory
  let qualifiedName ← type.qualifiedName memory
  let fieldCount ← type.fieldCount? memory
  return ⟨type.kind, name.map utf8Lossy, qualifiedName, fieldCount, superclassName, fields⟩

/-- The layout of the type behind a handle, after checks of all that it is collected from. -/
def ofHandle (handle : TypeHandle) (memory : Memory) : Except Failure TypeLayout := do
  let type ← ReflectedType.check handle memory
  ofType type memory

end TypeLayout

end TypeReflection
