import TypeReflection.Metadata.Class
import TypeReflection.Metadata.Struct

/-! # Reflectable types

What structs and classes have in common.
-/

namespace TypeReflection

/-- View of the metadata of a reflectable type. -/
inductive ReflectedType where
  | ofStruct (type : StructType)
  | ofClass (type : ClassType)
  deriving Repr, DecidableEq

namespace ReflectedType

/-- The metadata behind a handle, after a check that it is that of a struct or a class. -/
def check (handle : TypeHandle) (memory : Memory) : Except Failure ReflectedType := do
  match ← handle.checkTypeKind memory with
  | .structType => .ofStruct <$> StructType.check handle memory
  | .classType => .ofClass <$> ClassType.check handle memory

/-- The metadata behind a handle. -/
def read (handle : TypeHandle) (memory : Memory) : Except Fault ReflectedType :=
  strict (check handle memory)

def kind : ReflectedType → TypeKind
  | .ofStruct _ => .structType
  | .ofClass _ => .classType

def handle : ReflectedType → TypeHandle
  | .ofStruct type => type.handle
  | .ofClass type => type.handle

/-- The name, if there is a descriptor. -/
def name (type : ReflectedType) (memory : Memory) : Except Fault (Option (List UInt8)) :=
  match type with
  | .ofStruct type => some <$> type.name memory
  | .ofClass type => type.name memory

/-- The qualified name, if there is a descriptor. -/
def qualifiedName (type : ReflectedType) (memory : Memory) : Except Fault (Option String) :=
  match type with
  | .ofStruct type => some <$> type.qualifiedName memory
  | .ofClass type => type.qualifiedName memory

/-- The field descriptor, if there is one, after a check of it. -/
def checkFields (type : ReflectedType) (memory : Memory) :
    Except Failure (Option FieldDescriptor) :=
  match type with
  | .ofStruct type => type.checkFields memory
  | .ofClass type => type.checkFields memory

/-- The field descriptor, if there is one. -/
def fields (type : ReflectedType) (memory : Memory) : Except Fault (Option FieldDescriptor) :=
  match type with
  | .ofStruct type => type.fields memory
  | .ofClass type => type.fields memory

/-- The number of stored fields, which is not reported for classes. -/
def checkFieldCount (type : ReflectedType) (memory : Memory) : Except Failure Nat :=
  match type with
  | .ofStruct type => type.fieldCount memory
  | .ofClass type => .error (.rejected type.unsupportedLayout)

/-- The offsets of the stored fields, if the metadata has them; they are not reported for
    classes. -/
def checkFieldOffsets (type : ReflectedType) (memory : Memory) : Except Failure (Option Slice) :=
  match type with
  | .ofStruct type => type.fieldOffsets memory
  | .ofClass type => .error (.rejected type.unsupportedLayout)

end ReflectedType

end TypeReflection
