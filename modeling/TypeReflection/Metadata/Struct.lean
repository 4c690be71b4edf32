import TypeReflection.Context.Type
import TypeReflection.Metadata.Handle

/-! # Structs

Struct metadata is a kind word and a pointer to the struct's descriptor. The descriptor may place a
vector of field offsets inside the metadata.
-/

namespace TypeReflection

/-- View of the descriptor of a struct. -/
structure StructDescriptor where
  type : TypeContext
  deriving Repr, DecidableEq

namespace StructDescriptor

/-- The context as the descriptor of a struct, after a check of its kind. -/
def check (context : Context) (memory : Memory) : Except Failure StructDescriptor :=
  (⟨·⟩) <$> TypeContext.check context memory .structType

variable (descriptor : StructDescriptor) (memory : Memory)

def address : Address :=
  descriptor.type.address

/-- Number of stored fields. -/
def fieldCount : Except Fault Nat :=
  UInt32.toNat <$> memory.readU32 descriptor.address Format.StructDescriptor.fieldCount

/-- Where the offset vector stands in the metadata, in words, or zero if there is none. -/
def offsetVectorLocator : Except Fault Nat :=
  UInt32.toNat <$> memory.readU32 descriptor.address Format.StructDescriptor.offsetVectorLocator

/-- Whether the metadata has an offset vector. -/
def hasOffsetVector : Except Fault Bool :=
  (· != 0) <$> descriptor.offsetVectorLocator memory

end StructDescriptor

/-- View of the metadata of a struct. -/
structure StructType where
  handle : TypeHandle
  descriptor : StructDescriptor
  deriving Repr, DecidableEq

namespace StructType

/-- The metadata behind a handle as that of a struct, after a check of its kind, its alignment and
    its descriptor. -/
def check (handle : TypeHandle) (memory : Memory) : Except Failure StructType := do
  handle.checkShape memory .structType
  match ← memory.readPointer handle.address Format.StructMetadata.descriptor with
  | some address =>
      let context ← Context.check address
      let descriptor ← StructDescriptor.check context memory
      return ⟨handle, descriptor⟩
  | none => throw (.rejected (.nullDescriptor handle.address.bits))

/-- The metadata behind a handle as that of a struct. -/
def read (handle : TypeHandle) (memory : Memory) : Except Fault StructType :=
  strict (check handle memory)

variable (type : StructType) (memory : Memory)

def name : Except Fault (List UInt8) :=
  type.descriptor.type.name memory

/-- The names of the struct and of the contexts around it, joined by dots. -/
def qualifiedName : Except Fault String :=
  type.descriptor.type.qualifiedName memory

/-- The field descriptor, if there is one, after a check of it. -/
def checkFields : Except Failure (Option FieldDescriptor) :=
  type.descriptor.type.checkFields memory

/-- The field descriptor, if there is one. -/
def fields : Except Fault (Option FieldDescriptor) :=
  type.descriptor.type.fields memory

def fieldCount : Except Fault Nat :=
  type.descriptor.fieldCount memory

/-- The offsets of the stored fields in declaration order, if the metadata has them. -/
def fieldOffsets : Except Fault (Option Slice) := do
  let locator ← type.descriptor.offsetVectorLocator memory
  if locator = 0 then
    return none
  else
    let start ← type.handle.address.add (.ofNat (locator * Format.wordSize))
    let count ← type.fieldCount memory
    some <$> Slice.of .u32 start count

end StructType

end TypeReflection
