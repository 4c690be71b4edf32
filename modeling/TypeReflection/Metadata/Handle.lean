import TypeReflection.Memory

/-! # Type handles

A type handle is the address of the metadata of a type. The kind word at that address decides
whether the type is a struct or a class.
-/

namespace TypeReflection

/-- Identity of a type: the address of its metadata. -/
structure TypeHandle where
  address : Address
  deriving Repr, DecidableEq

namespace TypeHandle

/-- Text of a handle. -/
def text (handle : TypeHandle) : String :=
  s!"TypeHandle({handle.address.text})"

variable (handle : TypeHandle) (memory : Memory)

/-- The kind word, after a check of the alignment. -/
def checkKindWord : Except Failure UInt64 := do
  if handle.address.isAligned Format.wordSize then
    let bits ← memory.read .word handle.address
    return .ofNat bits
  else
    throw (.rejected (.misaligned RecordName.typeMetadata handle.address.bits Format.wordSize))

/-- The decoded kind word. -/
def checkMetadataKind : Except Failure MetadataKind :=
  MetadataKind.ofRaw <$> handle.checkKindWord memory

/-- The shape of the type, after a check that it is reflectable. -/
def checkTypeKind : Except Failure TypeKind := do
  let raw ← handle.checkKindWord memory
  match (MetadataKind.ofRaw raw).typeKind? with
  | some kind => return kind
  | none => throw (.rejected (.unsupportedKind handle.address.bits raw))

/-- The shape of the type. -/
def typeKind : Except Fault TypeKind :=
  strict (handle.checkTypeKind memory)

/-- Nothing, after a check that the type has the expected shape. -/
def checkShape (expected : TypeKind) : Except Failure Unit := do
  let found ← handle.checkTypeKind memory
  if found = expected then
    return ()
  else
    throw (.rejected (.wrongKind handle.address.bits expected.name))

end TypeHandle

end TypeReflection
