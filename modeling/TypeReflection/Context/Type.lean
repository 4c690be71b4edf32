import TypeReflection.Context.Basic
import TypeReflection.Field.Descriptor

/-! # Contexts of types

Descriptors of structs, classes and enums continue with links to their name, to the function that
gives access to the metadata, and to the field descriptor.
-/

namespace TypeReflection

/-- View of the part that the descriptors of all types share. -/
structure TypeContext where
  context : Context
  deriving Repr, DecidableEq

namespace TypeContext

/-- The context as that of a type, if it is one. -/
def ofContext? (context : Context) (memory : Memory) : Except Fault (Option TypeContext) := do
  let kind ← context.kind memory
  return if kind.isType then some ⟨context⟩ else none

/-- The context as that of a type, after a check that it is of the expected kind. -/
def check (context : Context) (memory : Memory) (expected : ContextKind) :
    Except Failure TypeContext := do
  let found ← context.kind memory
  if found = expected then
    return ⟨context⟩
  else
    throw (.rejected (.descriptorKindMismatch context.address.bits expected found))

variable (type : TypeContext) (memory : Memory)

def address : Address :=
  type.context.address

/-- The name of the type. -/
def name : Except Fault (List UInt8) := do
  let link ← type.context.nameLink memory
  link.get memory.cString

/-- The names of the type and of the contexts around it, joined by dots. -/
def qualifiedName : Except Fault String :=
  type.context.qualifiedName memory

/-- Address of the function that gives access to the metadata, if there is one. -/
def accessFunction : Except Fault (Option Address) := do
  let link ← DirectLink.readAt memory type.address Format.Context.accessFunction
  link.get? .ok

/-- The field descriptor, if there is one, after a check of it. -/
def checkFields : Except Failure (Option FieldDescriptor) := do
  let link ← DirectLink.readAt memory type.address Format.Context.fields
  match ← link.get? .ok with
  | some address => some <$> FieldDescriptor.check memory address
  | none => return none

/-- The field descriptor, if there is one. -/
def fields : Except Fault (Option FieldDescriptor) :=
  strict (type.checkFields memory)

end TypeContext

end TypeReflection
