import TypeReflection.Context.Type
import TypeReflection.Metadata.Handle

/-! # Classes

Class metadata starts with a kind word and a pointer to the superclass, and holds sizes and a
pointer to the class descriptor, which is null for artificial subclasses. The place of a class's
field offsets depends on all its ancestors, so field counts and offsets are not reported.
-/

namespace TypeReflection

/-- View of the descriptor of a class. -/
structure ClassDescriptor where
  type : TypeContext
  deriving Repr, DecidableEq

namespace ClassDescriptor

/-- The context as the descriptor of a class, after a check of its kind. -/
def check (context : Context) (memory : Memory) : Except Failure ClassDescriptor :=
  (⟨·⟩) <$> TypeContext.check context memory .classType

variable (descriptor : ClassDescriptor) (memory : Memory)

def address : Address :=
  descriptor.type.address

/-- Encoded name of the superclass, if there is one. -/
def superclassType : Except Fault (Option EncodedName) := do
  let link ← DirectLink.readAt memory descriptor.address Format.ClassDescriptor.superclassType
  link.get? (EncodedName.read memory)

/-- Words of metadata before the address point. -/
def negativeWords : Except Fault UInt32 :=
  memory.readU32 descriptor.address Format.ClassDescriptor.negativeWords

/-- Words of metadata from the address point on. -/
def positiveWords : Except Fault UInt32 :=
  memory.readU32 descriptor.address Format.ClassDescriptor.positiveWords

/-- Members that the class adds to its metadata, without the inherited ones. -/
def immediateMembers : Except Fault UInt32 :=
  memory.readU32 descriptor.address Format.ClassDescriptor.immediateMembers

end ClassDescriptor

/-- View of the metadata of a class. -/
structure ClassType where
  handle : TypeHandle
  /-- The descriptor, which artificial subclasses lack. -/
  descriptor : Option ClassDescriptor
  deriving Repr, DecidableEq

namespace ClassType

/-- The metadata behind a handle as that of a class, after a check of its kind, its alignment and
    its descriptor. -/
def check (handle : TypeHandle) (memory : Memory) : Except Failure ClassType := do
  handle.checkShape memory .classType
  match ← memory.readPointer handle.address Format.ClassMetadata.descriptor with
  | some address =>
      let context ← Context.check address
      let descriptor ← ClassDescriptor.check context memory
      return ⟨handle, some descriptor⟩
  | none => return ⟨handle, none⟩

/-- The metadata behind a handle as that of a class. -/
def read (handle : TypeHandle) (memory : Memory) : Except Fault ClassType :=
  strict (check handle memory)

/-- Whether the metadata has the header of a native class. Without the interoperation words every
    class has it. -/
def isNative (_ : ClassType) : Bool :=
  !Format.objectiveCInterop

variable (type : ClassType) (memory : Memory)

/-- The name, if there is a descriptor. -/
def name : Except Fault (Option (List UInt8)) :=
  match type.descriptor with
  | some descriptor => some <$> descriptor.type.name memory
  | none => .ok none

/-- The names of the class and of the contexts around it, joined by dots, if there is a
    descriptor. -/
def qualifiedName : Except Fault (Option String) :=
  match type.descriptor with
  | some descriptor => some <$> descriptor.type.qualifiedName memory
  | none => .ok none

/-- The field descriptor, if there is one, after a check of it. -/
def checkFields : Except Failure (Option FieldDescriptor) :=
  match type.descriptor with
  | some descriptor => descriptor.type.checkFields memory
  | none => .ok none

/-- The field descriptor, if there is one. -/
def fields : Except Fault (Option FieldDescriptor) :=
  strict (type.checkFields memory)

/-- The superclass, nothing for a root class, after a check of its metadata. -/
def checkSuperclass : Except Failure (Option ClassType) := do
  match ← memory.readPointer type.handle.address Format.ClassMetadata.superclass with
  | some address => some <$> check ⟨address⟩ memory
  | none => return none

/-- The superclass, nothing for a root class. -/
def superclass : Except Fault (Option ClassType) :=
  strict (type.checkSuperclass memory)

/-- What `visit` makes of at most `limit` of the classes from this one upwards. -/
def visitAncestors {β : Type} (limit : Nat) (visit : ClassType → Except Fault β) :
    Walk Fault β :=
  .along (fun inner => inner.superclass memory) visit limit type

/-- At most `limit` of the classes from this one upwards. -/
def ancestors (limit : Nat) : Walk Fault ClassType :=
  type.visitAncestors memory limit .ok

/-- The class flags. -/
def flags : Except Fault UInt32 :=
  memory.readU32 type.handle.address Format.ClassMetadata.flags

def instanceAddressPoint : Except Fault UInt32 :=
  memory.readU32 type.handle.address Format.ClassMetadata.instanceAddressPoint

/-- Size of an instance in bytes. -/
def instanceSize : Except Fault UInt32 :=
  memory.readU32 type.handle.address Format.ClassMetadata.instanceSize

def instanceAlignmentMask : Except Fault UInt16 :=
  memory.readU16 type.handle.address Format.ClassMetadata.instanceAlignmentMask

/-- Size of the whole metadata in bytes. -/
def classSize : Except Fault UInt32 :=
  memory.readU32 type.handle.address Format.ClassMetadata.classSize

/-- Bytes of metadata before the address point. -/
def classAddressPoint : Except Fault UInt32 :=
  memory.readU32 type.handle.address Format.ClassMetadata.classAddressPoint

/-- The error that stands for a field count or field offsets. -/
def unsupportedLayout : MetadataError :=
  .classFieldLayoutUnsupported type.handle.address.bits

end ClassType

end TypeReflection
