import TypeReflection.EncodedName
import TypeReflection.Field.Flags
import TypeReflection.Field.Kind
import TypeReflection.Link

/-! # Field descriptors

A field descriptor is a header followed by records of equal size, one for each field. Records are
read where they stand.
-/

namespace TypeReflection

/-- One field: its flags, the encoded name of its type if that is recorded, and its name. -/
structure FieldRecord where
  flags : FieldFlags
  typeName : Option EncodedName
  name : List UInt8
  deriving Repr, DecidableEq

/-- The name of a field as text. -/
def FieldRecord.nameText (record : FieldRecord) : String :=
  utf8Lossy record.name

/-- View of a field descriptor. -/
structure FieldDescriptor where
  address : Address
  deriving Repr, DecidableEq

namespace FieldDescriptor

/-- Whether records of this size have room for a record and keep the alignment. -/
def isRecordSize (size : UInt16) : Bool :=
  Format.FieldRecord.size ≤ size.toNat && size.toNat % Format.descriptorAlignment == 0

/-- The field descriptor at `address`, after a check of its alignment and of the declared size of
    its records. -/
def check (memory : Memory) (address : Address) : Except Failure FieldDescriptor := do
  if address.isAligned Format.descriptorAlignment then
    let size ← memory.readU16 address Format.FieldDescriptor.recordSize
    if isRecordSize size then
      return ⟨address⟩
    else
      throw (.rejected (.invalidFieldRecordSize address.bits size))
  else
    throw (.rejected
      (.misaligned RecordName.fieldDescriptor address.bits Format.descriptorAlignment))

variable (descriptor : FieldDescriptor) (memory : Memory)

def kind : Except Fault FieldDescriptorKind :=
  .ofRaw <$> memory.readU16 descriptor.address Format.FieldDescriptor.kind

/-- The encoded name stored behind the link at `position`, if there is one. -/
def encodedName (position : Nat) : Except Fault (Option EncodedName) := do
  let link ← DirectLink.readAt memory descriptor.address position
  link.get? (EncodedName.read memory)

/-- Encoded name of the type that the descriptor belongs to. -/
def typeName : Except Fault (Option EncodedName) :=
  descriptor.encodedName memory Format.FieldDescriptor.typeName

/-- Encoded name of the superclass. -/
def superclass : Except Fault (Option EncodedName) :=
  descriptor.encodedName memory Format.FieldDescriptor.superclass

/-- Declared size of a record. -/
def recordSize : Except Fault Nat :=
  UInt16.toNat <$> memory.readU16 descriptor.address Format.FieldDescriptor.recordSize

/-- Declared number of fields. -/
def fieldCount : Except Fault Nat :=
  UInt32.toNat <$> memory.readU32 descriptor.address Format.FieldDescriptor.fieldCount

/-- The record where the one numbered `index` stands, whether or not it is declared. -/
def readRecord (index : Nat) : Except Fault FieldRecord := do
  let size ← descriptor.recordSize memory
  let base ← descriptor.address.add (.ofNat (Format.FieldDescriptor.headerSize + index * size))
  let flags ← memory.readU32 base Format.FieldRecord.flags
  let typeLink ← DirectLink.readAt memory base Format.FieldRecord.typeName
  let nameLink ← DirectLink.readAt memory base Format.FieldRecord.name
  let typeName ← typeLink.get? (EncodedName.read memory)
  let name ← nameLink.get memory.cString
  return ⟨⟨flags⟩, typeName, name⟩

/-- The record numbered `index`, nothing past the end. -/
def record? (index : Nat) : Except Fault (Option FieldRecord) := do
  let count ← descriptor.fieldCount memory
  if index < count then
    some <$> descriptor.readRecord memory index
  else
    return none

/-- The next `count` records from the one numbered `index` on. -/
def readRecords (index : Nat) : (count : Nat) → Except Fault (List FieldRecord)
  | 0 => .ok []
  | count + 1 => do
      let first ← descriptor.readRecord memory index
      let rest ← readRecords (index + 1) count
      return first :: rest

/-- The same records, last first. -/
def readRecordsBack (index : Nat) : (count : Nat) → Except Fault (List FieldRecord)
  | 0 => .ok []
  | count + 1 => do
      let last ← descriptor.readRecord memory (index + count)
      let rest ← readRecordsBack index count
      return last :: rest

end FieldDescriptor

end TypeReflection
