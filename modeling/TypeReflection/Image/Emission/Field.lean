import TypeReflection.Field.Kind
import TypeReflection.Image.Emission.Attachment

/-! # Emission of field descriptors

A field descriptor is a header and the records of the fields, with the names that they refer to
behind them.
-/

namespace TypeReflection

/-- Records of fields and the names that they refer to. -/
structure EmittedRecords where
  records : List UInt8
  names : List UInt8
  deriving Repr, DecidableEq

/-- The records of fields, `stride` bytes apart from the position `record` on, and their names from
    the position `pool` on. -/
def EmittedRecords.ofFields (stride : Nat) :
    (record pool : Nat) → List FieldDefinition → Except BuildError EmittedRecords
  | _, _, [] => .ok ⟨[], []⟩
  | record, pool, field :: fields => do
      let typeName ←
        Attachment.ofEncodedName (record + Format.FieldRecord.typeName) pool field.typeName
      let namePosition := pool + typeName.bytes.length
      let name ←
        Attachment.ofString (record + Format.FieldRecord.name) namePosition (utf8Bytes field.name)
      let rest ← ofFields stride (record + stride) (namePosition + name.bytes.length) fields
      let stored :=
        littleEndian 4 field.flags.bits.toNat ++ typeName.link ++ name.link
          ++ zeros (stride - Format.FieldRecord.size)
      return ⟨stored ++ rest.records, typeName.bytes ++ name.bytes ++ rest.names⟩

namespace NominalDefinition

variable (definition : NominalDefinition)

/-- How far apart the field records are: the declared size, but never less than a record needs. -/
def recordStride : Nat :=
  max definition.recordSize.toNat Format.FieldRecord.size

/-- The field descriptor from `position` on, which is aligned. -/
def emitFieldDescriptor (kind : FieldDescriptorKind) (superclass : Option (List UInt8))
    (position : Nat) : Except BuildError (List UInt8) := do
  let records := position + Format.FieldDescriptor.headerSize
  let pool := records + definition.fields.length * definition.recordStride
  let typeName ←
    Attachment.ofEncodedName (position + Format.FieldDescriptor.typeName) pool
      definition.encodedName
  let superclassPosition := pool + typeName.bytes.length
  let superclass ←
    Attachment.ofEncodedName (position + Format.FieldDescriptor.superclass) superclassPosition
      superclass
  let fields ←
    EmittedRecords.ofFields definition.recordStride records
      (superclassPosition + superclass.bytes.length) definition.fields
  let header :=
    typeName.link ++ superclass.link ++ littleEndian 2 kind.raw.toNat
      ++ littleEndian 2 definition.recordSize.toNat ++ littleEndian 4 definition.fields.length
  return header ++ fields.records ++ typeName.bytes ++ superclass.bytes ++ fields.names

/-- The field descriptor at `position` or behind it, linked from `anchor`, if there is one. -/
def emitFields (kind : FieldDescriptorKind) (superclass : Option (List UInt8))
    (anchor position : Nat) : Except BuildError Attachment :=
  if definition.hasFieldDescriptor then do
    let start := alignUp position Format.descriptorAlignment
    let descriptor ← definition.emitFieldDescriptor kind superclass start
    let offset ← linkOffset anchor start
    return ⟨storedOffset offset, padding position Format.descriptorAlignment ++ descriptor, []⟩
  else
    .ok .absent

end NominalDefinition

end TypeReflection
