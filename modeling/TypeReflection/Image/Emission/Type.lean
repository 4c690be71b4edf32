import TypeReflection.Image.Emission.Context
import TypeReflection.Image.Emission.Field

/-! # Emission of types

A type is emitted as its descriptor, the parts that the descriptor links to and its metadata, which
points back to the descriptor.
-/

namespace TypeReflection

/-- An emitted type: what goes behind the image and where the two records of the type stand. -/
structure EmittedType where
  emission : Emission
  metadata : Nat
  descriptor : Nat
  deriving Repr, DecidableEq

/-- The part that the descriptors of all types share. -/
def emittedTypeHeader (kind : ContextKind) (parent name fields : Attachment) : List UInt8 :=
  emittedFlags kind ++ parent.link ++ name.link ++ Attachment.absent.link ++ fields.link

/-- The stored kind word of a definition, `usual` unless another was set. -/
def NominalDefinition.storedKind (definition : NominalDefinition) (usual : Nat) : List UInt8 :=
  littleEndian Format.wordSize ((definition.rawKind.map UInt64.toNat).getD usual)

namespace StructDefinition

variable (definition : StructDefinition)

/-- Nothing, if the offset vector has an entry for each field or there is none. -/
def checkOffsets : Except BuildError Unit :=
  match definition.offsets with
  | none => .ok ()
  | some offsets =>
      if offsets.length = definition.nominal.fields.length then
        .ok ()
      else
        .error (.offsetCountMismatch definition.nominal.name offsets.length
          definition.nominal.fields.length)

/-- Where the offset vector stands in the metadata, in words: behind the kind word and the pointer
    to the descriptor, or zero if there is none. -/
def offsetVectorLocator : Nat :=
  if definition.offsets.isSome then 2 else 0

/-- The stored entries of the offset vector. -/
def storedOffsets : List UInt8 :=
  (definition.offsets.getD []).flatMap fun offset => littleEndian 4 offset.toNat

/-- The part of the descriptor that only structs have. -/
def storedCounts : List UInt8 :=
  littleEndian 4 definition.nominal.fields.length ++ littleEndian 4 definition.offsetVectorLocator

/-- The metadata, its pointer to the descriptor left zero. -/
def storedMetadata : List UInt8 :=
  definition.nominal.storedKind Format.nonHeapKind ++ zeros Format.wordSize
    ++ definition.storedOffsets ++ padding definition.storedOffsets.length Format.wordSize

/-- The struct behind an image of `size` bytes. -/
def emit (image : UInt32) (size : Nat) : Except BuildError EmittedType := do
  let nominal := definition.nominal
  definition.checkOffsets
  let descriptor := alignUp size Format.descriptorAlignment
  let parentPosition := descriptor + Format.StructDescriptor.size
  let parent ←
    Attachment.ofParent image (descriptor + Format.Context.parent) parentPosition nominal.parent
  let namePosition := parentPosition + parent.bytes.length
  let name ←
    Attachment.ofString (descriptor + Format.Context.name) namePosition (utf8Bytes nominal.name)
  let fieldsPosition := namePosition + name.bytes.length
  let fields ←
    nominal.emitFields .structType none (descriptor + Format.Context.fields) fieldsPosition
  let metadataPosition := fieldsPosition + fields.bytes.length
  let metadata := alignUp metadataPosition Format.wordSize
  let bytes :=
    padding size Format.descriptorAlignment ++ emittedTypeHeader .structType parent name fields
      ++ definition.storedCounts ++ parent.bytes ++ name.bytes ++ fields.bytes
      ++ padding metadataPosition Format.wordSize ++ definition.storedMetadata
  let relocations :=
    parent.relocations ++ [⟨metadata + Format.StructMetadata.descriptor, descriptor⟩]
  return ⟨⟨bytes, relocations⟩, metadata, descriptor⟩

end StructDefinition

namespace ClassDefinition

variable (definition : ClassDefinition)

/-- Where the metadata of the superclass stands, if there is one. -/
def superclassPosition (image : UInt32) : Except BuildError (Option Nat) :=
  match definition.superclass with
  | none => .ok none
  | some (superclass, _) => some <$> liftM (superclass.resolve image .classMetadata)

/-- Bytes of metadata before the address point. -/
def negativeSize : Nat :=
  Format.ClassMetadata.negativeWords * Format.wordSize

/-- The part of the descriptor that only classes have, behind the link to the name of the
    superclass. -/
def storedCounts : List UInt8 :=
  littleEndian 4 Format.ClassMetadata.negativeWords
    ++ littleEndian 4 (Format.ClassMetadata.size / Format.wordSize)
    ++ zeros 4 ++ littleEndian 4 definition.nominal.fields.length ++ zeros 4

/-- The metadata with the part before its address point, its pointers left zero. -/
def storedMetadata : List UInt8 :=
  zeros negativeSize ++ definition.nominal.storedKind 0 ++ zeros Format.wordSize
    ++ zeros 8 ++ littleEndian 4 definition.instanceSize.toNat
    ++ littleEndian 2 (Format.wordSize - 1) ++ zeros 2
    ++ littleEndian 4 (negativeSize + Format.ClassMetadata.size) ++ littleEndian 4 negativeSize
    ++ zeros Format.wordSize ++ zeros Format.wordSize

/-- The pointers of the metadata at `metadata`. -/
def relocations (metadata descriptor : Nat) (superclass : Option Nat) : List Relocation :=
  superclass.toList.map (⟨metadata + Format.ClassMetadata.superclass, ·⟩)
    ++ if definition.isLinked then [⟨metadata + Format.ClassMetadata.descriptor, descriptor⟩]
      else []

/-- The class behind an image of `size` bytes. -/
def emit (image : UInt32) (size : Nat) : Except BuildError EmittedType := do
  let nominal := definition.nominal
  let superclass ← definition.superclassPosition image
  let superclassName := definition.superclass.map Prod.snd
  let descriptor := alignUp size Format.descriptorAlignment
  let parentPosition := descriptor + Format.ClassDescriptor.size
  let parent ←
    Attachment.ofParent image (descriptor + Format.Context.parent) parentPosition nominal.parent
  let namePosition := parentPosition + parent.bytes.length
  let name ←
    Attachment.ofString (descriptor + Format.Context.name) namePosition (utf8Bytes nominal.name)
  let superclassTypePosition := namePosition + name.bytes.length
  let superclassType ←
    Attachment.ofEncodedName (descriptor + Format.ClassDescriptor.superclassType)
      superclassTypePosition superclassName
  let fieldsPosition := superclassTypePosition + superclassType.bytes.length
  let fields ←
    nominal.emitFields .classType superclassName (descriptor + Format.Context.fields)
      fieldsPosition
  let metadataPosition := fieldsPosition + fields.bytes.length
  let metadata := alignUp metadataPosition Format.wordSize + negativeSize
  let bytes :=
    padding size Format.descriptorAlignment ++ emittedTypeHeader .classType parent name fields
      ++ superclassType.link ++ definition.storedCounts ++ parent.bytes ++ name.bytes
      ++ superclassType.bytes ++ fields.bytes ++ padding metadataPosition Format.wordSize
      ++ definition.storedMetadata
  let relocations := parent.relocations ++ definition.relocations metadata descriptor superclass
  return ⟨⟨bytes, relocations⟩, metadata, descriptor⟩

end ClassDefinition

end TypeReflection
