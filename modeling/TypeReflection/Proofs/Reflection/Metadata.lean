import TypeReflection.Metadata.Type
import TypeReflection.Proofs.Image.Definition
import TypeReflection.Proofs.Reflection.Context

/-! # Reading emitted structs and classes

Metadata shows its kind word and its pointers; the descriptor that it points to shows the rest.
-/

namespace TypeReflection

variable {memory : Memory} {base : Address} {image : UInt32} {size : Nat}

/-- What is read of an emitted struct. -/
structure StructDefinition.Shows (definition : StructDefinition) (memory : Memory)
    (base : Address) (metadata place : Nat) : Prop where
  fits : definition.nominal.Fits .structType
  offsets_length : ∀ offsets ∈ definition.offsets,
    offsets.length = definition.nominal.fields.length
  kindWord_eq : (⟨base.past metadata⟩ : TypeHandle).checkKindWord memory
    = .ok (definition.nominal.kindWord .structType)
  descriptor_eq : memory.readPointer (base.past metadata) Format.StructMetadata.descriptor
    = .ok (some (base.past place))
  type_shows : (⟨⟨base.past place⟩⟩ : TypeContext).Shows memory definition.nominal .structType none
  fieldCount_eq : (⟨⟨⟨base.past place⟩⟩⟩ : StructDescriptor).fieldCount memory
    = .ok (definition.nominal.fields.length % UInt32.size)
  locator_eq : (⟨⟨⟨base.past place⟩⟩⟩ : StructDescriptor).offsetVectorLocator memory
    = .ok definition.offsetVectorLocator
  descriptor_maps : memory.Maps (base.past place).bits.toNat Format.StructDescriptor.size
  aligned : 8 ∣ base.bits.toNat + metadata
  offsets_hold : memory.Holds (base.bits.toNat + metadata + 2 * Format.wordSize)
    definition.storedOffsets

/-- What is read of an emitted class. -/
structure ClassDefinition.Shows (definition : ClassDefinition) (memory : Memory)
    (base : Address) (metadata place : Nat) : Prop where
  fits : definition.nominal.Fits .classType
  kindWord_eq : (⟨base.past metadata⟩ : TypeHandle).checkKindWord memory
    = .ok (definition.nominal.kindWord .classType)
  superclass_eq : memory.readPointer (base.past metadata) Format.ClassMetadata.superclass
    = .ok (definition.superclass.map fun superclass => base.past superclass.1.offset)
  descriptor_eq : memory.readPointer (base.past metadata) Format.ClassMetadata.descriptor
    = .ok (if definition.isLinked then some (base.past place) else none)
  type_shows : (⟨⟨base.past place⟩⟩ : TypeContext).Shows memory definition.nominal .classType
    (definition.superclass.map Prod.snd)
  superclassType_eq : (⟨⟨⟨base.past place⟩⟩⟩ : ClassDescriptor).superclassType memory
    = .ok (definition.superclass.map fun superclass => ⟨EncodedName.cut superclass.2⟩)
  descriptor_maps : memory.Maps (base.past place).bits.toNat Format.ClassDescriptor.size
  metadata_maps : memory.Maps (base.past metadata).bits.toNat Format.ClassMetadata.size

theorem NominalDefinition.kindWord_of_holds {definition : NominalDefinition} {kind : TypeKind}
    {metadata : Nat} (aligned : 8 ∣ base.bits.toNat + metadata)
    (holds : memory.Holds (base.bits.toNat + metadata)
      (definition.storedKind (usualKindWord kind).toNat)) :
    (⟨base.past metadata⟩ : TypeHandle).checkKindWord memory = .ok (definition.kindWord kind) := by
  rw [definition.storedKind_eq kind] at holds
  have placed := Address.toNat_past (holds.inside (by simp))
  rw [← placed] at holds aligned
  have number : memory.read .word (base.past metadata) = .ok _ :=
    holds.read (length_littleEndian ..) aligned
  have multiple : (base.past metadata).isAligned Format.wordSize = true :=
    Address.isAligned_iff.mpr aligned
  have whole : UInt64.ofNat ((definition.kindWord kind).toNat % capacity 8)
      = definition.kindWord kind :=
    UInt64.toNat_inj.mp (by simp [capacity])
  rw [TypeHandle.checkKindWord, if_pos multiple, number, ofLittleEndian_littleEndian]
  exact congrArg Except.ok whole

/-! ## Structs -/

/-- The parts of an emitted struct stand where they were put. -/
structure StructDefinition.Stands (definition : StructDefinition) (memory : Memory)
    (base : Address) (type : EmittedType) (parent name fields : Attachment) : Prop where
  header : memory.Holds (base.bits.toNat + type.descriptor)
    (emittedTypeHeader .structType parent name fields)
  fieldCount : memory.Holds
    (base.bits.toNat + (type.descriptor + Format.StructDescriptor.fieldCount))
    (littleEndian 4 definition.nominal.fields.length)
  locator : memory.Holds
    (base.bits.toNat + (type.descriptor + Format.StructDescriptor.offsetVectorLocator))
    (littleEndian 4 definition.offsetVectorLocator)
  slot : memory.Holds (base.bits.toNat + (type.descriptor + Format.StructDescriptor.size))
    (Attachment.filledParent base.bits (type.descriptor + Format.StructDescriptor.size)
      definition.nominal.parent)
  text : memory.Holds (base.bits.toNat
    + (type.descriptor + Format.StructDescriptor.size + parent.bytes.length)) name.bytes
  fieldBytes : memory.Holds (base.bits.toNat + (type.descriptor + Format.StructDescriptor.size
    + parent.bytes.length + name.bytes.length)) fields.bytes
  kind : memory.Holds (base.bits.toNat + type.metadata)
    (definition.nominal.storedKind (usualKindWord .structType).toNat)
  pointer : memory.Holds (base.bits.toNat + (type.metadata + Format.StructMetadata.descriptor))
    (storedPointer base.bits type.descriptor)
  offsets : memory.Holds (base.bits.toNat + type.metadata + 2 * Format.wordSize)
    definition.storedOffsets
  descriptor_maps : memory.Maps (base.bits.toNat + type.descriptor) Format.StructDescriptor.size

namespace StructDefinition.Emits

variable {definition : StructDefinition} {type : EmittedType} {parent name fields : Attachment}
  (emits : definition.Emits image size type parent name fields)

include emits

theorem stands
    (holds : memory.Holds (base.bits.toNat + size)
      (padding size Format.descriptorAlignment
        ++ emittedTypeHeader .structType parent name fields ++ definition.storedCounts
        ++ Attachment.filledParent base.bits (type.descriptor + Format.StructDescriptor.size)
          definition.nominal.parent
        ++ name.bytes ++ fields.bytes
        ++ padding (bodyEnd type.descriptor parent name fields) Format.wordSize
        ++ definition.filledMetadata base.bits type.descriptor)) :
    definition.Stands memory base type parent name fields := by
  have start := add_length_padding size (by decide : 0 < Format.descriptorAlignment)
  rw [← emits.descriptor_eq] at start
  have behind : bodyEnd type.descriptor parent name fields
      + (padding (bodyEnd type.descriptor parent name fields) Format.wordSize).length
        = type.metadata := by
    rw [add_length_padding _ (by decide), emits.metadata_eq]
  have header : (emittedTypeHeader .structType parent name fields).length = _ :=
    length_emittedTypeHeader emits.parent_links.length_link
      (Attachment.length_link_of_ofString emits.name_eq) emits.fields_links.length_link
  have slot := (emits.parent_links.relocates base.bits).length
  have kind : (definition.nominal.storedKind Format.nonHeapKind).length = 8 :=
    length_littleEndian ..
  have placed : Format.StructDescriptor.size = 28 ∧ Format.Context.typeSize = 20 ∧
      Format.StructDescriptor.fieldCount = 20 ∧ Format.StructDescriptor.offsetVectorLocator = 24 ∧
      Format.StructMetadata.descriptor = 8 ∧ Format.wordSize = 8 := by decide
  have descriptor : memory.Maps
      (base.bits.toNat + size + (padding size Format.descriptorAlignment).length)
      Format.StructDescriptor.size :=
    holds.maps (by
      simp only [List.length_append, header, storedCounts, length_littleEndian, placed]
      omega)
  simp only [storedCounts, filledMetadata, Memory.holds_append, List.length_append, header, slot,
    kind, length_storedPointer, length_littleEndian] at holds
  clear header slot kind
  -- how long the padding is does not matter, only where it ends
  generalize (padding size Format.descriptorAlignment).length = front at *
  generalize (padding (bodyEnd type.descriptor parent name fields) Format.wordSize).length = gap
    at *
  rw [bodyEnd] at behind
  simp only [placed] at holds descriptor behind
  obtain ⟨⟨⟨⟨⟨⟨⟨_, first⟩, second, third⟩, fourth⟩, fifth⟩, sixth⟩, _⟩,
    ⟨⟨seventh, eighth⟩, ninth⟩, _⟩ := holds
  refine ⟨first.of_eq ?_, second.of_eq ?_, third.of_eq ?_, fourth.of_eq ?_, fifth.of_eq ?_,
    sixth.of_eq ?_, seventh.of_eq ?_, eighth.of_eq ?_, ninth.of_eq ?_, descriptor.of_eq ?_⟩
  all_goals
    try simp only [placed]
    clear placed
    omega

theorem shows (stands : definition.Stands memory base type parent name fields)
    (fits : definition.nominal.Fits .structType) (word : 8 ∣ base.bits.toNat)
    (front : ∀ found ∈ definition.nominal.parent, 4 ∣ found.context.offset ∧
      found.context.offset < type.descriptor) :
    (⟨base.past type.descriptor⟩ : Context).Shows memory .structType
        (definition.nominal.parent.map fun found => ⟨base.past found.context.offset⟩)
        (some (readBack definition.nominal.name)) ∧
      definition.Shows memory base type.metadata type.descriptor := by
  have four : 4 ∣ type.descriptor := emits.descriptor_eq ▸ dvd_alignUp ..
  have eight : 8 ∣ type.metadata := emits.metadata_eq ▸ dvd_alignUp ..
  have placed : Format.StructDescriptor.size = 28 ∧ Format.Context.typeSize = 20 ∧
      Format.StructDescriptor.fieldCount = 20 ∧ Format.StructDescriptor.offsetVectorLocator = 24 ∧
      Format.StructMetadata.descriptor = 8 := by decide
  have named : type.descriptor + Format.Context.typeSize
      ≤ type.descriptor + Format.StructDescriptor.size + parent.bytes.length := by omega
  have first := stands.header.inside (emittedTypeHeader_nonempty ..)
  refine ⟨?_, ?_⟩
  · exact Context.shows_type stands.header emits.parent_links emits.name_eq stands.text word four
      named rfl (by decide) stands.slot front
  · constructor
    case fits => exact fits
    case offsets_length => exact fun offsets given => length_offsets emits.offsets_eq given
    case kindWord_eq => exact NominalDefinition.kindWord_of_holds (by omega) stands.kind
    case descriptor_eq =>
        rw [← Address.ofBits?_eq_past first]
        exact Memory.Holds.recordPointer stands.pointer (by omega)
    case type_shows =>
        exact TypeContext.shows stands.header emits.parent_links emits.name_eq emits.fields_links
          stands.text word four named rfl stands.fieldBytes (by omega)
    case fieldCount_eq =>
        have read := congrArg (UInt32.toNat <$> ·) (stands.fieldCount.recordU32 (by omega))
        rwa [map_ok, UInt32.toNat_ofNat'] at read
    case locator_eq =>
        have small : definition.offsetVectorLocator < UInt32.size := by
          unfold offsetVectorLocator
          split <;> decide
        have read := congrArg (UInt32.toNat <$> ·) (stands.locator.recordU32 (by omega))
        rwa [map_ok, UInt32.toNat_ofNat_of_lt' small] at read
    case descriptor_maps =>
        rw [Address.toNat_past first]
        exact stands.descriptor_maps
    case aligned => omega
    case offsets_hold => exact stands.offsets

end StructDefinition.Emits

/-! ## Classes -/

/-- The pointer to a superclass or a descriptor, if there is one. -/
theorem Memory.Holds.recordPointer? {record position : Nat} {target : Option Nat}
    (holds : memory.Holds (base.bits.toNat + (record + position)) (storedPointer? base.bits target))
    (aligned : 8 ∣ base.bits.toNat + (record + position))
    (fits : ∀ offset ∈ target, base.bits.toNat + offset < UInt64.size) :
    memory.readPointer (base.past record) position = .ok (target.map base.past) := by
  cases target with
  | none =>
      have null : zeros Format.wordSize = littleEndian 8 (0 : UInt64).toNat := rfl
      rw [storedPointer?, null] at holds
      exact Memory.Holds.recordPointer holds aligned
  | some offset =>
      rw [Option.map_some, ← Address.ofBits?_eq_past (fits offset rfl)]
      exact Memory.Holds.recordPointer holds aligned

theorem ClassDefinition.length_filledMetadata (definition : ClassDefinition) (base : UInt64)
    (descriptor : Nat) (superclass : Option Nat) :
    (definition.filledMetadata base descriptor superclass).length
      = negativeSize + Format.ClassMetadata.size := by
  simp only [filledMetadata, NominalDefinition.storedKind, List.length_append,
    length_storedPointer?, length_zeros, length_littleEndian]
  rfl

/-- The parts of an emitted class stand where they were put. -/
structure ClassDefinition.Stands (definition : ClassDefinition) (memory : Memory) (base : Address)
    (type : EmittedType) (superclass : Option Nat)
    (parent name superclassType fields : Attachment) : Prop where
  header : memory.Holds (base.bits.toNat + type.descriptor)
    (emittedTypeHeader .classType parent name fields)
  superclassLink : memory.Holds
    (base.bits.toNat + (type.descriptor + Format.ClassDescriptor.superclassType))
    superclassType.link
  slot : memory.Holds (base.bits.toNat + (type.descriptor + Format.ClassDescriptor.size))
    (Attachment.filledParent base.bits (type.descriptor + Format.ClassDescriptor.size)
      definition.nominal.parent)
  text : memory.Holds (base.bits.toNat
    + (type.descriptor + Format.ClassDescriptor.size + parent.bytes.length)) name.bytes
  superclassBytes : memory.Holds (base.bits.toNat + (type.descriptor + Format.ClassDescriptor.size
    + parent.bytes.length + name.bytes.length)) superclassType.bytes
  fieldBytes : memory.Holds (base.bits.toNat + (type.descriptor + Format.ClassDescriptor.size
    + parent.bytes.length + name.bytes.length + superclassType.bytes.length)) fields.bytes
  kind : memory.Holds (base.bits.toNat + type.metadata)
    (definition.nominal.storedKind (usualKindWord .classType).toNat)
  superclassPointer : memory.Holds
    (base.bits.toNat + (type.metadata + Format.ClassMetadata.superclass))
    (storedPointer? base.bits superclass)
  pointer : memory.Holds (base.bits.toNat + (type.metadata + Format.ClassMetadata.descriptor))
    (storedPointer? base.bits (definition.linkedDescriptor type.descriptor))
  descriptor_maps : memory.Maps (base.bits.toNat + type.descriptor) Format.ClassDescriptor.size
  metadata_maps : memory.Maps (base.bits.toNat + type.metadata) Format.ClassMetadata.size

namespace ClassDefinition.Emits

variable {definition : ClassDefinition} {type : EmittedType} {superclass : Option Nat}
  {parent name superclassType fields : Attachment}
  (emits : definition.Emits image size type superclass parent name superclassType fields)

include emits

theorem stands
    (holds : memory.Holds (base.bits.toNat + size)
      (padding size Format.descriptorAlignment
        ++ emittedTypeHeader .classType parent name fields ++ superclassType.link
        ++ definition.storedCounts
        ++ Attachment.filledParent base.bits (type.descriptor + Format.ClassDescriptor.size)
          definition.nominal.parent
        ++ name.bytes ++ superclassType.bytes ++ fields.bytes
        ++ padding (bodyEnd type.descriptor parent name superclassType fields) Format.wordSize
        ++ definition.filledMetadata base.bits type.descriptor superclass)) :
    definition.Stands memory base type superclass parent name superclassType fields := by
  have start := add_length_padding size (by decide : 0 < Format.descriptorAlignment)
  have behind : bodyEnd type.descriptor parent name superclassType fields
      + (padding (bodyEnd type.descriptor parent name superclassType fields)
        Format.wordSize).length + negativeSize = type.metadata := by
    rw [add_length_padding _ (by decide), emits.metadata_eq]
  have header : (emittedTypeHeader .classType parent name fields).length = _ :=
    length_emittedTypeHeader emits.parent_links.length_link
      (Attachment.length_link_of_ofString emits.name_eq) emits.fields_links.length_link
  have slot := (emits.parent_links.relocates base.bits).length
  have link := Attachment.length_link_of_ofEncodedName emits.superclassType_eq
  have counts : definition.storedCounts.length = 20 := by simp [storedCounts]
  have kindLength : (definition.nominal.storedKind 0).length = 8 := length_littleEndian ..
  have ended : bodyEnd type.descriptor parent name superclassType fields
      = type.descriptor + Format.ClassDescriptor.size + parent.bytes.length + name.bytes.length
        + superclassType.bytes.length + fields.bytes.length := rfl
  have placed : Format.ClassDescriptor.size = 44 ∧ Format.Context.typeSize = 20 ∧
      Format.ClassDescriptor.superclassType = 20 ∧ Format.ClassMetadata.superclass = 8 ∧
      Format.ClassMetadata.descriptor = 40 ∧ Format.ClassMetadata.size = 56 ∧
      negativeSize = 16 ∧ Format.wordSize = 8 := by decide
  rw [← emits.descriptor_eq] at start
  have descriptor : memory.Maps
      (base.bits.toNat + size + (padding size Format.descriptorAlignment).length)
      Format.ClassDescriptor.size :=
    holds.maps (by simp only [List.length_append, header, link, counts]; omega)
  have metadata := (Memory.holds_append.mp holds).2.maps
    (Nat.le_of_eq (definition.length_filledMetadata ..).symm)
  simp only [filledMetadata, Memory.holds_append, List.length_append, header, slot,
    link, counts, kindLength, length_storedPointer?, length_littleEndian, length_zeros]
    at holds metadata
  clear header slot link counts kindLength
  -- how long the padding is does not matter, only where it ends
  generalize (padding size Format.descriptorAlignment).length = front at *
  generalize (padding (bodyEnd type.descriptor parent name superclassType fields)
    Format.wordSize).length = gap at *
  rw [ended] at behind
  clear ended
  simp only [placed] at holds metadata descriptor behind
  obtain ⟨⟨⟨⟨⟨⟨⟨⟨⟨_, first⟩, second⟩, _⟩, third⟩, fourth⟩, fifth⟩, sixth⟩, _⟩,
    ⟨⟨⟨⟨⟨⟨⟨⟨⟨⟨_, seventh⟩, eighth⟩, _⟩, _⟩, _⟩, _⟩, _⟩, _⟩, ninth⟩, _⟩⟩ := holds
  refine ⟨first.of_eq ?_, second.of_eq ?_, third.of_eq ?_, fourth.of_eq ?_, fifth.of_eq ?_,
    sixth.of_eq ?_, seventh.of_eq ?_, eighth.of_eq ?_, ninth.of_eq ?_, descriptor.of_eq ?_,
    metadata.of_eq ?_⟩
  all_goals
    try simp only [placed]
    clear placed
    omega

theorem shows (stands : definition.Stands memory base type superclass parent name superclassType
      fields)
    (fits : definition.nominal.Fits .classType) (word : 8 ∣ base.bits.toNat)
    (front : ∀ found ∈ definition.nominal.parent, 4 ∣ found.context.offset ∧
      found.context.offset < type.descriptor)
    (above : ∀ offset ∈ superclass, offset < type.descriptor) :
    (⟨base.past type.descriptor⟩ : Context).Shows memory .classType
        (definition.nominal.parent.map fun found => ⟨base.past found.context.offset⟩)
        (some (readBack definition.nominal.name)) ∧
      definition.Shows memory base type.metadata type.descriptor := by
  have four : 4 ∣ type.descriptor := emits.descriptor_eq ▸ dvd_alignUp ..
  have eight : 8 ∣ type.metadata :=
    emits.metadata_eq ▸ Nat.dvd_add (dvd_alignUp ..) (by decide)
  have placed : Format.ClassDescriptor.size = 44 ∧ Format.Context.typeSize = 20 ∧
      Format.ClassDescriptor.superclassType = 20 ∧ Format.ClassMetadata.superclass = 8 ∧
      Format.ClassMetadata.descriptor = 40 := by decide
  have named : type.descriptor + Format.Context.typeSize
      ≤ type.descriptor + Format.ClassDescriptor.size + parent.bytes.length := by omega
  have first := stands.header.inside (emittedTypeHeader_nonempty ..)
  have second := stands.kind.inside (by simp [NominalDefinition.storedKind, Format.wordSize])
  refine ⟨?_, ?_⟩
  · exact Context.shows_type stands.header emits.parent_links emits.name_eq stands.text word four
      named rfl (by decide) stands.slot front
  · constructor
    case fits => exact fits
    case kindWord_eq => exact NominalDefinition.kindWord_of_holds (by omega) stands.kind
    case superclass_eq =>
        have same := congrArg (Option.map fun symbol => base.past symbol.offset)
          (superclassPosition_eq_ok emits.superclass_eq)
        rw [Option.map_map, Option.map_map] at same
        refine Eq.trans ?_ (congrArg Except.ok same.symm)
        refine Memory.Holds.recordPointer? stands.superclassPointer (by omega) ?_
        intro offset given
        have before := above offset given
        omega
    case descriptor_eq =>
        have read : memory.readPointer (base.past type.metadata) Format.ClassMetadata.descriptor
            = .ok ((definition.linkedDescriptor type.descriptor).map base.past) := by
          refine Memory.Holds.recordPointer? stands.pointer (by omega) ?_
          intro offset given
          unfold linkedDescriptor at given
          split at given
          · cases given
            exact first
          · cases given
        rw [read, linkedDescriptor]
        split <;> rfl
    case type_shows =>
        exact TypeContext.shows stands.header emits.parent_links emits.name_eq emits.fields_links
          stands.text word four named rfl stands.fieldBytes (by omega)
    case superclassType_eq =>
        have read := Attachment.encodedName_read stands.superclassLink stands.superclassBytes
          (by omega) (by omega) emits.superclassType_eq
        rw [Option.map_map] at read
        exact bind_eq_ok.mpr read
    case descriptor_maps =>
        rw [Address.toNat_past first]
        exact stands.descriptor_maps
    case metadata_maps =>
        rw [Address.toNat_past second]
        exact stands.metadata_maps

end ClassDefinition.Emits

end TypeReflection
