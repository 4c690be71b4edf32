import TypeReflection.Image.Builder
import TypeReflection.Proofs.Image.Relocation
import TypeReflection.Proofs.Reading

/-! # What is emitted

A definition that can be emitted gives its parts in a fixed order. Each emitter is opened here once:
where its parts stand, which of its words are pointers, and what it becomes when they are filled in.
-/

namespace TypeReflection

theorem Symbol.resolve_eq_ok {symbol : Symbol} {image : UInt32} {role : Role} {offset : Nat} :
    (liftM (symbol.resolve image role) : Except BuildError Nat) = .ok offset ↔
      symbol = ⟨image, offset, role⟩ := by
  obtain ⟨own, place, found⟩ := symbol
  change (resolve ⟨own, place, found⟩ image role).mapError BuildError.symbol = .ok offset ↔ _
  unfold resolve
  split
  case isTrue foreign =>
      refine ⟨nofun, fun same => ?_⟩
      cases same
      exact absurd rfl foreign
  split
  case isTrue wrong =>
      refine ⟨nofun, fun same => ?_⟩
      cases same
      exact absurd rfl wrong
  case isFalse own role =>
      obtain rfl := Decidable.not_not.mp own
      obtain rfl := Decidable.not_not.mp role
      change Except.ok place = Except.ok offset ↔ _
      simp

/-! ## Attachments -/

namespace Attachment

variable {image : UInt32} {anchor position : Nat} {attachment : Attachment}

theorem ofString_eq_ok {string : List UInt8} :
    ofString anchor position string = .ok attachment ↔ ∃ offset,
      linkOffset anchor position = .ok offset ∧
        attachment = ⟨storedOffset offset, string ++ [0], []⟩ := by
  unfold ofString
  rw [bind_eq_ok]
  refine exists_congr fun offset => and_congr_right fun _ => ?_
  exact ⟨fun given => (Except.ok.inj given).symm, fun same => congrArg _ same.symm⟩

theorem length_link_of_ofString {string : List UInt8}
    (given : ofString anchor position string = .ok attachment) : attachment.link.length = 4 := by
  obtain ⟨offset, _, rfl⟩ := ofString_eq_ok.mp given
  exact length_storedOffset offset

theorem ofEncodedName_eq_ok {name : Option (List UInt8)} :
    ofEncodedName anchor position name = .ok attachment ↔
      (name = none ∧ attachment = absent) ∨
        ∃ bytes, name = some bytes ∧ EncodedName.isWellFormed bytes = true ∧
          ofString anchor position bytes = .ok attachment := by
  cases name with
  | none =>
      simp only [ofEncodedName, Except.ok.injEq, true_and, reduceCtorEq, false_and, exists_false,
        or_false]
      exact eq_comm
  | some bytes =>
      dsimp only [ofEncodedName]
      split
      case isTrue wellFormed => simp [wellFormed]
      case isFalse broken => simp [broken]

theorem length_link_of_ofEncodedName {name : Option (List UInt8)}
    (given : ofEncodedName anchor position name = .ok attachment) :
    attachment.link.length = 4 := by
  rcases ofEncodedName_eq_ok.mp given with ⟨_, rfl⟩ | ⟨_, _, _, given⟩
  · exact length_storedOffset _
  · exact length_link_of_ofString given

/-- What the bytes of a parent link become: the slot of an indirect one holds the address of the
    context. -/
def filledParent (base : UInt64) (position : Nat) : Option ParentReference → List UInt8
  | some (.indirect context) =>
      padding position Format.wordSize ++ storedPointer base context.offset
  | some (.direct _) | none => []

/-- How a parent link from `anchor` is emitted, with its slot at `position` or behind it. -/
inductive LinksParent (image : UInt32) (anchor position : Nat) :
    Option ParentReference → Attachment → Prop where
  | none : LinksParent image anchor position none absent
  | direct {target : Nat} {offset : Int32} : linkOffset anchor target = .ok offset →
      LinksParent image anchor position (some (.direct ⟨image, target, .context⟩))
        ⟨storedOffset offset, [], []⟩
  | indirect {target : Nat} {offset : Int32} :
      linkOffset anchor (alignUp position Format.wordSize) = .ok offset →
      LinksParent image anchor position (some (.indirect ⟨image, target, .context⟩))
        ⟨storedOffset (offset ||| 1), padding position Format.wordSize ++ zeros Format.wordSize,
          [⟨alignUp position Format.wordSize, target⟩]⟩

theorem linksParent_of_ofParent {reference : Option ParentReference}
    (given : ofParent image anchor position reference = .ok attachment) :
    LinksParent image anchor position reference attachment := by
  cases reference with
  | none =>
      cases given
      exact .none
  | some reference =>
      cases reference with
      | direct context =>
          obtain ⟨target, resolved, rest⟩ := bind_eq_ok.mp given
          obtain ⟨offset, linked, same⟩ := bind_eq_ok.mp rest
          obtain rfl := Symbol.resolve_eq_ok.mp resolved
          cases same
          exact .direct linked
      | indirect context =>
          obtain ⟨target, resolved, rest⟩ := bind_eq_ok.mp given
          obtain ⟨offset, linked, same⟩ := bind_eq_ok.mp rest
          obtain rfl := Symbol.resolve_eq_ok.mp resolved
          cases same
          exact .indirect linked

namespace LinksParent

variable {reference : Option ParentReference}
  (links : LinksParent image anchor position reference attachment)

include links

theorem relocates (base : UInt64) :
    Relocates base position attachment.bytes attachment.relocations
      (filledParent base position reference) := by
  cases links with
  | none => exact .plain ..
  | direct => exact .plain ..
  | indirect =>
      refine Relocates.cons_plain ?_
      rw [add_length_padding _ (by decide)]
      exact .pointer (dvd_alignUp ..) _

theorem targets : ∀ relocation ∈ attachment.relocations,
    ∃ parent ∈ reference, relocation.target = parent.context.offset := by
  cases links with
  | none => exact List.forall_mem_nil _
  | direct => exact List.forall_mem_nil _
  | indirect => simp [ParentReference.context]

theorem length_link : attachment.link.length = 4 := by
  cases links <;> exact length_storedOffset _

end LinksParent

end Attachment

/-! ## Contexts -/

theorem emitModule_eq_ok {size : Nat} {name : String} {emission : Emission}
    (emitted : emitModule size name = .ok emission) : ∃ offset,
      linkOffset (alignUp size Format.descriptorAlignment + Format.Context.name)
        (alignUp size Format.descriptorAlignment + Format.Context.moduleSize) = .ok offset ∧
      emission = ⟨padding size Format.descriptorAlignment ++ emittedFlags .module
        ++ Attachment.absent.link ++ storedOffset offset ++ (utf8Bytes name ++ [0]), []⟩ := by
  obtain ⟨stored, given, same⟩ := bind_eq_ok.mp emitted
  obtain ⟨offset, linked, rfl⟩ := Attachment.ofString_eq_ok.mp given
  exact ⟨offset, linked, (pure_eq_ok.mp same).symm⟩

theorem emitExtension_eq_ok {image : UInt32} {size : Nat} {parent : Symbol} {emission : Emission}
    (emitted : emitExtension image size parent = .ok emission) : ∃ target offset,
      parent = ⟨image, target, .context⟩ ∧
      linkOffset (alignUp size Format.descriptorAlignment + Format.Context.parent) target
        = .ok offset ∧
      emission = ⟨padding size Format.descriptorAlignment ++ emittedFlags .extension
        ++ storedOffset offset ++ Attachment.absent.link, []⟩ := by
  obtain ⟨stored, given, same⟩ := bind_eq_ok.mp emitted
  cases Attachment.linksParent_of_ofParent given with
  | @direct target offset linked =>
      exact ⟨target, offset, rfl, linked, (pure_eq_ok.mp same).symm⟩

/-! ## Field descriptors -/

/-- Where the names of a field descriptor at `position` start: behind the last record. -/
def NominalDefinition.pool (definition : NominalDefinition) (position : Nat) : Nat :=
  position + Format.FieldDescriptor.headerSize
    + definition.fields.length * definition.recordStride

/-- The parts of an emitted field descriptor. -/
structure EmitsFields (definition : NominalDefinition) (kind : FieldDescriptorKind)
    (superclassName : Option (List UInt8)) (position : Nat) (descriptor : List UInt8)
    (typeName superclass : Attachment) (fields : EmittedRecords) : Prop where
  type_eq : Attachment.ofEncodedName (position + Format.FieldDescriptor.typeName)
    (definition.pool position) definition.encodedName = .ok typeName
  superclass_eq : Attachment.ofEncodedName (position + Format.FieldDescriptor.superclass)
    (definition.pool position + typeName.bytes.length) superclassName = .ok superclass
  fields_eq : EmittedRecords.ofFields definition.recordStride
    (position + Format.FieldDescriptor.headerSize)
    (definition.pool position + typeName.bytes.length + superclass.bytes.length)
    definition.fields = .ok fields
  bytes_eq : descriptor = typeName.link ++ superclass.link ++ littleEndian 2 kind.raw.toNat
    ++ littleEndian 2 definition.recordSize.toNat ++ littleEndian 4 definition.fields.length
    ++ fields.records ++ typeName.bytes ++ superclass.bytes ++ fields.names

theorem NominalDefinition.emitFieldDescriptor_eq_ok {definition : NominalDefinition}
    {kind : FieldDescriptorKind} {superclassName : Option (List UInt8)} {position : Nat}
    {descriptor : List UInt8}
    (emitted : definition.emitFieldDescriptor kind superclassName position = .ok descriptor) :
    ∃ typeName superclass fields, EmitsFields definition kind superclassName position descriptor
      typeName superclass fields := by
  obtain ⟨typeName, first, rest⟩ := bind_eq_ok.mp emitted
  obtain ⟨superclass, second, rest⟩ := bind_eq_ok.mp rest
  obtain ⟨fields, third, same⟩ := bind_eq_ok.mp rest
  exact ⟨typeName, superclass, fields, first, second, third, (pure_eq_ok.mp same).symm⟩

/-- How the link to a field descriptor is emitted, with the descriptor at `position` or behind
    it. -/
inductive LinksFields (definition : NominalDefinition) (kind : FieldDescriptorKind)
    (superclassName : Option (List UInt8)) (anchor position : Nat) : Attachment → Prop where
  | absent : definition.hasFieldDescriptor = false →
      LinksFields definition kind superclassName anchor position .absent
  | present {descriptor : List UInt8} {offset : Int32} : definition.hasFieldDescriptor = true →
      definition.emitFieldDescriptor kind superclassName
        (alignUp position Format.descriptorAlignment) = .ok descriptor →
      linkOffset anchor (alignUp position Format.descriptorAlignment) = .ok offset →
      LinksFields definition kind superclassName anchor position
        ⟨storedOffset offset, padding position Format.descriptorAlignment ++ descriptor, []⟩

theorem NominalDefinition.linksFields_of_emitFields {definition : NominalDefinition}
    {kind : FieldDescriptorKind} {superclassName : Option (List UInt8)} {anchor position : Nat}
    {attachment : Attachment}
    (emitted : definition.emitFields kind superclassName anchor position = .ok attachment) :
    LinksFields definition kind superclassName anchor position attachment := by
  unfold emitFields at emitted
  split at emitted
  case isTrue present =>
      obtain ⟨descriptor, given, rest⟩ := bind_eq_ok.mp emitted
      obtain ⟨offset, linked, same⟩ := bind_eq_ok.mp rest
      cases same
      exact .present present given linked
  case isFalse none =>
      cases emitted
      exact .absent (Bool.not_eq_true _ ▸ none)

theorem LinksFields.length_link {definition : NominalDefinition} {kind : FieldDescriptorKind}
    {superclassName : Option (List UInt8)} {anchor position : Nat} {attachment : Attachment}
    (links : LinksFields definition kind superclassName anchor position attachment) :
    attachment.link.length = 4 := by
  cases links <;> exact length_storedOffset _

/-! ## Types -/

/-- The header of every type descriptor is as long as the format says. -/
theorem length_emittedTypeHeader {kind : ContextKind} {parent name fields : Attachment}
    (first : parent.link.length = 4) (second : name.link.length = 4)
    (third : fields.link.length = 4) :
    (emittedTypeHeader kind parent name fields).length = Format.Context.typeSize := by
  simp [emittedTypeHeader, emittedFlags, Attachment.absent, first, second, third,
    Format.Context.typeSize]

theorem emittedTypeHeader_nonempty (kind : ContextKind) (parent name fields : Attachment) :
    0 < (emittedTypeHeader kind parent name fields).length := by
  simp only [emittedTypeHeader, emittedFlags, List.length_append, length_littleEndian]
  omega

namespace StructDefinition

/-- Where the descriptor of a struct and the parts that it links to end. -/
def bodyEnd (descriptor : Nat) (parent name fields : Attachment) : Nat :=
  descriptor + Format.StructDescriptor.size + parent.bytes.length + name.bytes.length
    + fields.bytes.length

/-- The parts of an emitted struct. -/
structure Emits (definition : StructDefinition) (image : UInt32) (size : Nat) (type : EmittedType)
    (parent name fields : Attachment) : Prop where
  offsets_eq : definition.checkOffsets = .ok ()
  descriptor_eq : type.descriptor = alignUp size Format.descriptorAlignment
  parent_links : Attachment.LinksParent image (type.descriptor + Format.Context.parent)
    (type.descriptor + Format.StructDescriptor.size) definition.nominal.parent parent
  name_eq : Attachment.ofString (type.descriptor + Format.Context.name)
    (type.descriptor + Format.StructDescriptor.size + parent.bytes.length)
    (utf8Bytes definition.nominal.name) = .ok name
  fields_links : LinksFields definition.nominal .structType none
    (type.descriptor + Format.Context.fields)
    (type.descriptor + Format.StructDescriptor.size + parent.bytes.length + name.bytes.length)
    fields
  metadata_eq : type.metadata = alignUp (bodyEnd type.descriptor parent name fields) Format.wordSize
  bytes_eq : type.emission.bytes = padding size Format.descriptorAlignment
    ++ emittedTypeHeader .structType parent name fields ++ definition.storedCounts
    ++ parent.bytes ++ name.bytes ++ fields.bytes
    ++ padding (bodyEnd type.descriptor parent name fields) Format.wordSize
    ++ definition.storedMetadata
  relocations_eq : type.emission.relocations =
    parent.relocations ++ [⟨type.metadata + Format.StructMetadata.descriptor, type.descriptor⟩]

theorem emit_eq_ok {definition : StructDefinition} {image : UInt32} {size : Nat}
    {type : EmittedType} (emitted : definition.emit image size = .ok type) :
    ∃ parent name fields, definition.Emits image size type parent name fields := by
  obtain ⟨_, offsets, rest⟩ := bind_eq_ok.mp emitted
  obtain ⟨parent, first, rest⟩ := bind_eq_ok.mp rest
  obtain ⟨name, second, rest⟩ := bind_eq_ok.mp rest
  obtain ⟨fields, third, same⟩ := bind_eq_ok.mp rest
  cases same
  exact ⟨parent, name, fields, offsets, rfl, Attachment.linksParent_of_ofParent first, second,
    NominalDefinition.linksFields_of_emitFields third, rfl, rfl, rfl⟩

/-- The metadata in an image at `base`. -/
def filledMetadata (definition : StructDefinition) (base : UInt64) (descriptor : Nat) :
    List UInt8 :=
  definition.nominal.storedKind Format.nonHeapKind ++ storedPointer base descriptor
    ++ definition.storedOffsets ++ padding definition.storedOffsets.length Format.wordSize

theorem storedMetadata_relocates (definition : StructDefinition) (base : UInt64)
    {metadata : Nat} (aligned : Format.wordSize ∣ metadata) (descriptor : Nat) :
    Relocates base metadata definition.storedMetadata
      [⟨metadata + Format.StructMetadata.descriptor, descriptor⟩]
      (definition.filledMetadata base descriptor) := by
  have pointer : Relocates base (metadata + Format.StructMetadata.descriptor) _ _ _ :=
    .pointer (Nat.dvd_add aligned (by decide)) descriptor
  have kind : (definition.nominal.storedKind Format.nonHeapKind).length
      = Format.StructMetadata.descriptor := length_littleEndian ..
  have front := (pointer.of_eq (by rw [kind])).cons_plain
  exact (front.append_plain _).append_plain _

namespace Emits

variable {definition : StructDefinition} {image : UInt32} {size : Nat} {type : EmittedType}
  {parent name fields : Attachment}
  (emits : definition.Emits image size type parent name fields)

include emits

theorem length_front : size + (padding size Format.descriptorAlignment
    ++ emittedTypeHeader .structType parent name fields ++ definition.storedCounts).length
      = type.descriptor + Format.StructDescriptor.size := by
  have header : (emittedTypeHeader .structType parent name fields).length = _ :=
    length_emittedTypeHeader emits.parent_links.length_link
      (Attachment.length_link_of_ofString emits.name_eq) emits.fields_links.length_link
  have placed : size + (padding size Format.descriptorAlignment).length = _ :=
    add_length_padding size (by decide)
  rw [emits.descriptor_eq, ← placed]
  simp only [List.length_append, header, storedCounts, length_littleEndian,
    Format.Context.typeSize, Format.StructDescriptor.size]
  omega

/-- Behind the descriptor and the parts that it links to stands the metadata. -/
theorem length_body : size + (padding size Format.descriptorAlignment
    ++ emittedTypeHeader .structType parent name fields ++ definition.storedCounts
    ++ parent.bytes ++ name.bytes ++ fields.bytes
    ++ padding (bodyEnd type.descriptor parent name fields) Format.wordSize).length
      = type.metadata := by
  have placed := add_length_padding (bodyEnd type.descriptor parent name fields)
    (by decide : 0 < Format.wordSize)
  have start := emits.length_front
  rw [emits.metadata_eq, ← placed]
  simp only [List.length_append, bodyEnd] at start ⊢
  omega

theorem length_bytes :
    size + type.emission.bytes.length = type.metadata + definition.storedMetadata.length := by
  rw [emits.bytes_eq, List.length_append, ← Nat.add_assoc, emits.length_body]

/-- The records follow each other, behind the image so far and inside the new bytes. -/
theorem ordered : size ≤ type.descriptor ∧
    type.descriptor + Format.StructDescriptor.size ≤ type.metadata ∧
      type.metadata + 2 * Format.wordSize ≤ size + type.emission.bytes.length := by
  have first := le_alignUp size (by decide : 0 < Format.descriptorAlignment)
  have second := le_alignUp (bodyEnd type.descriptor parent name fields)
    (by decide : 0 < Format.wordSize)
  have third := emits.length_bytes
  rw [← emits.descriptor_eq] at first
  rw [← emits.metadata_eq, bodyEnd] at second
  simp only [storedMetadata, NominalDefinition.storedKind, List.length_append,
    length_littleEndian, length_zeros] at third
  simp only [Format.wordSize] at third ⊢
  omega

theorem relocates (base : UInt64) :
    Relocates base size type.emission.bytes type.emission.relocations
      (padding size Format.descriptorAlignment
        ++ emittedTypeHeader .structType parent name fields ++ definition.storedCounts
        ++ Attachment.filledParent base (type.descriptor + Format.StructDescriptor.size)
          definition.nominal.parent
        ++ name.bytes ++ fields.bytes
        ++ padding (bodyEnd type.descriptor parent name fields) Format.wordSize
        ++ definition.filledMetadata base type.descriptor) := by
  have slot := emits.parent_links.relocates base
  have front := (slot.of_eq emits.length_front.symm).cons_plain
  have behind := ((front.append_plain name.bytes).append_plain fields.bytes).append_plain
    (padding (bodyEnd type.descriptor parent name fields) Format.wordSize)
  have aligned : Format.wordSize ∣ type.metadata := emits.metadata_eq ▸ dvd_alignUp ..
  have metadata := definition.storedMetadata_relocates base aligned type.descriptor
  rw [emits.bytes_eq, emits.relocations_eq]
  exact behind.append (metadata.of_eq emits.length_body.symm)

end Emits

end StructDefinition

namespace ClassDefinition

/-- Where the descriptor of a class and the parts that it links to end. -/
def bodyEnd (descriptor : Nat) (parent name superclassType fields : Attachment) : Nat :=
  descriptor + Format.ClassDescriptor.size + parent.bytes.length + name.bytes.length
    + superclassType.bytes.length + fields.bytes.length

/-- The parts of an emitted class. -/
structure Emits (definition : ClassDefinition) (image : UInt32) (size : Nat) (type : EmittedType)
    (superclass : Option Nat) (parent name superclassType fields : Attachment) : Prop where
  superclass_eq : definition.superclassPosition image = .ok superclass
  descriptor_eq : type.descriptor = alignUp size Format.descriptorAlignment
  parent_links : Attachment.LinksParent image (type.descriptor + Format.Context.parent)
    (type.descriptor + Format.ClassDescriptor.size) definition.nominal.parent parent
  name_eq : Attachment.ofString (type.descriptor + Format.Context.name)
    (type.descriptor + Format.ClassDescriptor.size + parent.bytes.length)
    (utf8Bytes definition.nominal.name) = .ok name
  superclassType_eq : Attachment.ofEncodedName
    (type.descriptor + Format.ClassDescriptor.superclassType)
    (type.descriptor + Format.ClassDescriptor.size + parent.bytes.length + name.bytes.length)
    (definition.superclass.map Prod.snd) = .ok superclassType
  fields_links : LinksFields definition.nominal .classType (definition.superclass.map Prod.snd)
    (type.descriptor + Format.Context.fields)
    (type.descriptor + Format.ClassDescriptor.size + parent.bytes.length + name.bytes.length
      + superclassType.bytes.length) fields
  metadata_eq : type.metadata =
    alignUp (bodyEnd type.descriptor parent name superclassType fields) Format.wordSize
      + negativeSize
  bytes_eq : type.emission.bytes = padding size Format.descriptorAlignment
    ++ emittedTypeHeader .classType parent name fields ++ superclassType.link
    ++ definition.storedCounts ++ parent.bytes ++ name.bytes ++ superclassType.bytes
    ++ fields.bytes
    ++ padding (bodyEnd type.descriptor parent name superclassType fields) Format.wordSize
    ++ definition.storedMetadata
  relocations_eq : type.emission.relocations =
    parent.relocations ++ definition.relocations type.metadata type.descriptor superclass

theorem emit_eq_ok {definition : ClassDefinition} {image : UInt32} {size : Nat}
    {type : EmittedType} (emitted : definition.emit image size = .ok type) :
    ∃ superclass parent name superclassType fields,
      definition.Emits image size type superclass parent name superclassType fields := by
  obtain ⟨superclass, resolved, rest⟩ := bind_eq_ok.mp emitted
  obtain ⟨parent, first, rest⟩ := bind_eq_ok.mp rest
  obtain ⟨name, second, rest⟩ := bind_eq_ok.mp rest
  obtain ⟨superclassType, third, rest⟩ := bind_eq_ok.mp rest
  obtain ⟨fields, fourth, same⟩ := bind_eq_ok.mp rest
  cases same
  exact ⟨superclass, parent, name, superclassType, fields, resolved, rfl,
    Attachment.linksParent_of_ofParent first, second, third,
    NominalDefinition.linksFields_of_emitFields fourth, rfl, rfl, rfl⟩

/-- A superclass is given by a symbol of class metadata of the image. -/
theorem superclassPosition_eq_ok {definition : ClassDefinition} {image : UInt32}
    {superclass : Option Nat} (given : definition.superclassPosition image = .ok superclass) :
    definition.superclass.map Prod.fst = superclass.map (⟨image, ·, .classMetadata⟩) := by
  unfold superclassPosition at given
  split at given
  case h_1 none =>
      cases given
      rw [none]
      rfl
  case h_2 symbol name found =>
      rw [found]
      cases resolved : (liftM (symbol.resolve image .classMetadata) : Except BuildError Nat) with
      | ok offset =>
          rw [resolved] at given
          cases given
          rw [Symbol.resolve_eq_ok] at resolved
          simp [resolved]
      | error error =>
          rw [resolved] at given
          cases given

/-- What the metadata points to as its descriptor. -/
def linkedDescriptor (definition : ClassDefinition) (descriptor : Nat) : Option Nat :=
  if definition.isLinked then some descriptor else none

/-- The metadata in an image at `base`, with the part before its address point. -/
def filledMetadata (definition : ClassDefinition) (base : UInt64) (descriptor : Nat)
    (superclass : Option Nat) : List UInt8 :=
  zeros negativeSize ++ definition.nominal.storedKind 0 ++ storedPointer? base superclass
    ++ zeros 8 ++ littleEndian 4 definition.instanceSize.toNat
    ++ littleEndian 2 (Format.wordSize - 1) ++ zeros 2
    ++ littleEndian 4 (negativeSize + Format.ClassMetadata.size) ++ littleEndian 4 negativeSize
    ++ storedPointer? base (definition.linkedDescriptor descriptor) ++ zeros Format.wordSize

theorem relocations_eq_map (definition : ClassDefinition) (metadata descriptor : Nat)
    (superclass : Option Nat) :
    definition.relocations metadata descriptor superclass =
      superclass.toList.map (⟨metadata + Format.ClassMetadata.superclass, ·⟩)
        ++ (definition.linkedDescriptor descriptor).toList.map
          (⟨metadata + Format.ClassMetadata.descriptor, ·⟩) := by
  unfold relocations linkedDescriptor
  split <;> rfl

theorem storedMetadata_relocates (definition : ClassDefinition) (base : UInt64) {start : Nat}
    (aligned : Format.wordSize ∣ start) (descriptor : Nat) (superclass : Option Nat) :
    Relocates base start definition.storedMetadata
      (definition.relocations (start + negativeSize) descriptor superclass)
      (definition.filledMetadata base descriptor superclass) := by
  rw [relocations_eq_map]
  have point : Format.wordSize ∣ start + negativeSize := Nat.dvd_add aligned (by decide)
  have first : Relocates base (start + negativeSize + Format.ClassMetadata.superclass) _ _ _ :=
    .pointer? (Nat.dvd_add point (by decide)) superclass
  have second : Relocates base (start + negativeSize + Format.ClassMetadata.descriptor) _ _ _ :=
    .pointer? (Nat.dvd_add point (by decide)) (definition.linkedDescriptor descriptor)
  have header : (zeros negativeSize ++ definition.nominal.storedKind 0).length
      = negativeSize + Format.ClassMetadata.superclass := by
    simp [NominalDefinition.storedKind, Format.ClassMetadata.superclass]
  have front := (first.of_eq (by rw [header, Nat.add_assoc])).cons_plain
  have behind := ((((((front.append_plain (zeros 8)).append_plain
    (littleEndian 4 definition.instanceSize.toNat)).append_plain
    (littleEndian 2 (Format.wordSize - 1))).append_plain (zeros 2)).append_plain
    (littleEndian 4 (negativeSize + Format.ClassMetadata.size))).append_plain
    (littleEndian 4 negativeSize))
  refine (behind.append (second.of_eq ?_)).append_plain _
  have pointers : Format.ClassMetadata.superclass = 8 ∧ Format.ClassMetadata.descriptor = 40 ∧
      Format.wordSize = 8 := by decide
  simp only [List.length_append, length_zeros, length_littleEndian] at header ⊢
  omega

namespace Emits

variable {definition : ClassDefinition} {image : UInt32} {size : Nat} {type : EmittedType}
  {superclass : Option Nat} {parent name superclassType fields : Attachment}
  (emits : definition.Emits image size type superclass parent name superclassType fields)

include emits

theorem length_front : size + (padding size Format.descriptorAlignment
    ++ emittedTypeHeader .classType parent name fields ++ superclassType.link
    ++ definition.storedCounts).length = type.descriptor + Format.ClassDescriptor.size := by
  have header : (emittedTypeHeader .classType parent name fields).length = _ :=
    length_emittedTypeHeader emits.parent_links.length_link
      (Attachment.length_link_of_ofString emits.name_eq) emits.fields_links.length_link
  have link := Attachment.length_link_of_ofEncodedName emits.superclassType_eq
  have placed : size + (padding size Format.descriptorAlignment).length = _ :=
    add_length_padding size (by decide)
  rw [emits.descriptor_eq, ← placed]
  simp only [List.length_append, header, link, storedCounts, length_littleEndian, length_zeros,
    Format.Context.typeSize, Format.ClassDescriptor.size]
  omega

/-- Behind the descriptor and the parts that it links to stands the metadata, up to its address
    point. -/
theorem length_body : size + (padding size Format.descriptorAlignment
    ++ emittedTypeHeader .classType parent name fields ++ superclassType.link
    ++ definition.storedCounts ++ parent.bytes ++ name.bytes ++ superclassType.bytes
    ++ fields.bytes
    ++ padding (bodyEnd type.descriptor parent name superclassType fields) Format.wordSize).length
      + negativeSize = type.metadata := by
  have placed := add_length_padding (bodyEnd type.descriptor parent name superclassType fields)
    (by decide : 0 < Format.wordSize)
  have start := emits.length_front
  rw [emits.metadata_eq, ← placed]
  simp only [List.length_append, bodyEnd] at start ⊢
  omega

theorem length_bytes : size + type.emission.bytes.length + negativeSize
    = type.metadata + definition.storedMetadata.length := by
  have start := emits.length_body
  rw [emits.bytes_eq, List.length_append, ← start]
  omega

/-- The records follow each other, behind the image so far and inside the new bytes. -/
theorem ordered : size ≤ type.descriptor ∧
    type.descriptor + Format.ClassDescriptor.size ≤ type.metadata ∧
      type.metadata + Format.ClassMetadata.descriptor < size + type.emission.bytes.length := by
  have first := le_alignUp size (by decide : 0 < Format.descriptorAlignment)
  have second := le_alignUp (bodyEnd type.descriptor parent name superclassType fields)
    (by decide : 0 < Format.wordSize)
  have third := emits.length_bytes
  have pointer : Format.ClassMetadata.descriptor = 40 := rfl
  have placed := emits.metadata_eq
  have span : bodyEnd type.descriptor parent name superclassType fields
      = type.descriptor + Format.ClassDescriptor.size + parent.bytes.length + name.bytes.length
        + superclassType.bytes.length + fields.bytes.length := rfl
  rw [← emits.descriptor_eq] at first
  simp only [storedMetadata, NominalDefinition.storedKind, List.length_append,
    length_littleEndian, length_zeros, Format.wordSize] at third
  omega

theorem relocates (base : UInt64) :
    Relocates base size type.emission.bytes type.emission.relocations
      (padding size Format.descriptorAlignment
        ++ emittedTypeHeader .classType parent name fields ++ superclassType.link
        ++ definition.storedCounts
        ++ Attachment.filledParent base (type.descriptor + Format.ClassDescriptor.size)
          definition.nominal.parent
        ++ name.bytes ++ superclassType.bytes ++ fields.bytes
        ++ padding (bodyEnd type.descriptor parent name superclassType fields) Format.wordSize
        ++ definition.filledMetadata base type.descriptor superclass) := by
  have slot := emits.parent_links.relocates base
  have front := (slot.of_eq emits.length_front.symm).cons_plain
  have behind := (((front.append_plain name.bytes).append_plain superclassType.bytes).append_plain
    fields.bytes).append_plain
    (padding (bodyEnd type.descriptor parent name superclassType fields) Format.wordSize)
  have metadata := definition.storedMetadata_relocates base
    (dvd_alignUp (bodyEnd type.descriptor parent name superclassType fields) Format.wordSize)
    type.descriptor superclass
  have start := emits.length_body
  rw [← emits.metadata_eq] at metadata
  rw [emits.metadata_eq] at start
  rw [emits.bytes_eq, emits.relocations_eq]
  exact behind.append (metadata.of_eq (Nat.add_right_cancel start).symm)

end Emits

end ClassDefinition

end TypeReflection
