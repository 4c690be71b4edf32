import TypeReflection.Proofs.EncodedName.RoundTrip
import TypeReflection.Proofs.Reflection.Ancestry
import TypeReflection.Proofs.Reflection.Stored

/-! # Copies in class records

The descriptor of a class, its field descriptor and its metadata repeat each other: the name of the
superclass is stored twice, and the size of the metadata follows from the counts in the descriptor.
In a finished image all of them say what the definition says.
-/

namespace TypeReflection

/-! ## Names -/

/-- What is read of an encoded name, if one was given: the name up to where it ends. -/
inductive EncodedName.ReadsAs : Option (List UInt8) → Option EncodedName → Prop where
  | absent : ReadsAs none none
  | present {bytes : List UInt8} {stop : Nat} (ends : EndsAt bytes stop) :
      ReadsAs (some bytes) (some ⟨bytes.take stop⟩)

theorem EncodedName.readsAs_cut {given : Option (List UInt8)}
    (whole : ∀ bytes ∈ given, isWellFormed bytes = true) :
    ReadsAs given (given.map fun bytes => ⟨cut bytes⟩) := by
  cases given with
  | none => exact .absent
  | some bytes =>
      obtain ⟨stop, ends, same⟩ := cutFrom_eq_take (whole bytes rfl)
      rw [Option.map_some, cut, same]
      exact .present ends

/-- Names that are emitted are well formed. -/
theorem Attachment.isWellFormed_of_ofEncodedName {anchor position : Nat}
    {name : Option (List UInt8)} {attachment : Attachment}
    (given : ofEncodedName anchor position name = .ok attachment) :
    ∀ bytes ∈ name, EncodedName.isWellFormed bytes = true := by
  rcases ofEncodedName_eq_ok.mp given with ⟨rfl, -⟩ | ⟨bytes, rfl, whole, -⟩
  · exact nofun
  · rintro _ ⟨⟩
    exact whole

theorem LinksFields.isWellFormed {definition : NominalDefinition} {kind : FieldDescriptorKind}
    {superclassName : Option (List UInt8)} {anchor position : Nat} {attachment : Attachment}
    (links : LinksFields definition kind superclassName anchor position attachment)
    (present : definition.hasFieldDescriptor = true) :
    ∀ bytes ∈ definition.encodedName, EncodedName.isWellFormed bytes = true := by
  cases links with
  | absent none => cases present.symm.trans none
  | present _ emitted =>
      obtain ⟨_, _, _, parts⟩ := NominalDefinition.emitFieldDescriptor_eq_ok emitted
      exact Attachment.isWellFormed_of_ofEncodedName parts.type_eq

/-! ## Records -/

/-- The field descriptor says of the class what its definition says. -/
structure FieldDescriptor.Copies (fields : FieldDescriptor) (memory : Memory)
    (definition : ClassDefinition) (superclass : Option EncodedName) : Prop where
  superclass_eq : fields.superclass memory = .ok superclass
  typeName_eq : ∃ name, EncodedName.ReadsAs definition.nominal.encodedName name ∧
    fields.typeName memory = .ok name
  kind_eq : fields.kind memory = .ok .classType
  fieldCount_eq : definition.nominal.fields.length < UInt32.size →
    fields.fieldCount memory = .ok definition.nominal.fields.length

/-- The metadata says of the class what its definition and its descriptor say. -/
structure ClassType.Copies (type : ClassType) (memory : Memory) (definition : ClassDefinition)
    (descriptor : ClassDescriptor) : Prop where
  descriptor_eq : type.descriptor = if definition.isLinked then some descriptor else none
  fields_eq : definition.isLinked = true →
    type.checkFields memory = descriptor.type.checkFields memory
  isNative_eq : type.isNative = true
  instanceSize_eq : type.instanceSize memory = .ok definition.instanceSize
  sizes_eq : ∃ negative positive size point,
    descriptor.negativeWords memory = .ok negative ∧
    descriptor.positiveWords memory = .ok positive ∧
    type.classSize memory = .ok size ∧ type.classAddressPoint memory = .ok point ∧
    size.toNat = 8 * (negative.toNat + positive.toNat) ∧ point.toNat = 8 * negative.toNat

/-- The records of a class that the image gives for its symbols repeat its definition. -/
structure Image.ClassAgrees (image : Image) (definition : ClassDefinition) (metadata place : Nat)
    (descriptor : ClassDescriptor) (superclass : Option EncodedName) : Prop where
  /-- The descriptor is behind the descriptor symbol. -/
  opens : ∃ context, image.context ⟨image.id, place, .context⟩ = .ok context ∧
    ClassDescriptor.check context image.memory = .ok descriptor
  superclass_read : EncodedName.ReadsAs (definition.superclass.map Prod.snd) superclass
  superclassType_eq : descriptor.superclassType image.memory = .ok superclass
  fields_absent : definition.nominal.hasFieldDescriptor = false →
    descriptor.type.checkFields image.memory = .ok none
  fields_present : definition.nominal.hasFieldDescriptor = true →
    FieldDescriptor.isRecordSize definition.nominal.recordSize = true →
    ∃ fields, descriptor.type.checkFields image.memory = .ok (some fields) ∧
      fields.Copies image.memory definition superclass
  /-- The metadata is behind the metadata symbol, if its kind word is that of a class. -/
  metadata_agrees : definition.nominal.shape? .classType ≠ none →
    ∃ type, image.GivesClass ⟨image.id, metadata, .classMetadata⟩ type ∧
      type.Copies image.memory definition descriptor

section Agreement

variable {memory : Memory} {base : Address} {metadata place : Nat} {definition : ClassDefinition}

theorem FieldDescriptor.Shows.copies {fields : FieldDescriptor}
    (shows : fields.Shows memory definition.nominal .classType (definition.superclass.map Prod.snd))
    (whole : ∀ bytes ∈ definition.nominal.encodedName, EncodedName.isWellFormed bytes = true) :
    fields.Copies memory definition
      ((definition.superclass.map Prod.snd).map fun bytes => ⟨EncodedName.cut bytes⟩) where
  superclass_eq := shows.superclass_eq
  typeName_eq := ⟨_, EncodedName.readsAs_cut whole, shows.typeName_eq⟩
  kind_eq := shows.kind_eq
  fieldCount_eq small := by rw [shows.fieldCount_eq, Nat.mod_eq_of_lt small]

/-- The numbers in both records of a class are read where they were put. -/
theorem ClassDefinition.StandsNumbers.copies
    (stands : definition.StandsNumbers memory base metadata place)
    (descriptor : 4 ∣ base.bits.toNat + place) (header : 4 ∣ base.bits.toNat + metadata) :
    (definition.view base metadata place).Copies memory definition ⟨⟨⟨base.past place⟩⟩⟩ := by
  have placed : Format.ClassDescriptor.negativeWords = 24 ∧
      Format.ClassDescriptor.positiveWords = 28 ∧ Format.ClassMetadata.instanceSize = 24 ∧
      Format.ClassMetadata.classSize = 32 ∧ Format.ClassMetadata.classAddressPoint = 36 := by
    decide
  constructor
  case descriptor_eq => rfl
  case fields_eq =>
      intro linked
      rw [view, linked]
      rfl
  case isNative_eq => rfl
  case instanceSize_eq =>
      have read := stands.instanceSize.recordU32 (by omega)
      rwa [UInt32.ofNat_toNat] at read
  case sizes_eq =>
      refine ⟨_, _, _, _, stands.negativeWords.recordU32 (by omega),
        stands.positiveWords.recordU32 (by omega), stands.classSize.recordU32 (by omega),
        stands.classAddressPoint.recordU32 (by omega), ?_, ?_⟩
      · decide
      · decide

end Agreement

/-- In a finished image all records of a class agree with its definition, and so with each other. -/
theorem Run.classes_agree {image : UInt32} {entries : List Entry} {builder : Builder}
    (run : Run image entries builder) (base : Address)
    (aligned : base.isAligned Format.imageAlignment = true)
    (fits : base.bits.toNat + builder.bytes.length ≤ UInt64.size) :
    ∃ finished, builder.finish? base = some finished ∧ finished.id = image ∧
      finished.base = base ∧
      ∀ definition metadata place, .classType definition metadata place ∈ entries →
        ∃ descriptor superclass,
          finished.ClassAgrees definition metadata place descriptor superclass := by
  obtain ⟨finished, found, _⟩ := run.finish? fits
  have standing := run.stands_finished fits found
  obtain ⟨rfl, rfl, presents⟩ := run.presents aligned fits found
  refine ⟨finished, found, rfl, rfl, fun definition metadata place member => ?_⟩
  have word : 16 ∣ finished.base.bits.toNat := Address.isAligned_iff.mp aligned
  have shown := presents.entries_show _ member
  obtain ⟨size, emission, final, stands⟩ := standing _ member
  obtain ⟨type, above, parent, name, superclassType, fields, rfl, rfl, parts, -, numbers⟩ :=
    stands.classParts
  have four : 4 ∣ type.descriptor := parts.descriptor_eq ▸ dvd_alignUp ..
  have eight : 8 ∣ type.metadata := parts.metadata_eq ▸ Nat.dvd_add (dvd_alignUp ..) (by decide)
  refine ⟨⟨⟨⟨finished.base.past type.descriptor⟩⟩⟩,
    (definition.superclass.map Prod.snd).map fun bytes => ⟨EncodedName.cut bytes⟩, ?_⟩
  constructor
  case opens =>
      refine ⟨_, presents.context_eq run member, ?_⟩
      rw [ClassDescriptor.check]
      exact congrArg _ (TypeContext.check_eq_ok shown.context_shows.kind_eq)
  case superclass_read =>
      exact EncodedName.readsAs_cut
        (Attachment.isWellFormed_of_ofEncodedName parts.superclassType_eq)
  case superclassType_eq =>
      rw [shown.classType.superclassType_eq, Option.map_map]
      rfl
  case fields_absent =>
      intro without
      rcases shown.classType.type_shows.fields_eq with ⟨_, none⟩ | ⟨_, present, _⟩
      · exact none
      · cases present.symm.trans without
  case fields_present =>
      intro present sized
      rcases shown.classType.type_shows.fields_eq with ⟨without, _⟩ | ⟨fields, _, shows, given⟩
      · cases present.symm.trans without
      · rw [shows.check_eq, if_pos sized] at given
        exact ⟨fields, given, shows.copies (parts.fields_links.isWellFormed present)⟩
  case metadata_agrees =>
      intro shape
      exact ⟨_, presents.gives_class run member shape, numbers.copies (by omega) (by omega)⟩

/-- A class and a subclass of it, whose name for the superclass goes on behind its end. -/
def litter : List Declaration :=
  [ .classType "Cat" [],
    .classType "Kitten"
      [ .nominal (.encodedName [0x4B, 1, 0, 0, 0, 0]), .instanceSize 40,
        .superclass ⟨0, 80, .classMetadata⟩ [0x43, 0, 0x44],
        .nominal (.field ⟨"age", some [0x53], ⟨2⟩⟩) ] ]

/-- The definition of the subclass. -/
def kitten : ClassDefinition where
  nominal :=
    { NominalDefinition.named "Kitten" with
      encodedName := some [0x4B, 1, 0, 0, 0, 0], fields := [⟨"age", some [0x53], ⟨2⟩⟩] }
  superclass := some (⟨0, 80, .classMetadata⟩, [0x43, 0, 0x44])
  instanceSize := 40
  isLinked := true

/-- The builder after the program, and the symbols issued. -/
def litterResult : Builder × List Issued :=
  match (Builder.empty 0).declareAll litter with
  | .ok result => result
  | .error _ => (.empty 0, [])

def litterEntries : List Entry :=
  [.classType (.named "Cat") 80 0, .classType kitten 256 136]

theorem run_litter : Run 0 litterEntries.reverse litterResult.1 := by
  have declared : (Builder.empty 0).declareAll litter = .ok litterResult :=
    ok_of_toOption (by decide +kernel)
  have entries : Entry.all? litter litterResult.2 = some litterEntries := by decide +kernel
  have own : usesOwnSymbols 0 [] litterEntries = true := by decide +kernel
  exact .of_program declared entries own

/-- The subclass shows its superclass and its size in each of its records. -/
theorem Run.classes_agree_litter : Run 0 litterEntries.reverse litterResult.1 ∧
    (⟨0x10000, by decide⟩ : Address).isAligned Format.imageAlignment = true ∧
      0x10000 + litterResult.1.bytes.length ≤ UInt64.size ∧
      ∃ (finished : Image) (descriptor : ClassDescriptor) (superclass : Option EncodedName)
        (fields : FieldDescriptor) (type : ClassType),
        litterResult.1.finish? ⟨0x10000, by decide⟩ = some finished ∧
        descriptor.superclassType finished.memory = .ok superclass ∧
        EncodedName.ReadsAs (some [0x43, 0, 0x44]) superclass ∧
        descriptor.type.checkFields finished.memory = .ok (some fields) ∧
        fields.superclass finished.memory = .ok superclass ∧
        fields.fieldCount finished.memory = .ok 1 ∧
        type.descriptor = some descriptor ∧ type.instanceSize finished.memory = .ok 40 := by
  have aligned : (⟨0x10000, by decide⟩ : Address).isAligned Format.imageAlignment = true := by
    decide
  have fits : 0x10000 + litterResult.1.bytes.length ≤ UInt64.size := by decide +kernel
  obtain ⟨finished, found, _, _, agree⟩ :=
    run_litter.classes_agree ⟨0x10000, by decide⟩ aligned fits
  have member : .classType kitten 256 136 ∈ litterEntries.reverse := by decide +kernel
  obtain ⟨descriptor, superclass, agrees⟩ := agree _ _ _ member
  obtain ⟨fields, given, copies⟩ := agrees.fields_present rfl (by decide)
  obtain ⟨type, _, header⟩ := agrees.metadata_agrees (by decide +kernel)
  exact ⟨run_litter, aligned, fits, finished, descriptor, superclass, fields, type, found,
    agrees.superclassType_eq, agrees.superclass_read, given, copies.superclass_eq,
    copies.fieldCount_eq (by decide), header.descriptor_eq, header.instanceSize_eq⟩

end TypeReflection
