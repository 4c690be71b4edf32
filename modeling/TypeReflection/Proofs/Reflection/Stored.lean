import TypeReflection.Proofs.Reflection.Entry

/-! # Emissions in finished images

What was emitted for an entry stands in the finished image, its pointers filled in. How pointers are
filled in determines the bytes, so that each emitter's own account of them is the one that holds.
-/

namespace TypeReflection

/-! ## Filled in bytes -/

theorem getElem?_wordAt {bytes : List UInt8} {index offset : Nat}
    (inside : offset < Format.wordSize) :
    (wordAt bytes index)[offset]? = bytes[index + offset]? := by
  rw [wordAt, List.getElem?_take_of_lt inside, List.getElem?_drop]

/-- There is one way to fill in the pointers. -/
theorem Relocates.unique {base : UInt64} {start : Nat} {bytes final final' : List UInt8}
    {relocations : List Relocation} (relocates : Relocates base start bytes relocations final)
    (again : Relocates base start bytes relocations final') : final = final' := by
  refine List.ext_getElem? fun index => ?_
  by_cases covered : ∃ relocation ∈ relocations, relocation.Covers (start + index)
  · obtain ⟨relocation, member, behind, before⟩ := covered
    have placed := (relocates.inside relocation member).1
    have same := (relocates.words relocation member).2.trans
      (again.words relocation member).2.symm
    obtain ⟨offset, rfl⟩ := Nat.exists_eq_add_of_le
      (show relocation.position - start ≤ index by omega)
    have inside : offset < Format.wordSize := by omega
    rw [← getElem?_wordAt inside, ← getElem?_wordAt inside, same]
  · have free : ∀ relocation ∈ relocations, ¬ relocation.Covers (start + index) :=
      fun relocation member covers => covered ⟨relocation, member, covers⟩
    rw [relocates.outside free, again.outside free]

/-! ## Numbers of classes -/

/-- The numbers in the descriptor and in the metadata of a class stand where they were put. -/
structure ClassDefinition.StandsNumbers (definition : ClassDefinition) (memory : Memory)
    (base : Address) (metadata place : Nat) : Prop where
  negativeWords : memory.Holds
    (base.bits.toNat + (place + Format.ClassDescriptor.negativeWords))
    (littleEndian 4 Format.ClassMetadata.negativeWords)
  positiveWords : memory.Holds
    (base.bits.toNat + (place + Format.ClassDescriptor.positiveWords))
    (littleEndian 4 (Format.ClassMetadata.size / Format.wordSize))
  instanceSize : memory.Holds
    (base.bits.toNat + (metadata + Format.ClassMetadata.instanceSize))
    (littleEndian 4 definition.instanceSize.toNat)
  classSize : memory.Holds
    (base.bits.toNat + (metadata + Format.ClassMetadata.classSize))
    (littleEndian 4 (negativeSize + Format.ClassMetadata.size))
  classAddressPoint : memory.Holds
    (base.bits.toNat + (metadata + Format.ClassMetadata.classAddressPoint))
    (littleEndian 4 negativeSize)

theorem ClassDefinition.Emits.standsNumbers {definition : ClassDefinition} {memory : Memory}
    {base : Address} {image : UInt32} {size : Nat} {type : EmittedType} {superclass : Option Nat}
    {parent name superclassType fields : Attachment}
    (emits : definition.Emits image size type superclass parent name superclassType fields)
    (holds : memory.Holds (base.bits.toNat + size)
      (padding size Format.descriptorAlignment
        ++ emittedTypeHeader .classType parent name fields ++ superclassType.link
        ++ definition.storedCounts
        ++ Attachment.filledParent base.bits (type.descriptor + Format.ClassDescriptor.size)
          definition.nominal.parent
        ++ name.bytes ++ superclassType.bytes ++ fields.bytes
        ++ padding (bodyEnd type.descriptor parent name superclassType fields) Format.wordSize
        ++ definition.filledMetadata base.bits type.descriptor superclass)) :
    definition.StandsNumbers memory base type.metadata type.descriptor := by
  have front := emits.length_front
  have body := emits.length_body
  have slot := (emits.parent_links.relocates base.bits).length
  have kind : (definition.nominal.storedKind 0).length = 8 := length_littleEndian ..
  have placed : Format.ClassDescriptor.size = 44 ∧ Format.ClassDescriptor.negativeWords = 24 ∧
      Format.ClassDescriptor.positiveWords = 28 ∧ Format.ClassMetadata.instanceSize = 24 ∧
      Format.ClassMetadata.classSize = 32 ∧ Format.ClassMetadata.classAddressPoint = 36 ∧
      negativeSize = 16 ∧ Format.wordSize = 8 := by decide
  simp only [storedCounts, filledMetadata, Memory.holds_append, List.length_append, slot, kind,
    length_storedPointer?, length_littleEndian, length_zeros] at holds front body
  clear slot kind
  -- only where the parts end matters
  generalize (padding size Format.descriptorAlignment).length = gap at *
  generalize (padding (bodyEnd type.descriptor parent name superclassType fields)
    Format.wordSize).length = rest at *
  simp only [placed] at holds front body
  obtain ⟨⟨⟨⟨⟨⟨⟨_, ⟨⟨⟨negative, positive⟩, _⟩, _⟩, _⟩, _⟩, _⟩, _⟩, _⟩, _⟩,
    ⟨⟨⟨⟨⟨⟨_, instanceSize⟩, _⟩, _⟩, classSize⟩, point⟩, _⟩, _⟩ := holds
  refine ⟨negative.of_eq ?_, positive.of_eq ?_, instanceSize.of_eq ?_, classSize.of_eq ?_,
    point.of_eq ?_⟩
  all_goals
    simp only [placed]
    clear placed
    omega

/-! ## Entries -/

/-- The emission of an entry stands in memory, its pointers filled in for an image at `base`. What
    the entry refers to stands in front of it. -/
structure Entry.Stands (entry : Entry) (image : UInt32) (memory : Memory) (base : Address)
    (size : Nat) (emission : Emission) (final : List UInt8) : Prop where
  emits : Emits image size entry emission
  relocates : Relocates base.bits size emission.bytes emission.relocations final
  holds : memory.Holds (base.bits.toNat + size) final
  front : ∀ symbol ∈ entry.mentioned, 4 ∣ symbol.offset ∧ symbol.offset < size

namespace Entry.Stands

variable {image : UInt32} {memory : Memory} {base : Address} {size : Nat} {emission : Emission}
  {final : List UInt8} {metadata place : Nat}

/-- The link to the name of a module stands where it was put. -/
theorem moduleParts {name : String}
    (stands : (Entry.module name place).Stands image memory base size emission final) :
    ∃ offset, linkOffset (place + Format.Context.name) (place + Format.Context.moduleSize)
        = .ok offset ∧
      memory.Holds (base.bits.toNat + (place + Format.Context.name)) (storedOffset offset) := by
  obtain ⟨emits, relocates, holds, -⟩ := stands
  cases emits with
  | module emitted =>
      obtain ⟨offset, linked, rfl⟩ := emitModule_eq_ok emitted
      obtain rfl := relocates.unique (.plain ..)
      have start := add_length_padding size (by decide : 0 < Format.descriptorAlignment)
      have flags : (emittedFlags .module).length = 4 := length_littleEndian ..
      have absent : Attachment.absent.link.length = 4 := length_storedOffset _
      have placed : Format.Context.name = 8 := by decide
      simp only [Memory.holds_append, List.length_append, flags, absent] at holds
      obtain ⟨⟨⟨⟨_, _⟩, _⟩, link⟩, _⟩ := holds
      exact ⟨offset, linked, link.of_eq (by omega)⟩

/-- The link to the parent of an extension stands where it was put. -/
theorem extensionParts {parent : Symbol}
    (stands : (Entry.extension parent place).Stands image memory base size emission final) :
    ∃ target offset, parent = ⟨image, target, .context⟩ ∧
      linkOffset (place + Format.Context.parent) target = .ok offset ∧
      memory.Holds (base.bits.toNat + (place + Format.Context.parent)) (storedOffset offset) := by
  obtain ⟨emits, relocates, holds, -⟩ := stands
  cases emits with
  | extension emitted =>
      obtain ⟨target, offset, rfl, linked, rfl⟩ := emitExtension_eq_ok emitted
      obtain rfl := relocates.unique (.plain ..)
      have start := add_length_padding size (by decide : 0 < Format.descriptorAlignment)
      have flags : (emittedFlags .extension).length = 4 := length_littleEndian ..
      have placed : Format.Context.parent = 4 := by decide
      simp only [Memory.holds_append, List.length_append, flags] at holds
      obtain ⟨⟨⟨_, _⟩, link⟩, _⟩ := holds
      exact ⟨target, offset, rfl, linked, link.of_eq (by omega)⟩

/-- The parts of a struct stand where they were put. -/
theorem structParts {definition : StructDefinition}
    (stands : (Entry.structType definition metadata place).Stands image memory base size emission
      final) :
    ∃ type parent name fields, type.metadata = metadata ∧ type.descriptor = place ∧
      definition.Emits image size type parent name fields ∧
      definition.Stands memory base type parent name fields := by
  obtain ⟨emits, relocates, holds, -⟩ := stands
  cases emits with
  | @structType _ _ _ type _ emitted =>
      obtain ⟨parent, name, fields, parts⟩ := StructDefinition.emit_eq_ok emitted
      obtain rfl := relocates.unique (parts.relocates base.bits)
      exact ⟨type, parent, name, fields, rfl, rfl, parts, parts.stands holds⟩

/-- The parts of a class stand where they were put. -/
theorem classParts {definition : ClassDefinition}
    (stands : (Entry.classType definition metadata place).Stands image memory base size emission
      final) :
    ∃ type superclass parent name superclassType fields, type.metadata = metadata ∧
      type.descriptor = place ∧
      definition.Emits image size type superclass parent name superclassType fields ∧
      definition.Stands memory base type superclass parent name superclassType fields ∧
      definition.StandsNumbers memory base metadata place := by
  obtain ⟨emits, relocates, holds, -⟩ := stands
  cases emits with
  | @classType _ _ _ type _ emitted =>
      obtain ⟨superclass, parent, name, superclassType, fields, parts⟩ :=
        ClassDefinition.emit_eq_ok emitted
      obtain rfl := relocates.unique (parts.relocates base.bits)
      exact ⟨type, superclass, parent, name, superclassType, fields, rfl, rfl, parts,
        parts.stands holds, parts.standsNumbers holds⟩

end Entry.Stands

namespace Run

variable {image : UInt32} {entries : List Entry} {builder : Builder}

theorem stands (run : Run image entries builder) (base : Address) :
    ∃ final, Relocates base.bits 0 builder.bytes builder.relocations final ∧
      ∀ memory : Memory, memory.Holds base.bits.toNat final → ∀ entry ∈ entries,
        ∃ size emission final, entry.Stands image memory base size emission final := by
  induction run using keeps with
  | empty => exact ⟨[], .plain 0 [], fun _ _ => List.forall_mem_nil _⟩
  | step entries builder entry emission run _ emits own ih =>
      obtain ⟨before, first, standing⟩ := ih
      obtain ⟨behind, second⟩ := emits.relocates base.bits
      refine ⟨before ++ behind, first.append (second.of_eq (Nat.zero_add _).symm), ?_⟩
      intro memory holds
      obtain ⟨left, right⟩ := Memory.holds_append.mp holds
      rw [first.length] at right
      refine List.forall_mem_cons.mpr ⟨⟨_, emission, behind, emits, second, right, ?_⟩,
        standing memory left⟩
      exact fun symbol member =>
        ⟨run.aligned symbol (own symbol member), run.inside symbol (own symbol member)⟩

/-- The emissions of all entries stand in a finished image. -/
theorem stands_finished (run : Run image entries builder) {base : Address} {finished : Image}
    (fits : base.bits.toNat + builder.bytes.length ≤ UInt64.size)
    (found : builder.finish? base = some finished) :
    ∀ entry ∈ entries, ∃ size emission final,
      entry.Stands image finished.memory base size emission final := by
  obtain ⟨final, relocates, standing⟩ := run.stands base
  obtain ⟨storage, given, stores⟩ := Builder.finish?_of_relocates relocates
  cases Option.some.inj (found.symm.trans given)
  rw [← relocates.length] at fits
  exact standing _ (Image.holds_of_stores stores fits)

end Run

end TypeReflection
