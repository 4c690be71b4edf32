import TypeReflection.Proofs.Image.Finish
import TypeReflection.Proofs.Image.Reference
import TypeReflection.Proofs.Reflection.Opening
import TypeReflection.Proofs.View.Safety

/-! # Images are self-contained

Memory that holds a finished image and nothing else is all that reflection needs: started at a
symbol of the image, no accessor reads a byte that is not mapped.
-/

namespace TypeReflection

/-- A number inside mapped bytes is read without leaving them. -/
theorem Memory.Maps.readAt_avoids_unmapped {memory : Memory} {address : Address} {count : Nat}
    (maps : memory.Maps address.bits.toNat count) (scalar : Scalar) {position : Nat}
    (fits : position + scalar.size ≤ count) :
    Avoids Fault.IsUnmapped (memory.readAt scalar address (.ofNat position)) anything := by
  obtain ⟨bytes, rfl, holds⟩ := maps
  obtain ⟨number, length, stored⟩ := holds.maps fits
  have positive : 0 < scalar.size := by cases scalar <;> decide
  have inside := stored.inside (length ▸ positive)
  have read := stored.bytes
  rw [length, ← Address.toNat_past inside, UInt64.ofNat_toNat] at read
  have moved : Avoids Fault.IsUnmapped (address.add (.ofNat position))
      (· = address.past position) :=
    .of_ok (Address.add_eq_past inside) rfl
  refine moved.bind fun address _ same => ?_
  subst same
  unfold Memory.read
  split
  · exact Avoids.map (Avoids.of_ok read trivial)
  · exact fun stops => stops

theorem Memory.Maps.readU32_avoids_unmapped {memory : Memory} {address : Address} {count : Nat}
    (maps : memory.Maps address.bits.toNat count) {position : Nat} (fits : position + 4 ≤ count) :
    Avoids Fault.IsUnmapped (memory.readU32 address position) anything :=
  (maps.readAt_avoids_unmapped .u32 fits).mapped

/-- A rejection is no fault. -/
theorem IsRejected.avoids {α : Type} {checked : Except Failure α} {bad : Fault → Prop}
    {post : α → Prop} (rejected : IsRejected checked) :
    Avoids (Failure.Stops bad) checked post := by
  obtain ⟨error, rfl⟩ := rejected
  exact Avoids.rejected error

/-! ## Views of emitted records -/

/-- Views of what was emitted for the entries, in an image at `base`. -/
def View.IsEmitted (memory : Memory) (base : Address) (entries : List Entry) : View → Prop
  | .address _ => False
  | .handle found =>
      (∃ definition metadata place, .structType definition metadata place ∈ entries ∧
        found = ⟨base.past metadata⟩) ∨
      ∃ definition metadata place, .classType definition metadata place ∈ entries ∧
        found = ⟨base.past metadata⟩
  | .structType found | .reflected (.ofStruct found) =>
      ∃ definition metadata place, .structType definition metadata place ∈ entries ∧
        found = ⟨⟨base.past metadata⟩, ⟨⟨⟨base.past place⟩⟩⟩⟩
  | .classType found | .reflected (.ofClass found) =>
      ∃ definition metadata place, .classType definition metadata place ∈ entries ∧
        found = definition.view base metadata place
  | .context found => ∃ entry ∈ entries, found = ⟨base.past entry.place⟩
  | .typeContext found =>
      ∃ entry ∈ entries, entry.kind.isType = true ∧ found = ⟨⟨base.past entry.place⟩⟩
  | .structDescriptor found =>
      ∃ entry ∈ entries, entry.kind = .structType ∧ found = ⟨⟨⟨base.past entry.place⟩⟩⟩
  | .classDescriptor found =>
      ∃ entry ∈ entries, entry.kind = .classType ∧ found = ⟨⟨⟨base.past entry.place⟩⟩⟩
  | .fields found => IsAccepted found
  | .cursor found => IsAccepted found.descriptor ∧ found.front ≤ found.back ∧
      ∃ count, found.descriptor.fieldCount memory = .ok count ∧ found.back ≤ count
  | .slice found => ∀ index, index < found.count → ∃ bits, found.element memory index = .ok bits
where
  /-- A field descriptor whose declared record size is accepted. -/
  IsAccepted (descriptor : FieldDescriptor) : Prop :=
    ∃ definition kind superclassName, descriptor.Shows memory definition kind superclassName ∧
      FieldDescriptor.isRecordSize definition.recordSize = true

namespace Entry

variable {memory : Memory} {base : Address} {entry : Entry}

theorem eq_structType_of_kind (struct : entry.kind = .structType) :
    ∃ definition metadata place, entry = .structType definition metadata place := by
  cases entry with
  | structType definition metadata place => exact ⟨definition, metadata, place, rfl⟩
  | module name place => cases struct
  | extension parent place => cases struct
  | classType definition metadata place => cases struct

theorem eq_classType_of_kind (class_ : entry.kind = .classType) :
    ∃ definition metadata place, entry = .classType definition metadata place := by
  cases entry with
  | classType definition metadata place => exact ⟨definition, metadata, place, rfl⟩
  | module name place => cases class_
  | extension parent place => cases class_
  | structType definition metadata place => cases class_

theorem Shows.type (shows : entry.Shows memory base) (isType : entry.kind.isType = true) :
    ∃ definition kind superclassName,
      (⟨⟨base.past entry.place⟩⟩ : TypeContext).Shows memory definition kind superclassName := by
  cases entry with
  | module name place => cases isType
  | extension parent place => cases isType
  | structType definition metadata place =>
      exact ⟨_, _, _, shows.structType.type_shows⟩
  | classType definition metadata place =>
      exact ⟨_, _, _, shows.classType.type_shows⟩

end Entry

section

variable {image : UInt32} {entries : List Entry} {builder : Builder} {memory : Memory}
  {base : Address} (shows : ∀ entry ∈ entries, entry.Shows memory base)

include shows

theorem checkStruct_avoids_unmapped {handle : TypeHandle}
    (emitted : View.IsEmitted memory base entries (.handle handle)) :
    Avoids (Failure.Stops Fault.IsUnmapped) (StructType.check handle memory) fun type =>
      View.IsEmitted memory base entries (.structType type) := by
  rcases emitted with ⟨definition, metadata, place, member, rfl⟩ |
    ⟨definition, metadata, place, member, rfl⟩
  · have context := (shows _ member).context_shows
    have shown := (shows _ member).structType
    by_cases shape : definition.nominal.shape? .structType = some .structType
    · exact .of_ok (shown.check_eq_ok context shape) ⟨definition, metadata, place, member, rfl⟩
    · exact (shown.check_rejected.1 shape).avoids
  · have shown := (shows _ member).classType
    exact shown.check_rejected.2.avoids

theorem checkClass_avoids_unmapped {handle : TypeHandle}
    (emitted : View.IsEmitted memory base entries (.handle handle)) :
    Avoids (Failure.Stops Fault.IsUnmapped) (ClassType.check handle memory) fun type =>
      View.IsEmitted memory base entries (.classType type) := by
  rcases emitted with ⟨definition, metadata, place, member, rfl⟩ |
    ⟨definition, metadata, place, member, rfl⟩
  · have shown := (shows _ member).structType
    exact shown.check_rejected.2.avoids
  · have context := (shows _ member).context_shows
    have shown := (shows _ member).classType
    by_cases shape : definition.nominal.shape? .classType = some .classType
    · exact .of_ok (shown.check_eq_ok context shape) ⟨definition, metadata, place, member, rfl⟩
    · exact (shown.check_rejected.1 shape).avoids

theorem checkSuperclass_avoids_unmapped (run : Run image entries builder) {type : ClassType}
    (emitted : View.IsEmitted memory base entries (.classType type)) :
    Avoids (Failure.Stops Fault.IsUnmapped) (type.checkSuperclass memory) fun superclass =>
      ∀ found ∈ superclass, View.IsEmitted memory base entries (.classType found) := by
  obtain ⟨definition, metadata, place, member, rfl⟩ := emitted
  have shown := (shows _ member).classType
  cases given : definition.superclass with
  | none => exact .of_ok (shown.checkSuperclass_none given) (by simp)
  | some superclass =>
      obtain ⟨symbol, name⟩ := superclass
      obtain ⟨above, point, outer, known, rfl⟩ :=
        (run.references _ member).2 symbol (by simp [Entry.superclass?, given])
      rw [shown.checkSuperclass_some given]
      have found := checkClass_avoids_unmapped shows (.inr ⟨above, point, outer, known, rfl⟩)
      refine Avoids.map (found.mono ?_)
      rintro found _ good _ ⟨⟩
      exact good

theorem fieldOffsets_avoids_unmapped {type : StructType}
    (emitted : View.IsEmitted memory base entries (.structType type)) :
    Avoids Fault.IsUnmapped (type.fieldOffsets memory) fun vector =>
      ∀ slice ∈ vector, View.IsEmitted memory base entries (.slice slice) := by
  obtain ⟨definition, metadata, place, member, rfl⟩ := emitted
  have shown := (shows _ member).structType
  cases given : definition.offsets with
  | none => exact .of_ok (shown.fieldOffsets_none given) (by simp)
  | some offsets =>
      rw [shown.fieldOffsets_some given]
      have moved : Avoids Fault.IsUnmapped
          ((base.past metadata).add (.ofNat (2 * Format.wordSize))) anything := by
        cases stopped : (base.past metadata).add (.ofNat (2 * Format.wordSize)) with
        | ok start => trivial
        | error fault =>
            rw [Address.offset_error stopped]
            exact fun stops => stops
      refine moved.bind fun start found _ => ?_
      rintro _ ⟨⟩ index inside
      have length := shown.offsets_length offsets given
      have reduced := Nat.mod_le definition.nominal.fields.length UInt32.size
      have inside : index < definition.nominal.fields.length % UInt32.size := inside
      exact ⟨_, shown.element_eq given found _ (by omega)⟩

theorem checkFields_avoids_unmapped {type : TypeContext}
    (emitted : View.IsEmitted memory base entries (.typeContext type)) :
    Avoids (Failure.Stops Fault.IsUnmapped) (type.checkFields memory) fun fields =>
      ∀ found ∈ fields, View.IsEmitted memory base entries (.fields found) := by
  obtain ⟨entry, member, isType, rfl⟩ := emitted
  obtain ⟨definition, kind, superclassName, shown⟩ := (shows entry member).type isType
  rcases shown.fields_eq with ⟨_, absent⟩ | ⟨descriptor, _, stands, present⟩
  · exact .of_ok absent (by simp)
  · rw [present, stands.check_eq]
    split
    case isTrue accepted =>
        refine Avoids.ok ?_
        rintro _ ⟨⟩
        exact ⟨definition, kind, superclassName, stands, accepted⟩
    case isFalse => exact Avoids.rejected _

/-- Views of emitted records are read without leaving the image, and lead to such views only. -/
theorem View.emitted_safe (run : Run image entries builder) :
    SafeViews Fault.IsUnmapped memory (View.IsEmitted memory base entries) where
  malformed _ := fun stops => stops
  endlessChain := fun stops => stops
  addressHandle _ emitted := emitted.elim
  addressContext _ _ emitted := emitted.elim
  addressFields _ emitted := emitted.elim
  kindWord := by
    rintro _ (⟨definition, metadata, place, member, rfl⟩ |
      ⟨definition, metadata, place, member, rfl⟩)
    · have shown := (shows _ member).structType
      exact .of_ok shown.kindWord_eq trivial
    · have shown := (shows _ member).classType
      exact .of_ok shown.kindWord_eq trivial
  checkStruct _ emitted := checkStruct_avoids_unmapped shows emitted
  checkClass _ emitted := checkClass_avoids_unmapped shows emitted
  structHandle := by
    rintro _ ⟨definition, metadata, place, member, rfl⟩
    exact .inl ⟨definition, metadata, place, member, rfl⟩
  structDescriptor := by
    rintro _ ⟨definition, metadata, place, member, rfl⟩
    exact ⟨_, member, rfl, rfl⟩
  fieldOffsets _ emitted := fieldOffsets_avoids_unmapped shows emitted
  classHandle := by
    rintro _ ⟨definition, metadata, place, member, rfl⟩
    exact .inr ⟨definition, metadata, place, member, rfl⟩
  classDescriptor := by
    rintro _ ⟨definition, metadata, place, member, rfl⟩ descriptor linked
    unfold ClassDefinition.view at linked
    split at linked
    · cases linked
      exact ⟨_, member, rfl, rfl⟩
    · cases linked
  checkSuperclass _ emitted := checkSuperclass_avoids_unmapped shows run emitted
  classWord := by
    rintro _ ⟨definition, metadata, place, member, rfl⟩ position _ fits
    have shown := (shows _ member).classType
    exact shown.metadata_maps.readU32_avoids_unmapped fits
  instanceAlignmentMask := by
    rintro _ ⟨definition, metadata, place, member, rfl⟩
    have shown := (shows _ member).classType
    exact (shown.metadata_maps.readAt_avoids_unmapped .u16 (by decide)).mapped
  reflectedStruct _ := Iff.rfl
  reflectedClass _ := Iff.rfl
  flags := by
    rintro _ ⟨entry, member, rfl⟩
    obtain ⟨flags, read, _⟩ := map_eq_ok.mp (shows entry member).context_shows.kind_eq
    exact .of_ok read trivial
  parent := by
    rintro _ ⟨entry, member, rfl⟩
    refine .of_ok (shows entry member).context_shows.parent_eq fun found given => ?_
    obtain ⟨symbol, referred, rfl⟩ := Option.map_eq_some_iff.mp given
    obtain ⟨outer, known, rfl⟩ := (run.references entry member).1 symbol referred
    exact ⟨outer, known, rfl⟩
  name := by
    rintro _ ⟨entry, member, rfl⟩
    exact .of_ok (shows entry member).context_shows.name_eq trivial
  contextType := by
    rintro _ ⟨entry, member, rfl⟩
    refine (Avoids.of_ok (shows entry member).context_shows.kind_eq rfl).bind fun kind _ same => ?_
    subst same
    refine Avoids.pure fun found given => ?_
    split at given
    case isTrue isType =>
        cases given
        exact ⟨entry, member, isType, rfl⟩
    case isFalse => cases given
  contextStruct := by
    rintro _ ⟨entry, member, rfl⟩
    have known := (shows entry member).context_shows.kind_eq
    by_cases struct : entry.kind = .structType
    · rw [struct] at known
      exact Avoids.map (.of_ok (TypeContext.check_eq_ok known) ⟨entry, member, struct, rfl⟩)
    · exact Avoids.map (TypeContext.check_rejected known struct).avoids
  contextClass := by
    rintro _ ⟨entry, member, rfl⟩
    have known := (shows entry member).context_shows.kind_eq
    by_cases isClass : entry.kind = .classType
    · rw [isClass] at known
      exact Avoids.map (.of_ok (TypeContext.check_eq_ok known) ⟨entry, member, isClass, rfl⟩)
    · exact Avoids.map (TypeContext.check_rejected known isClass).avoids
  typeContext := by
    rintro _ ⟨entry, member, _, rfl⟩
    exact ⟨entry, member, rfl⟩
  typeName := by
    rintro _ ⟨entry, member, isType, rfl⟩
    obtain ⟨_, _, _, shown⟩ := (shows entry member).type isType
    exact .of_ok shown.name_eq trivial
  accessFunction := by
    rintro _ ⟨entry, member, isType, rfl⟩
    obtain ⟨_, _, _, shown⟩ := (shows entry member).type isType
    exact .of_ok shown.accessFunction_eq trivial
  checkFields _ emitted := checkFields_avoids_unmapped shows emitted
  structDescriptorType := by
    rintro _ ⟨entry, member, struct, rfl⟩
    exact ⟨entry, member, by rw [struct]; decide, rfl⟩
  structDescriptorWord := by
    rintro _ ⟨entry, member, struct, rfl⟩ position _ fits
    obtain ⟨definition, metadata, place, rfl⟩ := Entry.eq_structType_of_kind struct
    have shown := (shows _ member).structType
    exact shown.descriptor_maps.readU32_avoids_unmapped fits
  classDescriptorType := by
    rintro _ ⟨entry, member, isClass, rfl⟩
    exact ⟨entry, member, by rw [isClass]; decide, rfl⟩
  classDescriptorWord := by
    rintro _ ⟨entry, member, isClass, rfl⟩ position _ fits
    obtain ⟨definition, metadata, place, rfl⟩ := Entry.eq_classType_of_kind isClass
    have shown := (shows _ member).classType
    exact shown.descriptor_maps.readU32_avoids_unmapped fits
  superclassType := by
    rintro _ ⟨entry, member, isClass, rfl⟩
    obtain ⟨definition, metadata, place, rfl⟩ := Entry.eq_classType_of_kind isClass
    have shown := (shows _ member).classType
    exact .of_ok shown.superclassType_eq trivial
  fieldsKind := by
    rintro _ ⟨_, _, _, shown, _⟩
    exact .of_ok shown.kind_eq trivial
  fieldsName := by
    rintro _ ⟨_, _, _, shown, _⟩ position multiple fits
    have kind : Format.FieldDescriptor.kind = 8 := rfl
    rcases (show position = 0 ∨ position = 4 by omega) with rfl | rfl
    · exact .of_ok shown.typeName_eq trivial
    · exact .of_ok shown.superclass_eq trivial
  recordSize := by
    rintro _ ⟨_, _, _, shown, _⟩
    exact .of_ok shown.recordSize_eq trivial
  fieldCount := by
    rintro _ ⟨_, _, _, shown, _⟩
    exact .of_ok shown.fieldCount_eq trivial
  record := by
    rintro _ ⟨definition, _, _, shown, accepted⟩ count index counted inside
    cases shown.fieldCount_eq.symm.trans counted
    have reduced := Nat.mod_le definition.fields.length UInt32.size
    exact .of_ok (shown.record_eq accepted index (by omega)) trivial
  cursor _ := Iff.rfl
  element := by
    intro slice emitted index inside
    obtain ⟨bits, read⟩ := emitted index inside
    exact .of_ok read trivial

end

/-! ## Images -/

/-- The views that an image gives for a symbol. -/
inductive Image.Opens (image : Image) (symbol : Symbol) : View → Prop where
  | handle {handle : TypeHandle} : image.handle symbol = .ok handle →
      Opens image symbol (.handle handle)
  | context {context : Context} : image.context symbol = .ok context →
      Opens image symbol (.context context)

namespace Image

variable {image : Image} {offset : Nat}

/-- Symbols of metadata are of use for handles only. -/
theorem eq_handle_of_opens {role : Role} {start : View} (metadata : role ≠ .context)
    (inside : image.base.bits.toNat + offset < UInt64.size)
    (opens : image.Opens ⟨image.id, offset, role⟩ start) :
    start = .handle ⟨image.base.past offset⟩ := by
  cases opens with
  | handle given =>
      cases (handle_eq_ok metadata inside).symm.trans given
      rfl
  | context given =>
      have refused : Symbol.resolve ⟨image.id, offset, role⟩ image.id .context
          = .error (.wrongRole ⟨image.id, offset, role⟩ .context) := by
        simp [Symbol.resolve, metadata]
      rw [context, refused] at given
      cases given

/-- Symbols of contexts are of use for contexts only. -/
theorem eq_context_of_opens {found : Context} {start : View}
    (inside : image.base.bits.toNat + offset < UInt64.size)
    (checked : Context.check (image.base.past offset) = .ok found)
    (opens : image.Opens ⟨image.id, offset, .context⟩ start) : start = .context found := by
  cases opens with
  | handle given => cases given
  | context given =>
      cases (context_eq_ok inside checked).symm.trans given
      rfl

end Image

theorem Run.opens {image : UInt32} {entries : List Entry} {builder : Builder}
    (run : Run image entries builder) {finished : Image} (id_eq : finished.id = image)
    (presents : finished.Presents entries builder.bytes.length) :
    ∀ symbol ∈ issuedSymbols image entries, (∃ start, finished.Opens symbol start) ∧
      ∀ start, finished.Opens symbol start →
        View.IsEmitted finished.memory finished.base entries start := by
  subst id_eq
  obtain ⟨bytes, length, holds⟩ := presents.maps
  intro symbol issued
  have inside : finished.base.bits.toNat + symbol.offset < UInt64.size := by
    have fits := holds.fits
    have placed := run.inside symbol issued
    omega
  obtain ⟨entry, member, found⟩ := mem_issuedSymbols.mp issued
  have shown := presents.entries_show entry member
  have context : symbol = entry.contextSymbol finished.id → (∃ start, finished.Opens symbol start) ∧
      ∀ start, finished.Opens symbol start →
        View.IsEmitted finished.memory finished.base entries start := by
    rintro rfl
    have checked := shown.context_shows.check_eq
    refine ⟨⟨_, .context (Image.context_eq_ok inside checked)⟩, fun start opens => ?_⟩
    rw [Image.eq_context_of_opens inside checked opens]
    exact ⟨entry, member, rfl⟩
  cases entry with
  | module name place => exact context (List.mem_singleton.mp found)
  | extension parent place => exact context (List.mem_singleton.mp found)
  | structType definition metadata place =>
      rcases List.mem_cons.mp found with rfl | other
      · refine ⟨⟨_, .handle (Image.handle_eq_ok (by decide) inside)⟩, fun start opens => ?_⟩
        rw [Image.eq_handle_of_opens (by decide) inside opens]
        exact .inl ⟨definition, metadata, place, member, rfl⟩
      · exact context (List.mem_singleton.mp other)
  | classType definition metadata place =>
      rcases List.mem_cons.mp found with rfl | other
      · refine ⟨⟨_, .handle (Image.handle_eq_ok (by decide) inside)⟩, fun start opens => ?_⟩
        rw [Image.eq_handle_of_opens (by decide) inside opens]
        exact .inr ⟨definition, metadata, place, member, rfl⟩
      · exact context (List.mem_singleton.mp other)

/-- Images are self-contained. Wherever the bytes of a builder fit, it can be finished; in memory
    that holds the image and nothing else, every symbol that was issued gives a view, and no
    accessor of any view reached from there reads a byte that is not mapped. -/
theorem Run.self_contained {image : UInt32} {entries : List Entry} {builder : Builder}
    (run : Run image entries builder) (base : Address)
    (aligned : base.isAligned Format.imageAlignment = true)
    (fits : base.bits.toNat + builder.bytes.length ≤ UInt64.size) :
    ∃ finished, builder.finish? base = some finished ∧
      (∀ address, (finished.memory.byte? address).isSome ↔
        base.bits.toNat ≤ address.toNat ∧
          address.toNat < base.bits.toNat + builder.bytes.length) ∧
      ∀ symbol ∈ issuedSymbols image entries, (∃ start, finished.Opens symbol start) ∧
        ∀ start view, finished.Opens symbol start → Reachable finished.memory start view →
          ∀ answer fault, Access finished.memory view answer → answer = .error fault →
            ¬ fault.IsUnmapped := by
  obtain ⟨finished, found, _⟩ := run.finish? fits
  obtain ⟨id_eq, rfl, presents⟩ := run.presents aligned fits found
  refine ⟨finished, found, presents.mapped_iff, fun symbol issued => ?_⟩
  obtain ⟨opens, emitted⟩ := run.opens id_eq presents symbol issued
  refine ⟨opens, fun start view opened reached answer fault accessed stopped => ?_⟩
  have safe := View.emitted_safe presents.entries_show run
  have known := safe.reachable (emitted start opened) reached
  exact (safe.access known accessed).error_of stopped

/-- Nothing outside the image is read from the metadata of the subclass in the program. -/
theorem Run.self_contained_zoo : Run 0 zooEntries.reverse zooResult.1 ∧
    (⟨0x10000, by decide⟩ : Address).isAligned Format.imageAlignment = true ∧
      0x10000 + zooResult.1.bytes.length ≤ UInt64.size ∧
      ⟨0, 264, .classMetadata⟩ ∈ issuedSymbols 0 zooEntries.reverse ∧
      ∃ finished start, zooResult.1.finish? ⟨0x10000, by decide⟩ = some finished ∧
        finished.Opens ⟨0, 264, .classMetadata⟩ start ∧
        ∀ view, Reachable finished.memory start view →
          ∀ answer fault, Access finished.memory view answer → answer = .error fault →
            ¬ fault.IsUnmapped := by
  have aligned : (⟨0x10000, by decide⟩ : Address).isAligned Format.imageAlignment = true := by
    decide
  have fits : 0x10000 + zooResult.1.bytes.length ≤ UInt64.size := by decide +kernel
  have issued : ⟨0, 264, .classMetadata⟩ ∈ issuedSymbols 0 zooEntries.reverse := by decide +kernel
  obtain ⟨finished, found, _, safe⟩ := run_zoo.self_contained ⟨0x10000, by decide⟩ aligned fits
  obtain ⟨⟨start, opens⟩, reads⟩ := safe _ issued
  exact ⟨run_zoo, aligned, fits, issued, finished, start, found, opens,
    fun view reached => reads start view opens reached⟩

end TypeReflection
