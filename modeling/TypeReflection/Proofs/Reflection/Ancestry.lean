import TypeReflection.Proofs.Reflection.RoundTrip

/-! # Links of emitted records

In a finished image the links of a record lead to the records that its definition names, all of them
emitted earlier. So chains of enclosing contexts and of superclasses end, and list the entries that
their definitions name one after the other.
-/

namespace TypeReflection

/-! ## Views of entries -/

namespace Entry

/-- The view of the metadata of a class. -/
def classView (base : Address) : Entry → ClassType
  | .classType definition metadata place => definition.view base metadata place
  | entry => ⟨⟨base.past entry.place⟩, none⟩

/-- The entry is a class that readers accept as one. -/
inductive IsClass : Entry → Prop where
  | intro {definition : ClassDefinition} {metadata place : Nat}
      (shape : definition.nominal.shape? .classType ≠ none) :
      IsClass (.classType definition metadata place)

end Entry

namespace Image

/-- The image gives the struct for the symbol of its metadata. -/
def GivesStruct (image : Image) (symbol : Symbol) (type : StructType) : Prop :=
  ∃ handle, image.handle symbol = .ok handle ∧ StructType.check handle image.memory = .ok type

/-- The image gives the class for the symbol of its metadata. -/
def GivesClass (image : Image) (symbol : Symbol) (type : ClassType) : Prop :=
  ∃ handle, image.handle symbol = .ok handle ∧ ClassType.check handle image.memory = .ok type

end Image

/-! ## Where links land -/

theorem Image.Presents.check_class {image : Image} {entries : List Entry} {size : Nat}
    (presents : image.Presents entries size) {definition : ClassDefinition} {metadata place : Nat}
    (member : .classType definition metadata place ∈ entries)
    (shape : definition.nominal.shape? .classType ≠ none) :
    ClassType.check ⟨image.base.past metadata⟩ image.memory
      = .ok (definition.view image.base metadata place) := by
  have shown := presents.entries_show _ member
  exact shown.classType.check_eq_ok shown.context_shows (shown.classType.fits.shape_eq shape)

section Landing

variable {image : Image} {entries : List Entry} {builder : Builder}
  (run : Run image.id entries builder) (presents : image.Presents entries builder.bytes.length)

include run presents

namespace Image.Presents

theorem inside : ∀ symbol ∈ issuedSymbols image.id entries,
    image.base.bits.toNat + symbol.offset < UInt64.size := by
  intro symbol issued
  obtain ⟨bytes, length, holds⟩ := presents.maps
  have fits := holds.fits
  have placed := run.inside symbol issued
  omega

theorem context_eq {entry : Entry} (member : entry ∈ entries) :
    image.context (entry.contextSymbol image.id) = .ok (entry.context image.base) := by
  have issued := mem_issuedSymbols.mpr ⟨entry, member, entry.contextSymbol_mem image.id⟩
  have shown := (presents.entries_show entry member).context_shows
  exact Image.context_eq_ok (presents.inside run _ issued) shown.check_eq

theorem handle_eq {entry : Entry} (member : entry ∈ entries) {metadata : Nat} {role : Role}
    (issued : (⟨image.id, metadata, role⟩ : Symbol) ∈ entry.symbols image.id)
    (other : role ≠ .context) :
    image.handle ⟨image.id, metadata, role⟩ = .ok ⟨image.base.past metadata⟩ :=
  Image.handle_eq_ok other
    (presents.inside run _ (mem_issuedSymbols.mpr ⟨entry, member, issued⟩))

/-- The parent of a context is the context at the symbol that was given, if one was. -/
theorem parent_lands {entry : Entry} (member : entry ∈ entries) :
    (entry.parent? = none → (entry.context image.base).parent image.memory = .ok none) ∧
      ∀ symbol ∈ entry.parent?, ∃ outer, image.context symbol = .ok outer ∧
        (entry.context image.base).parent image.memory = .ok (some outer) := by
  have parent := (presents.entries_show entry member).context_shows.parent_eq
  constructor
  · intro absent
    rwa [absent] at parent
  · intro symbol given
    obtain ⟨outer, known, rfl⟩ := (run.references entry member).1 symbol given
    rw [Option.mem_def.mp given] at parent
    exact ⟨outer.context image.base, presents.context_eq run known, parent⟩

/-- The descriptor of a struct is the context at its descriptor symbol. -/
theorem struct_lands {definition : StructDefinition} {metadata place : Nat}
    (member : .structType definition metadata place ∈ entries)
    (shape : definition.nominal.shape? .structType ≠ none) :
    ∃ type, image.GivesStruct ⟨image.id, metadata, .structMetadata⟩ type ∧
      image.context ⟨image.id, place, .context⟩ = .ok type.descriptor.type.context := by
  have shown := presents.entries_show _ member
  have opened := shown.structType.check_eq_ok shown.context_shows
    (shown.structType.fits.shape_eq shape)
  have handle := presents.handle_eq run member (List.mem_cons_self ..) (by decide)
  exact ⟨_, ⟨_, handle, opened⟩, presents.context_eq run member⟩

theorem gives_class {definition : ClassDefinition} {metadata place : Nat}
    (member : .classType definition metadata place ∈ entries)
    (shape : definition.nominal.shape? .classType ≠ none) :
    image.GivesClass ⟨image.id, metadata, .classMetadata⟩
      (definition.view image.base metadata place) := by
  have handle := presents.handle_eq run member (List.mem_cons_self ..) (by decide)
  exact ⟨_, handle, presents.check_class member shape⟩

/-- The descriptor of a class is the context at its descriptor symbol, if the class points to it. -/
theorem class_lands {definition : ClassDefinition} {metadata place : Nat}
    (member : .classType definition metadata place ∈ entries) :
    (definition.view image.base metadata place).descriptor.isSome = definition.isLinked ∧
      ∀ descriptor ∈ (definition.view image.base metadata place).descriptor,
        image.context ⟨image.id, place, .context⟩ = .ok descriptor.type.context := by
  have given := presents.context_eq run member
  unfold ClassDefinition.view
  cases definition.isLinked with
  | false => exact ⟨rfl, nofun⟩
  | true =>
      refine ⟨rfl, ?_⟩
      rintro _ ⟨⟩
      exact given

/-- The superclass of a class is the class at the symbol that was given. If the kind word there
    stands for no shape, that is reported. -/
theorem superclass_lands {definition : ClassDefinition} {metadata place : Nat}
    (member : .classType definition metadata place ∈ entries) {symbol : Symbol} {name : List UInt8}
    (given : definition.superclass = some (symbol, name)) :
    ∃ above point outer, .classType above point outer ∈ entries ∧
      symbol = ⟨image.id, point, .classMetadata⟩ ∧
      (above.nominal.shape? .classType ≠ none → ∃ superclass,
        image.GivesClass symbol superclass ∧
          (definition.view image.base metadata place).checkSuperclass image.memory
            = .ok (some superclass)) ∧
      (above.nominal.shape? .classType = none → ∃ handle, image.handle symbol = .ok handle ∧
        (definition.view image.base metadata place).checkSuperclass image.memory
          = .error (.rejected (.unsupportedKind handle.address.bits
              (above.nominal.kindWord .classType)))) := by
  have shown := (presents.entries_show _ member).classType
  obtain ⟨above, point, outer, known, rfl⟩ :=
    (run.references _ member).2 symbol (by simp [Entry.superclass?, given])
  have aboveShown := (presents.entries_show _ known).classType
  have checked := shown.checkSuperclass_some given
  refine ⟨above, point, outer, known, rfl, ?_, ?_⟩
  · intro shape
    rw [presents.check_class known shape] at checked
    exact ⟨_, presents.gives_class run known shape, checked⟩
  · intro unsupported
    rw [aboveShown.check_unsupported unsupported] at checked
    exact ⟨_, presents.handle_eq run known (List.mem_cons_self ..) (by decide), checked⟩

/-! ## Chains of views -/

/-- The classes above one are those of the entries that its definition and theirs name, if readers
    accept all of them as classes. -/
theorem classes_follow {entry : Entry} (member : entry ∈ entries) {chain : List Entry}
    (linked : entry.Chain image.id entries Entry.superclass? chain)
    (classes : ∀ inner ∈ chain, inner.IsClass) :
    Walk.Follows (fun inner : ClassType => inner.superclass image.memory)
      (entry.classView image.base) (chain.map (Entry.classView image.base)) := by
  induction linked with
  | @last entry ends =>
      cases classes entry (List.mem_cons_self ..) with
      | intro shape =>
          have shown := (presents.entries_show _ member).classType
          have none := shown.checkSuperclass_none (Option.map_eq_none_iff.mp ends)
          exact .last (congrArg strict none)
  | @step entry named symbol rest given known issued goesOn ih =>
      have above : ∀ inner ∈ rest, inner.IsClass :=
        fun inner later => classes inner (List.mem_cons_of_mem _ later)
      have followed := ih known above
      cases classes entry (List.mem_cons_self ..) with
      | @intro definition metadata place shape =>
          obtain ⟨_, point, _, _, rfl⟩ := (run.references _ member).2 symbol given
          obtain ⟨⟨_, name⟩, found, rfl⟩ := Option.map_eq_some_iff.mp given
          obtain ⟨_, _, rfl⟩ := Entry.eq_classType_of_mem issued
          cases above _ goesOn.start_mem with
          | intro aboveShape =>
              have shown := (presents.entries_show _ member).classType
              have checked := shown.checkSuperclass_some found
              rw [presents.check_class known aboveShape] at checked
              exact .step (congrArg strict checked) followed

end Image.Presents

end Landing

/-! ## Finished images -/

/-- The links in an image land where the definitions of the entries say, and chains of them end. -/
structure Image.LinksLand (image : Image) (entries : List Entry) : Prop where
  /-- What a definition refers to was emitted earlier. -/
  earlier : ∀ later entry before, entries = later ++ entry :: before →
    ∀ symbol ∈ entry.mentioned, symbol ∈ issuedSymbols image.id before
  contexts : ∀ entry ∈ entries,
    image.context (entry.contextSymbol image.id) = .ok (entry.context image.base)
  structs : ∀ definition metadata place, .structType definition metadata place ∈ entries →
    definition.nominal.shape? .structType ≠ none →
    ∃ type, image.GivesStruct ⟨image.id, metadata, .structMetadata⟩ type ∧
      image.context ⟨image.id, place, .context⟩ = .ok type.descriptor.type.context
  classes : ∀ definition metadata place, .classType definition metadata place ∈ entries →
    definition.nominal.shape? .classType ≠ none →
    image.GivesClass ⟨image.id, metadata, .classMetadata⟩
        (definition.view image.base metadata place) ∧
      (definition.view image.base metadata place).descriptor.isSome = definition.isLinked ∧
      ∀ descriptor ∈ (definition.view image.base metadata place).descriptor,
        image.context ⟨image.id, place, .context⟩ = .ok descriptor.type.context
  parents : ∀ entry ∈ entries,
    (entry.parent? = none → (entry.context image.base).parent image.memory = .ok none) ∧
      ∀ symbol ∈ entry.parent?, ∃ outer, image.context symbol = .ok outer ∧
        (entry.context image.base).parent image.memory = .ok (some outer)
  roots : ∀ definition metadata place, .classType definition metadata place ∈ entries →
    definition.superclass = none →
    (definition.view image.base metadata place).checkSuperclass image.memory = .ok none
  superclasses : ∀ definition metadata place, .classType definition metadata place ∈ entries →
    ∀ symbol name, definition.superclass = some (symbol, name) →
    ∃ above point outer, .classType above point outer ∈ entries ∧
      symbol = ⟨image.id, point, .classMetadata⟩ ∧
      (above.nominal.shape? .classType ≠ none → ∃ superclass,
        image.GivesClass symbol superclass ∧
          (definition.view image.base metadata place).checkSuperclass image.memory
            = .ok (some superclass)) ∧
      (above.nominal.shape? .classType = none → ∃ handle, image.handle symbol = .ok handle ∧
        (definition.view image.base metadata place).checkSuperclass image.memory
          = .error (.rejected (.unsupportedKind handle.address.bits
              (above.nominal.kindWord .classType))))
  /-- The contexts from one outwards are those of a chain of entries, each emitted before the one
      in front of it. -/
  contexts_end : ∀ entry ∈ entries, ∃ chain,
    entry.Chain image.id entries Entry.parent? chain ∧ chain.Sublist entries ∧
      ∀ limit, chain.length ≤ limit →
        (entry.context image.base).ancestors image.memory limit
          = ⟨chain.map (Entry.context image.base), .finished⟩
  /-- So are the classes from one upwards, if readers accept all of them as classes. -/
  classes_end : ∀ entry ∈ entries, ∃ chain,
    entry.Chain image.id entries Entry.superclass? chain ∧ chain.Sublist entries ∧
      ((∀ inner ∈ chain, inner.IsClass) → ∀ limit, chain.length ≤ limit →
        (entry.classView image.base).ancestors image.memory limit
          = ⟨chain.map (Entry.classView image.base), .finished⟩)

/-- Wherever the bytes of a builder fit, the links in the finished image land on the records that
    the definitions name, and chains of links end at the last entry that names another one. -/
theorem Run.links_land {image : UInt32} {entries : List Entry} {builder : Builder}
    (run : Run image entries builder) (base : Address)
    (aligned : base.isAligned Format.imageAlignment = true)
    (fits : base.bits.toNat + builder.bytes.length ≤ UInt64.size) :
    ∃ finished, builder.finish? base = some finished ∧ finished.id = image ∧
      finished.base = base ∧ finished.LinksLand entries := by
  obtain ⟨finished, found, _⟩ := run.finish? fits
  obtain ⟨rfl, rfl, presents⟩ := run.presents aligned fits found
  refine ⟨finished, found, rfl, rfl, ?_⟩
  constructor
  case earlier =>
      intro later entry before split
      exact run.mentioned_earlier split
  case contexts =>
      intro entry member
      exact presents.context_eq run member
  case structs =>
      intro definition metadata place member shape
      exact presents.struct_lands run member shape
  case classes =>
      intro definition metadata place member shape
      exact ⟨presents.gives_class run member shape, presents.class_lands run member⟩
  case parents =>
      intro entry member
      exact presents.parent_lands run member
  case roots =>
      intro definition metadata place member absent
      exact (presents.entries_show _ member).classType.checkSuperclass_none absent
  case superclasses =>
      intro definition metadata place member symbol name given
      exact presents.superclass_lands run member given
  case contexts_end =>
      intro entry member
      obtain ⟨chain, linked, inside⟩ := run.chain Entry.parent? Entry.parent_mentioned entry member
      refine ⟨chain, linked, inside, fun limit enough => ?_⟩
      exact (run.contexts_follow presents.entries_show member linked).along_map (fun _ _ => rfl)
        enough
  case classes_end =>
      intro entry member
      obtain ⟨chain, linked, inside⟩ := run.chain Entry.superclass? Entry.superclass_mentioned
        entry member
      refine ⟨chain, linked, inside, fun classes limit enough => ?_⟩
      exact (presents.classes_follow run member linked classes).along_map (fun _ _ => rfl) enough

/-- The parent of the struct in the program is the module. -/
theorem Run.links_land_zoo : Run 0 zooEntries.reverse zooResult.1 ∧
    (⟨0x10000, by decide⟩ : Address).isAligned Format.imageAlignment = true ∧
      0x10000 + zooResult.1.bytes.length ≤ UInt64.size ∧
      ∃ finished outer, zooResult.1.finish? ⟨0x10000, by decide⟩ = some finished ∧
        finished.context ⟨0, 0, .context⟩ = .ok outer ∧
        Context.parent ⟨finished.base.past 320⟩ finished.memory = .ok (some outer) := by
  have aligned : (⟨0x10000, by decide⟩ : Address).isAligned Format.imageAlignment = true := by
    decide
  have fits : 0x10000 + zooResult.1.bytes.length ≤ UInt64.size := by decide +kernel
  have tag : .structType zooTag 416 320 ∈ zooEntries.reverse := by decide +kernel
  obtain ⟨finished, found, _, _, lands⟩ := run_zoo.links_land ⟨0x10000, by decide⟩ aligned fits
  obtain ⟨outer, given, parent⟩ := (lands.parents _ tag).2 ⟨0, 0, .context⟩ rfl
  exact ⟨run_zoo, aligned, fits, finished, outer, found, given, parent⟩

end TypeReflection
