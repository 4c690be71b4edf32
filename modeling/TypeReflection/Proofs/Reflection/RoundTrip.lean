import TypeReflection.Proofs.Image.Finish
import TypeReflection.Proofs.Reflection.Chain
import TypeReflection.Proofs.Reflection.Layout

/-! # Reflection undoes emission

The layouts that are read from a finished image are those of the definitions it was made from.
-/

namespace TypeReflection

/-- The definition of the class that the metadata was issued for. -/
def classOf? (image : UInt32) (entries : List Entry) (metadata : Symbol) :
    Option ClassDefinition :=
  match enclosing image entries metadata with
  | .classType definition _ _ :: _ => some definition
  | _ => none

namespace ClassDefinition

/-- The qualified name of the superclass, if there is one that points to its descriptor. -/
def superclassName? (definition : ClassDefinition) (image : UInt32) (entries : List Entry) :
    Option String := do
  let (metadata, _) ← definition.superclass
  let above ← classOf? image entries metadata
  if above.isLinked then some (qualifiedName image entries metadata) else none

/-- Readers accept the kind words of the class and of its superclass, and the records of its
    fields. -/
structure IsReadable (definition : ClassDefinition) (image : UInt32) (entries : List Entry) :
    Prop where
  nominal_readable : definition.nominal.IsReadable .classType
  superclass_readable : ∀ superclass ∈ definition.superclass,
    ∀ above ∈ classOf? image entries superclass.1,
      above.nominal.shape? .classType = some .classType

theorem superclassName?_of_superclass {definition above : ClassDefinition} {image : UInt32}
    {entries : List Entry} {metadata : Symbol} {name : List UInt8}
    (given : definition.superclass = some (metadata, name))
    (found : classOf? image entries metadata = some above) :
    definition.superclassName? image entries
      = if above.isLinked then some (qualifiedName image entries metadata) else none := by
  rw [superclassName?, given]
  change (classOf? image entries metadata).bind _ = _
  rw [found]
  rfl

end ClassDefinition

namespace Run

variable {image : UInt32} {entries : List Entry} {builder : Builder} {memory : Memory}
  {base : Address} (run : Run image entries builder)

include run

/-- All symbols of an entry give the same chain. -/
theorem qualifiedName_symbol {entry : Entry} (member : entry ∈ entries) {symbol : Symbol}
    (issued : symbol ∈ entry.symbols image) :
    qualifiedName image entries symbol
      = qualifiedName image entries (entry.contextSymbol image) := by
  have chain := run.enclosing_eq entry member
  rw [qualifiedName, qualifiedName, chain symbol issued, chain _ (entry.contextSymbol_mem image)]

theorem classOf?_eq {definition : ClassDefinition} {metadata place : Nat}
    (member : .classType definition metadata place ∈ entries) :
    classOf? image entries ⟨image, metadata, .classMetadata⟩ = some definition := by
  have issued : (⟨image, metadata, .classMetadata⟩ : Symbol) ∈
      (Entry.classType definition metadata place).symbols image := List.mem_cons_self ..
  rw [classOf?, run.enclosing_eq _ member _ issued]

variable (shows : ∀ entry ∈ entries, entry.Shows memory base)
  (fits : base.bits.toNat + builder.bytes.length < UInt64.size)

include shows fits

/-- The qualified name of a type can be asked for by the symbol of its metadata too. -/
theorem qualifiedName_read {entry : Entry} (member : entry ∈ entries) {symbol : Symbol}
    (issued : symbol ∈ entry.symbols image) :
    (⟨base.past entry.place⟩ : Context).qualifiedName memory
      = .ok (qualifiedName image entries symbol) := by
  rw [run.qualifiedName_symbol member issued]
  exact run.qualifiedName_eq shows (by omega) entry member

theorem struct_layout_read {definition : StructDefinition} {metadata place : Nat}
    (member : .structType definition metadata place ∈ entries)
    (readable : definition.nominal.IsReadable .structType) :
    TypeLayout.ofHandle ⟨base.past metadata⟩ memory
      = .ok (definition.layout
          (qualifiedName image entries ⟨image, metadata, .structMetadata⟩)) := by
  have context := (shows _ member).context_shows
  have shown := (shows _ member).structType
  have inside := run.struct_inside member
  have named := run.qualifiedName_read shows fits member (List.mem_cons_self ..)
  exact shown.layout_read readable (by omega) context named

/-- The superclass is read, and its name where it has a descriptor. -/
theorem superclass_read {definition : ClassDefinition} {metadata place : Nat}
    (member : .classType definition metadata place ∈ entries)
    (readable : definition.IsReadable image entries) :
    ∃ superclass,
      (definition.view base metadata place).checkSuperclass memory = .ok superclass ∧
        TypeLayout.superclassName superclass memory
          = .ok (definition.superclassName? image entries) := by
  have shown := (shows _ member).classType
  cases given : definition.superclass with
  | none =>
      refine ⟨none, shown.checkSuperclass_none given, ?_⟩
      rw [ClassDefinition.superclassName?, given]
      rfl
  | some superclass =>
      obtain ⟨symbol, name⟩ := superclass
      obtain ⟨above, point, outer, known, rfl⟩ :=
        (run.references _ member).2 symbol (by simp [Entry.superclass?, given])
      have aboveContext := (shows _ known).context_shows
      have aboveShown := (shows _ known).classType
      have found := run.classOf?_eq known
      have shape := readable.superclass_readable _ given _ found
      have checked := shown.checkSuperclass_some given
      rw [aboveShown.check_eq_ok aboveContext shape, map_ok] at checked
      have named := run.qualifiedName_read shows fits known (List.mem_cons_self ..)
      refine ⟨_, checked, ?_⟩
      rw [ClassDefinition.superclassName?_of_superclass given found]
      exact above.qualifiedName_view named

theorem class_layout_read {definition : ClassDefinition} {metadata place : Nat}
    (member : .classType definition metadata place ∈ entries)
    (readable : definition.IsReadable image entries) :
    TypeLayout.ofHandle ⟨base.past metadata⟩ memory
      = .ok (definition.layout (qualifiedName image entries ⟨image, metadata, .classMetadata⟩)
          (definition.superclassName? image entries)) := by
  have context := (shows _ member).context_shows
  have shown := (shows _ member).classType
  have named := run.qualifiedName_read shows fits member (List.mem_cons_self ..)
  obtain ⟨superclass, above, aboveNamed⟩ := run.superclass_read shows fits member readable
  exact shown.layout_read readable.nominal_readable context named above aboveNamed

end Run

/-- Reflection undoes emission. Wherever the bytes of a builder fit, it can be finished; the layout
    that is read from the metadata of a struct or a class is then the one that its definition says,
    whatever was emitted before and behind it. The address behind the image is needed too, since an
    empty offset vector may start there. -/
theorem Run.layout_round_trip {image : UInt32} {entries : List Entry} {builder : Builder}
    (run : Run image entries builder) (base : Address)
    (aligned : base.isAligned Format.imageAlignment = true)
    (fits : base.bits.toNat + builder.bytes.length < UInt64.size) :
    ∃ finished, builder.finish? base = some finished ∧
      (∀ definition metadata place, .structType definition metadata place ∈ entries →
        definition.nominal.IsReadable .structType →
        ∃ handle, finished.handle ⟨image, metadata, .structMetadata⟩ = .ok handle ∧
          TypeLayout.ofHandle handle finished.memory
            = .ok (definition.layout
                (qualifiedName image entries ⟨image, metadata, .structMetadata⟩))) ∧
      ∀ definition metadata place, .classType definition metadata place ∈ entries →
        definition.IsReadable image entries →
        ∃ handle, finished.handle ⟨image, metadata, .classMetadata⟩ = .ok handle ∧
          TypeLayout.ofHandle handle finished.memory
            = .ok (definition.layout
                (qualifiedName image entries ⟨image, metadata, .classMetadata⟩)
                (definition.superclassName? image entries)) := by
  obtain ⟨finished, found, _⟩ := run.finish? (Nat.le_of_lt fits)
  obtain ⟨rfl, rfl, presents⟩ := run.presents aligned (Nat.le_of_lt fits) found
  have shows := presents.entries_show
  have inside : ∀ entry ∈ entries, ∀ symbol ∈ entry.symbols finished.id,
      finished.base.bits.toNat + symbol.offset < UInt64.size := by
    intro entry member symbol issued
    have before := run.inside symbol (mem_issuedSymbols.mpr ⟨entry, member, issued⟩)
    omega
  refine ⟨finished, found, fun definition metadata place member readable => ?_,
    fun definition metadata place member readable => ?_⟩
  · have reached := inside _ member _ (List.mem_cons_self ..)
    exact ⟨_, Image.handle_eq_ok (by decide) reached,
      run.struct_layout_read shows fits member readable⟩
  · have reached := inside _ member _ (List.mem_cons_self ..)
    exact ⟨_, Image.handle_eq_ok (by decide) reached,
      run.class_layout_read shows fits member readable⟩

/-- The struct of the program. -/
def zooTag : StructDefinition where
  nominal :=
    { NominalDefinition.named "Tag" with
      parent := some (.direct ⟨0, 0, .context⟩)
      fields := [⟨"id", some [0x53], ⟨0⟩⟩, ⟨"kind", some [1, 0, 0, 0, 0, 0x79], ⟨2⟩⟩] }
  offsets := some [0, 8]

/-- The subclass of the program. -/
def zooCat : ClassDefinition where
  nominal :=
    { NominalDefinition.named "Cat" with
      parent := some (.direct ⟨0, 0, .context⟩)
      hasFieldDescriptor := false }
  superclass := some (⟨0, 136, .classMetadata⟩, [0x43])
  instanceSize := 16
  isLinked := true

/-- Names and offsets of the struct and the superclass of the subclass are read from the image. -/
theorem Run.layout_round_trip_zoo : Run 0 zooEntries.reverse zooResult.1 ∧
    (⟨0x10000, by decide⟩ : Address).isAligned Format.imageAlignment = true ∧
      0x10000 + zooResult.1.bytes.length < UInt64.size ∧
      .structType zooTag 416 320 ∈ zooEntries.reverse ∧
      zooTag.nominal.IsReadable .structType ∧
      .classType zooCat 264 192 ∈ zooEntries.reverse ∧
      zooCat.IsReadable 0 zooEntries.reverse ∧
      ∃ finished tag cat, zooResult.1.finish? ⟨0x10000, by decide⟩ = some finished ∧
        finished.handle ⟨0, 416, .structMetadata⟩ = .ok tag ∧
        TypeLayout.ofHandle tag finished.memory
          = .ok ⟨.structType, some "Tag", some "Zoo.Tag", some 2, none,
              [⟨"id", some 0, some "S", ⟨0⟩⟩,
                ⟨"kind", some 8, some "\\x01\\x00\\x00\\x00\\x00y", ⟨2⟩⟩]⟩ ∧
        finished.handle ⟨0, 264, .classMetadata⟩ = .ok cat ∧
        TypeLayout.ofHandle cat finished.memory
          = .ok ⟨.classType, some "Cat", some "Zoo.Cat", none, some "Zoo.Animal", []⟩ := by
  have aligned : (⟨0x10000, by decide⟩ : Address).isAligned Format.imageAlignment = true := by
    decide
  have fits : 0x10000 + zooResult.1.bytes.length < UInt64.size := by decide +kernel
  have tag : .structType zooTag 416 320 ∈ zooEntries.reverse := by decide +kernel
  have cat : .classType zooCat 264 192 ∈ zooEntries.reverse := by decide +kernel
  have tagReads : zooTag.nominal.IsReadable .structType :=
    ⟨by decide, by decide +kernel, fun _ => by decide⟩
  have catReads : zooCat.IsReadable 0 zooEntries.reverse :=
    ⟨⟨by decide, by decide +kernel, nofun⟩, by decide +kernel⟩
  have tagLayout : zooTag.layout (qualifiedName 0 zooEntries.reverse ⟨0, 416, .structMetadata⟩)
      = ⟨.structType, some "Tag", some "Zoo.Tag", some 2, none,
          [⟨"id", some 0, some "S", ⟨0⟩⟩,
            ⟨"kind", some 8, some "\\x01\\x00\\x00\\x00\\x00y", ⟨2⟩⟩]⟩ := by
    decide +kernel
  have catLayout : zooCat.layout (qualifiedName 0 zooEntries.reverse ⟨0, 264, .classMetadata⟩)
      (zooCat.superclassName? 0 zooEntries.reverse)
        = ⟨.classType, some "Cat", some "Zoo.Cat", none, some "Zoo.Animal", []⟩ := by
    decide +kernel
  obtain ⟨finished, found, structs, classes⟩ :=
    run_zoo.layout_round_trip ⟨0x10000, by decide⟩ aligned fits
  obtain ⟨tagHandle, tagFound, tagRead⟩ := structs zooTag 416 320 tag tagReads
  obtain ⟨catHandle, catFound, catRead⟩ := classes zooCat 264 192 cat catReads
  rw [tagLayout] at tagRead
  rw [catLayout] at catRead
  exact ⟨run_zoo, aligned, fits, tag, tagReads, cat, catReads, finished, tagHandle, catHandle,
    found, tagFound, tagRead, catFound, catRead⟩

end TypeReflection
