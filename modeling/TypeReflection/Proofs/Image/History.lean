import TypeReflection.Proofs.Image.Emission

/-! # Histories of builders

A builder has emitted one entry after the other. `Run` relates the entries, the last one first, to
the builder that emitted them; a definition refers to earlier entries by the symbols issued for
them, and to nothing else, since symbols are made by builders only.
-/

namespace TypeReflection

/-- An emitted declaration: its definition, and where its records stand. -/
inductive Entry where
  | module (name : String) (place : Nat)
  | extension (parent : Symbol) (place : Nat)
  | structType (definition : StructDefinition) (metadata place : Nat)
  | classType (definition : ClassDefinition) (metadata place : Nat)
  deriving DecidableEq

namespace Entry

/-- The entry of a declaration and of the symbols issued for it. -/
def of? : Declaration → Issued → Option Entry
  | .module name, .context symbol => some (.module name symbol.offset)
  | .extension parent, .context symbol => some (.extension parent symbol.offset)
  | .structType name settings, .type metadata descriptor =>
      (StructDefinition.ofSettings name settings).toOption.map
        (.structType · metadata.offset descriptor.offset)
  | .classType name settings, .type metadata descriptor =>
      (ClassDefinition.ofSettings name settings).toOption.map
        (.classType · metadata.offset descriptor.offset)
  | _, _ => none

/-- The entries of declarations, in order. -/
def all? : List Declaration → List Issued → Option (List Entry)
  | [], [] => some []
  | declaration :: declarations, issued :: rest => do
      let entry ← of? declaration issued
      let entries ← all? declarations rest
      return entry :: entries
  | _, _ => none

/-- Where the context descriptor stands. -/
def place : Entry → Nat
  | .module _ place | .extension _ place | .structType _ _ place | .classType _ _ place => place

/-- The symbols issued for the entry, in the image with the given number. -/
def symbols (image : UInt32) : Entry → List Symbol
  | .module _ place | .extension _ place => [⟨image, place, .context⟩]
  | .structType _ metadata place =>
      [⟨image, metadata, .structMetadata⟩, ⟨image, place, .context⟩]
  | .classType _ metadata place =>
      [⟨image, metadata, .classMetadata⟩, ⟨image, place, .context⟩]

/-- The enclosing context. -/
def parent? : Entry → Option Symbol
  | .module _ _ => none
  | .extension parent _ => some parent
  | .structType definition _ _ => definition.nominal.parent.map ParentReference.context
  | .classType definition _ _ => definition.nominal.parent.map ParentReference.context

/-- The metadata of the superclass. -/
def superclass? : Entry → Option Symbol
  | .classType definition _ _ => definition.superclass.map Prod.fst
  | _ => none

/-- The symbols that the definition refers to. -/
def mentioned (entry : Entry) : List Symbol :=
  entry.parent?.toList ++ entry.superclass?.toList

end Entry

/-- The symbols issued for the entries. -/
def issuedSymbols (image : UInt32) (entries : List Entry) : List Symbol :=
  entries.flatMap (Entry.symbols image)

/-- The builder of the image with the given number has emitted the entries, the last one first. -/
inductive Run (image : UInt32) : List Entry → Builder → Prop where
  | empty : Run image [] (.empty image)
  | declare {entries : List Entry} {entry : Entry} {builder next : Builder}
      {declaration : Declaration} {issued : Issued} :
      Run image entries builder →
      builder.declare declaration = .ok (next, issued) →
      Entry.of? declaration issued = some entry →
      (∀ symbol ∈ entry.mentioned, symbol ∈ issuedSymbols image entries) →
      Run image (entry :: entries) next

/-- Whether the later entries refer to symbols of entries before them. -/
def usesOwnSymbols (image : UInt32) : (earlier later : List Entry) → Bool
  | _, [] => true
  | earlier, entry :: later =>
      entry.mentioned.all (issuedSymbols image earlier).contains &&
        usesOwnSymbols image (entry :: earlier) later

/-- What is emitted for an entry, behind an image of `size` bytes. -/
inductive Emits (image : UInt32) (size : Nat) : Entry → Emission → Prop where
  | module {name : String} {emission : Emission} : emitModule size name = .ok emission →
      Emits image size (.module name (alignUp size Format.descriptorAlignment)) emission
  | extension {parent : Symbol} {emission : Emission} :
      emitExtension image size parent = .ok emission →
      Emits image size (.extension parent (alignUp size Format.descriptorAlignment)) emission
  | structType {name : String} {settings : List StructSetting} {definition : StructDefinition}
      {type : EmittedType} : StructDefinition.ofSettings name settings = .ok definition →
      definition.emit image size = .ok type →
      Emits image size (.structType definition type.metadata type.descriptor) type.emission
  | classType {name : String} {settings : List ClassSetting} {definition : ClassDefinition}
      {type : EmittedType} : ClassDefinition.ofSettings name settings = .ok definition →
      definition.emit image size = .ok type →
      Emits image size (.classType definition type.metadata type.descriptor) type.emission

/-- A declaration appends what is emitted for its entry, and the symbols are those of the entry. -/
theorem Builder.declare_eq_ok {builder next : Builder} {declaration : Declaration}
    {issued : Issued} (declared : builder.declare declaration = .ok (next, issued)) :
    ∃ entry emission, Entry.of? declaration issued = some entry ∧
      Emits builder.image builder.bytes.length entry emission ∧
      next = builder.append emission ∧ issued.symbols = entry.symbols builder.image := by
  cases declaration with
  | module name =>
      obtain ⟨emission, emitted, same⟩ := bind_eq_ok.mp declared
      cases same
      exact ⟨_, emission, rfl, .module emitted, rfl, rfl⟩
  | extension parent =>
      obtain ⟨emission, emitted, same⟩ := bind_eq_ok.mp declared
      cases same
      exact ⟨_, emission, rfl, .extension emitted, rfl, rfl⟩
  | structType name settings =>
      obtain ⟨definition, defined, rest⟩ := bind_eq_ok.mp declared
      obtain ⟨type, emitted, same⟩ := bind_eq_ok.mp rest
      cases same
      refine ⟨.structType definition type.metadata type.descriptor, type.emission, ?_,
        .structType defined emitted, rfl, rfl⟩
      simp [Entry.of?, defined, Except.toOption]
  | classType name settings =>
      obtain ⟨definition, defined, rest⟩ := bind_eq_ok.mp declared
      obtain ⟨type, emitted, same⟩ := bind_eq_ok.mp rest
      cases same
      refine ⟨.classType definition type.metadata type.descriptor, type.emission, ?_,
        .classType defined emitted, rfl, rfl⟩
      simp [Entry.of?, defined, Except.toOption]

theorem Builder.declareAll_cons_eq_ok {builder final : Builder} {declaration : Declaration}
    {declarations : List Declaration} {issued : List Issued} :
    builder.declareAll (declaration :: declarations) = .ok (final, issued) ↔
      ∃ next one others, builder.declare declaration = .ok (next, one) ∧
        next.declareAll declarations = .ok (final, others) ∧ issued = one :: others := by
  constructor
  · intro declared
    obtain ⟨⟨next, one⟩, emitted, later⟩ := bind_eq_ok.mp declared
    obtain ⟨⟨last, others⟩, continued, same⟩ := bind_eq_ok.mp later
    cases same
    exact ⟨next, one, others, emitted, continued, rfl⟩
  · rintro ⟨next, one, others, emitted, continued, rfl⟩
    exact bind_eq_ok.mpr ⟨(next, one), emitted, bind_eq_ok.mpr ⟨(final, others), continued, rfl⟩⟩

theorem Entry.all?_cons {declaration : Declaration} {declarations : List Declaration}
    {one : Issued} {issued : List Issued} {entry : Entry} {entries : List Entry}
    (first : of? declaration one = some entry) (others : all? declarations issued = some entries) :
    all? (declaration :: declarations) (one :: issued) = some (entry :: entries) := by
  simp [all?, first, others]

namespace Emits

variable {image : UInt32} {size : Nat} {entry : Entry} {emission : Emission}
  (emits : Emits image size entry emission)

include emits

theorem relocates (base : UInt64) : ∃ final,
    Relocates base size emission.bytes emission.relocations final := by
  cases emits with
  | module emitted =>
      obtain ⟨_, _, rfl⟩ := emitModule_eq_ok emitted
      exact ⟨_, .plain ..⟩
  | extension emitted =>
      obtain ⟨_, _, _, _, rfl⟩ := emitExtension_eq_ok emitted
      exact ⟨_, .plain ..⟩
  | structType _ emitted =>
      obtain ⟨_, _, _, parts⟩ := StructDefinition.emit_eq_ok emitted
      exact ⟨_, parts.relocates base⟩
  | classType _ emitted =>
      obtain ⟨_, _, _, _, _, parts⟩ := ClassDefinition.emit_eq_ok emitted
      exact ⟨_, parts.relocates base⟩

/-- Pointers lead to what the definition refers to, or to the entry itself. -/
theorem targets : ∀ relocation ∈ emission.relocations,
    ∃ symbol ∈ entry.mentioned ++ entry.symbols image, relocation.target = symbol.offset := by
  cases emits with
  | module emitted =>
      obtain ⟨_, _, rfl⟩ := emitModule_eq_ok emitted
      exact List.forall_mem_nil _
  | extension emitted =>
      obtain ⟨_, _, _, _, rfl⟩ := emitExtension_eq_ok emitted
      exact List.forall_mem_nil _
  | structType _ emitted =>
      obtain ⟨parent, _, _, parts⟩ := StructDefinition.emit_eq_ok emitted
      rw [parts.relocations_eq]
      refine List.forall_mem_append.mpr ⟨fun relocation member => ?_, ?_⟩
      · obtain ⟨reference, found, target⟩ := parts.parent_links.targets relocation member
        refine ⟨reference.context, ?_, target⟩
        simp [Entry.mentioned, Entry.parent?, Option.mem_def.mp found]
      · rw [List.forall_mem_singleton]
        exact ⟨⟨image, _, .context⟩, by simp [Entry.symbols], rfl⟩
  | classType _ emitted =>
      obtain ⟨superclass, parent, _, _, _, parts⟩ := ClassDefinition.emit_eq_ok emitted
      have above := ClassDefinition.superclassPosition_eq_ok parts.superclass_eq
      rw [parts.relocations_eq, ClassDefinition.relocations_eq_map]
      refine List.forall_mem_append.mpr ⟨fun relocation member => ?_,
        List.forall_mem_append.mpr ⟨?_, ?_⟩⟩
      · obtain ⟨reference, found, target⟩ := parts.parent_links.targets relocation member
        refine ⟨reference.context, ?_, target⟩
        simp [Entry.mentioned, Entry.parent?, Option.mem_def.mp found]
      · cases superclass with
        | none => exact List.forall_mem_nil _
        | some offset =>
            refine List.forall_mem_singleton.mpr ⟨⟨image, offset, .classMetadata⟩, ?_, rfl⟩
            simp [Entry.mentioned, Entry.superclass?, above]
      · unfold ClassDefinition.linkedDescriptor
        split
        · refine List.forall_mem_singleton.mpr ⟨⟨image, _, .context⟩, ?_, rfl⟩
          simp [Entry.symbols]
        · exact List.forall_mem_nil _

/-- The symbols stand for places in the new bytes. -/
theorem inside : ∀ symbol ∈ entry.symbols image,
    size ≤ symbol.offset ∧ symbol.offset < size + emission.bytes.length := by
  have start := le_alignUp size (by decide : 0 < Format.descriptorAlignment)
  have front := add_length_padding size (by decide : 0 < Format.descriptorAlignment)
  cases emits with
  | module emitted =>
      obtain ⟨_, _, rfl⟩ := emitModule_eq_ok emitted
      simp only [Entry.symbols, List.forall_mem_singleton, List.length_append,
        length_storedOffset]
      omega
  | extension emitted =>
      obtain ⟨_, _, _, _, rfl⟩ := emitExtension_eq_ok emitted
      simp only [Entry.symbols, List.forall_mem_singleton, List.length_append,
        length_storedOffset]
      omega
  | structType _ emitted =>
      obtain ⟨_, _, _, parts⟩ := StructDefinition.emit_eq_ok emitted
      have ordered := parts.ordered
      have word : Format.wordSize = 8 := rfl
      refine List.forall_mem_cons.mpr ⟨?_, List.forall_mem_singleton.mpr ?_⟩
      · dsimp only
        omega
      · dsimp only
        omega
  | classType _ emitted =>
      obtain ⟨_, _, _, _, _, parts⟩ := ClassDefinition.emit_eq_ok emitted
      have ordered := parts.ordered
      refine List.forall_mem_cons.mpr ⟨?_, List.forall_mem_singleton.mpr ?_⟩
      · dsimp only
        omega
      · dsimp only
        omega

end Emits

namespace Run

variable {image : UInt32} {entries : List Entry} {builder : Builder}

theorem image_eq (run : Run image entries builder) : builder.image = image := by
  induction run with
  | empty => rfl
  | declare _ declared _ _ ih =>
      obtain ⟨_, _, _, _, rfl, _⟩ := Builder.declare_eq_ok declared
      exact ih

/-- What holds at the start and is kept by each emission holds of every run. -/
@[elab_as_elim]
theorem keeps {motive : ∀ entries builder, Run image entries builder → Prop}
    (empty : motive [] (.empty image) .empty)
    (step : ∀ entries builder entry emission (run : Run image entries builder)
      (next : Run image (entry :: entries) (builder.append emission)),
      Emits image builder.bytes.length entry emission →
      (∀ symbol ∈ entry.mentioned, symbol ∈ issuedSymbols image entries) →
      motive entries builder run → motive (entry :: entries) (builder.append emission) next)
    (run : Run image entries builder) : motive entries builder run := by
  induction run with
  | empty => exact empty
  | declare run declared found own ih =>
      obtain ⟨entry, emission, same, emits, rfl, _⟩ := Builder.declare_eq_ok declared
      cases Option.some.inj (found.symm.trans same)
      exact step _ _ _ _ run (.declare run declared found own) (run.image_eq ▸ emits) own ih

/-- Every program that succeeds continues a run, if it uses symbols of the run only. -/
theorem of_declareAll {declarations : List Declaration} {result : Builder × List Issued}
    (declared : builder.declareAll declarations = .ok result) :
    ∃ later, Entry.all? declarations result.2 = some later ∧
      (Run image entries builder → usesOwnSymbols image entries later = true →
        Run image (later.reverse ++ entries) result.1) := by
  induction declarations generalizing entries builder result with
  | nil =>
      cases declared
      exact ⟨[], rfl, fun run _ => run⟩
  | cons declaration declarations ih =>
      obtain ⟨last, issued⟩ := result
      obtain ⟨_, _, _, emitted, continued, rfl⟩ := Builder.declareAll_cons_eq_ok.mp declared
      obtain ⟨entry, _, found, _⟩ := Builder.declare_eq_ok emitted
      obtain ⟨later, all, continues⟩ := ih continued
      refine ⟨entry :: later, Entry.all?_cons found all, fun run own => ?_⟩
      rw [usesOwnSymbols, Bool.and_eq_true] at own
      have known : ∀ symbol ∈ entry.mentioned, symbol ∈ issuedSymbols image entries := by
        simpa using own.1
      rw [List.reverse_cons, List.append_assoc]
      exact continues (.declare run emitted found known) own.2

theorem of_program {declarations : List Declaration} {result : Builder × List Issued}
    (declared : (Builder.empty image).declareAll declarations = .ok result)
    (all : Entry.all? declarations result.2 = some entries)
    (own : usesOwnSymbols image [] entries = true) :
    Run image entries.reverse result.1 := by
  have program : ∃ later, Entry.all? declarations result.2 = some later ∧
      (Run image [] (.empty image) → usesOwnSymbols image [] later = true →
        Run image (later.reverse ++ []) result.1) := of_declareAll declared
  obtain ⟨later, found, continues⟩ := program
  cases found.symm.trans all
  simpa using continues .empty own

theorem relocates (run : Run image entries builder) (base : UInt64) : ∃ final,
    Relocates base 0 builder.bytes builder.relocations final := by
  induction run using keeps with
  | empty => exact ⟨[], .plain 0 []⟩
  | step entries builder entry emission _ _ emits own ih =>
      obtain ⟨before, first⟩ := ih
      obtain ⟨behind, second⟩ := emits.relocates base
      exact ⟨before ++ behind, first.append (second.of_eq (Nat.zero_add _).symm)⟩

theorem targets (run : Run image entries builder) : ∀ relocation ∈ builder.relocations,
    ∃ symbol ∈ issuedSymbols image entries, relocation.target = symbol.offset := by
  induction run using keeps with
  | empty => exact List.forall_mem_nil _
  | step entries builder entry emission _ _ emits own ih =>
      refine List.forall_mem_append.mpr ⟨fun relocation member => ?_, fun relocation member => ?_⟩
      · obtain ⟨symbol, issued, target⟩ := ih relocation member
        exact ⟨symbol, List.mem_append_right _ issued, target⟩
      · obtain ⟨symbol, known, target⟩ := emits.targets relocation member
        refine ⟨symbol, ?_, target⟩
        rcases List.mem_append.mp known with mentioned | own'
        · exact List.mem_append_right _ (own symbol mentioned)
        · exact List.mem_append_left _ own'

theorem inside (run : Run image entries builder) :
    ∀ symbol ∈ issuedSymbols image entries, symbol.offset < builder.bytes.length := by
  induction run using keeps with
  | empty => exact List.forall_mem_nil _
  | step entries builder entry emission _ _ emits own ih =>
      rw [Builder.append, List.length_append]
      refine List.forall_mem_append.mpr ⟨fun symbol member => ?_, fun symbol member => ?_⟩
      · exact (emits.inside symbol member).2
      · have := ih symbol member
        omega

/-- The two words that all struct metadata has lie in the image. -/
theorem struct_inside (run : Run image entries builder) {definition : StructDefinition}
    {metadata place : Nat} (member : .structType definition metadata place ∈ entries) :
    metadata + 2 * Format.wordSize ≤ builder.bytes.length := by
  induction run using keeps with
  | empty => cases member
  | step entries builder entry emission _ _ emits own ih =>
      rw [Builder.append, List.length_append]
      rcases List.mem_cons.mp member with rfl | earlier
      · cases emits with
        | structType _ emitted =>
            obtain ⟨_, _, _, parts⟩ := StructDefinition.emit_eq_ok emitted
            exact parts.ordered.2.2
      · have := ih earlier
        omega

end Run

/-! ## A program -/

/-- A module with a class, a subclass of it and a struct. -/
def zoo : List Declaration :=
  [ .module "Zoo",
    .classType "Animal"
      [ .nominal (.parent (.indirect ⟨0, 0, .context⟩)),
        .nominal (.field ⟨"legs", some [0x53], ⟨2⟩⟩) ],
    .classType "Cat"
      [ .nominal (.parent (.direct ⟨0, 0, .context⟩)),
        .superclass ⟨0, 136, .classMetadata⟩ [0x43], .nominal .withoutFieldDescriptor ],
    .structType "Tag"
      [ .nominal (.parent (.direct ⟨0, 0, .context⟩)), .offsets [0, 8],
        .nominal (.field ⟨"id", some [0x53], ⟨0⟩⟩),
        .nominal (.field ⟨"kind", some [1, 0, 0, 0, 0, 0x79], ⟨2⟩⟩) ] ]

/-- The builder after the program, and the symbols issued. -/
def zooResult : Builder × List Issued :=
  match (Builder.empty 0).declareAll zoo with
  | .ok result => result
  | .error _ => (.empty 0, [])

def zooEntries : List Entry :=
  match Entry.all? zoo zooResult.2 with
  | some entries => entries
  | none => []

theorem run_zoo : Run 0 zooEntries.reverse zooResult.1 := by
  have declared : (Builder.empty 0).declareAll zoo = .ok zooResult :=
    ok_of_toOption (by decide +kernel)
  have entries : Entry.all? zoo zooResult.2 = some zooEntries := by decide +kernel
  have own : usesOwnSymbols 0 [] zooEntries = true := by decide +kernel
  exact .of_program declared entries own

end TypeReflection
