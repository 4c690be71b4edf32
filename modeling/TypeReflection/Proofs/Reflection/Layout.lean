import TypeReflection.Proofs.Layout.Agreement
import TypeReflection.Proofs.Reflection.Opening
import TypeReflection.Proofs.Utf8

/-! # Layouts of emitted types

The layout of an emitted type is known from its definition. Readers find it as long as the kind
word stands for the type's shape and the declared size of the field records is one they accept.
-/

namespace TypeReflection

variable {memory : Memory} {base : Address} {metadata place : Nat}

/-- The layout of a field with the given offset. -/
def FieldDefinition.layout (field : FieldDefinition) (offset : Option UInt32) : FieldLayout where
  name := cutAtNul field.name
  offset := offset
  typeName := field.typeName.map fun bytes => EncodedName.shown ⟨EncodedName.cut bytes⟩
  flags := field.flags

namespace NominalDefinition

/-- The layouts of the fields, in order. They are shown by field descriptors only. -/
def fieldLayouts (definition : NominalDefinition) (offsets : Option (List UInt32)) :
    List FieldLayout :=
  if definition.hasFieldDescriptor then
    definition.fields.zipIdx.map fun (field, index) => field.layout (offsets.bind (·[index]?))
  else
    []

/-- What readers ask of the definition of a type of the given shape. -/
structure IsReadable (definition : NominalDefinition) (kind : TypeKind) : Prop where
  fieldCount_lt : definition.fields.length < UInt32.size
  shape_eq : definition.shape? kind = some kind
  recordSize_fits : definition.hasFieldDescriptor = true →
    Format.FieldRecord.size ≤ definition.recordSize.toNat ∧
      Format.descriptorAlignment ∣ definition.recordSize.toNat

theorem IsReadable.isRecordSize {definition : NominalDefinition} {kind : TypeKind}
    (readable : definition.IsReadable kind) (present : definition.hasFieldDescriptor = true) :
    FieldDescriptor.isRecordSize definition.recordSize = true := by
  obtain ⟨large, multiple⟩ := readable.recordSize_fits present
  rw [FieldDescriptor.isRecordSize, Bool.and_eq_true, decide_eq_true_eq, beq_iff_eq]
  exact ⟨large, Nat.mod_eq_zero_of_dvd multiple⟩

end NominalDefinition

/-- The layout of a struct with the given qualified name. -/
def StructDefinition.layout (definition : StructDefinition) (qualifiedName : String) :
    TypeLayout where
  kind := .structType
  name := some (cutAtNul definition.nominal.name)
  qualifiedName := some qualifiedName
  fieldCount := some definition.nominal.fields.length
  superclass := none
  fields := definition.nominal.fieldLayouts definition.offsets

/-- The layout of a class with the given qualified name and that of its superclass. All that is
    reached through the descriptor is missing if the metadata does not point to it. -/
def ClassDefinition.layout (definition : ClassDefinition) (qualifiedName : String)
    (superclass : Option String) : TypeLayout where
  kind := .classType
  name := if definition.isLinked then some (cutAtNul definition.nominal.name) else none
  qualifiedName := if definition.isLinked then some qualifiedName else none
  fieldCount := none
  superclass := superclass
  fields := if definition.isLinked then definition.nominal.fieldLayouts none else []

/-! ## Fields -/

theorem FieldLayout.ofRecord_record (field : FieldDefinition) (offset : Option UInt32) :
    FieldLayout.ofRecord field.record offset = field.layout offset := by
  have named : utf8Lossy (readBack field.name) = cutAtNul field.name := utf8Lossy_cut field.name
  simp only [ofRecord, FieldDefinition.layout, FieldDefinition.record, FieldRecord.nameText, named,
    Option.map_map]
  rfl

theorem FieldDescriptor.readRecords_eq {descriptor : FieldDescriptor}
    {fields : List FieldDefinition} {start : Nat}
    (each : ∀ index (inside : index < fields.length),
      descriptor.readRecord memory (start + index) = .ok fields[index].record) :
    descriptor.readRecords memory start fields.length
      = .ok (fields.map FieldDefinition.record) := by
  induction fields generalizing start with
  | nil => rfl
  | cons field fields ih =>
      have rest := ih fun index inside => by
        have next := each (index + 1) (Nat.succ_lt_succ inside)
        rwa [List.getElem_cons_succ, Nat.add_comm index, ← Nat.add_assoc] at next
      refine bind_eq_ok.mpr ⟨field.record, each 0 (Nat.zero_lt_succ _), ?_⟩
      exact bind_eq_ok.mpr ⟨_, rest, rfl⟩

section

variable {definition : NominalDefinition} {kind : FieldDescriptorKind}
  {superclassName : Option (List UInt8)} {shape : TypeKind} {vector : Option Slice}
  {offsets : Option (List UInt32)} (readable : definition.IsReadable shape)
  (vector_eq : ∀ index, index < definition.fields.length →
    TypeLayout.offsetOf vector memory index = .ok (offsets.bind (·[index]?)))

include readable vector_eq

theorem FieldDescriptor.Shows.fieldsOf_eq {descriptor : FieldDescriptor}
    (shows : descriptor.Shows memory definition kind superclassName)
    (present : definition.hasFieldDescriptor = true) :
    TypeLayout.fieldsOf descriptor vector memory = .ok (definition.fieldLayouts offsets) := by
  have count := shows.fieldCount_eq
  rw [Nat.mod_eq_of_lt readable.fieldCount_lt] at count
  have records : descriptor.records memory
      = .ok (definition.fields.map FieldDefinition.record) := by
    refine bind_eq_ok.mpr ⟨_, bind_eq_ok.mpr ⟨_, count, rfl⟩, ?_⟩
    refine readRecords_eq fun index inside => ?_
    rw [Nat.zero_add]
    exact shows.record_eq (readable.isRecordSize present) index inside
  refine bind_eq_ok.mpr ⟨_, records, ?_⟩
  rw [List.zipIdx_map, List.mapM_map, NominalDefinition.fieldLayouts, if_pos present]
  refine mapM_eq_ok fun ⟨field, index⟩ member => ?_
  have inside : index < definition.fields.length := by
    have bound := List.snd_lt_add_of_mem_zipIdx member
    omega
  refine map_eq_ok.mpr ⟨_, vector_eq index inside, ?_⟩
  exact FieldLayout.ofRecord_record field _

/-- The fields of a type are read from its field descriptor, if it has one. -/
theorem TypeContext.Shows.fields_read {type : TypeContext}
    (shows : type.Shows memory definition kind superclassName) :
    ∃ descriptor, type.checkFields memory = .ok descriptor ∧
      TypeLayout.fieldsOf? descriptor vector memory = .ok (definition.fieldLayouts offsets) := by
  rcases shows.fields_eq with ⟨absent, none⟩ | ⟨descriptor, present, shown, some⟩
  · refine ⟨_, none, ?_⟩
    rw [NominalDefinition.fieldLayouts, absent]
    rfl
  · rw [shown.check_eq, if_pos (readable.isRecordSize present)] at some
    exact ⟨_, some, shown.fieldsOf_eq readable vector_eq present⟩

end

/-! ## Structs -/

namespace StructDefinition.Shows

variable {definition : StructDefinition} (shows : definition.Shows memory base metadata place)
  (readable : definition.nominal.IsReadable .structType)
  (room : base.bits.toNat + metadata + 2 * Format.wordSize < UInt64.size)

include shows readable room

/-- The offset vector has the given offsets, if any are given. -/
theorem offsetVector_read :
    ∃ vector, StructType.fieldOffsets ⟨⟨base.past metadata⟩, ⟨⟨⟨base.past place⟩⟩⟩⟩ memory
        = .ok vector ∧
      ∀ index, index < definition.nominal.fields.length →
        TypeLayout.offsetOf vector memory index = .ok (definition.offsets.bind (·[index]?)) := by
  cases given : definition.offsets with
  | none => exact ⟨none, shows.fieldOffsets_none given, fun _ _ => rfl⟩
  | some offsets =>
      have start := Address.toNat_past (show base.bits.toNat + metadata < UInt64.size by omega)
      have moved : (base.past metadata).add (.ofNat (2 * Format.wordSize))
          = .ok ((base.past metadata).past (2 * Format.wordSize)) :=
        Address.add_eq_past (by rw [start]; exact room)
      have vector := shows.fieldOffsets_some given
      rw [moved, Nat.mod_eq_of_lt readable.fieldCount_lt] at vector
      refine ⟨_, vector, fun index inside => ?_⟩
      have reaches : index < offsets.length := by
        rw [shows.offsets_length offsets given]
        exact inside
      rw [TypeLayout.offsetOf, Slice.get?, if_pos inside,
        shows.element_eq given moved _ reaches, Option.bind_some,
        List.getElem?_eq_getElem reaches, map_ok, map_ok, Option.map_some, UInt32.ofNat_toNat]

theorem layout_read {parent : Option Context} {name : Option (List UInt8)}
    {qualifiedName : String}
    (context : (⟨base.past place⟩ : Context).Shows memory .structType parent name)
    (named : (⟨base.past place⟩ : Context).qualifiedName memory = .ok qualifiedName) :
    TypeLayout.ofHandle ⟨base.past metadata⟩ memory = .ok (definition.layout qualifiedName) := by
  obtain ⟨vector, offsets, entries⟩ := shows.offsetVector_read readable room
  obtain ⟨descriptor, fields, layouts⟩ := shows.type_shows.fields_read readable entries
  have kind := TypeHandle.checkTypeKind_eq_ok shows.kindWord_eq readable.shape_eq
  have type := shows.check_eq_ok context readable.shape_eq
  have count := shows.fieldCount_eq
  rw [Nat.mod_eq_of_lt readable.fieldCount_lt] at count
  refine bind_eq_ok.mpr ⟨.ofStruct _, bind_eq_ok.mpr ⟨_, kind, map_eq_ok.mpr ⟨_, type, rfl⟩⟩, ?_⟩
  rw [layout, ← utf8Lossy_cut, ← Option.map_some]
  exact TypeLayout.ofType_eq_ok offsets fields layouts rfl rfl
    (map_eq_ok.mpr ⟨_, shows.type_shows.name_eq, rfl⟩) (map_eq_ok.mpr ⟨_, named, rfl⟩)
    (map_eq_ok.mpr ⟨_, count, rfl⟩)

end StructDefinition.Shows

/-! ## Classes -/

namespace ClassDefinition.Shows

variable {definition : ClassDefinition} (shows : definition.Shows memory base metadata place)
  (readable : definition.nominal.IsReadable .classType)

include shows readable

theorem layout_read {parent : Option Context} {name : Option (List UInt8)}
    {qualifiedName : String} {superclass : Option ClassType} {superclassText : Option String}
    (context : (⟨base.past place⟩ : Context).Shows memory .classType parent name)
    (named : (⟨base.past place⟩ : Context).qualifiedName memory = .ok qualifiedName)
    (above : (ReflectedType.ofClass (definition.view base metadata place)).checkSuperclass memory
      = .ok superclass)
    (aboveNamed : TypeLayout.superclassName superclass memory = .ok superclassText) :
    TypeLayout.ofHandle ⟨base.past metadata⟩ memory
      = .ok (definition.layout qualifiedName superclassText) := by
  have kind := TypeHandle.checkTypeKind_eq_ok shows.kindWord_eq readable.shape_eq
  have type := shows.check_eq_ok context readable.shape_eq
  refine bind_eq_ok.mpr ⟨.ofClass _, bind_eq_ok.mpr ⟨_, kind, map_eq_ok.mpr ⟨_, type, rfl⟩⟩, ?_⟩
  cases linked : definition.isLinked with
  | false =>
      have bare : definition.view base metadata place = ⟨⟨base.past metadata⟩, none⟩ := by
        rw [view, linked]
        rfl
      have empty : definition.layout qualifiedName superclassText
          = ⟨.classType, none, none, none, superclassText, []⟩ := by
        rw [layout, linked]
        rfl
      rw [bare] at above ⊢
      rw [empty]
      exact TypeLayout.ofType_eq_ok rfl rfl rfl above aboveNamed rfl rfl rfl
  | true =>
      have full : definition.view base metadata place
          = ⟨⟨base.past metadata⟩, some ⟨⟨⟨base.past place⟩⟩⟩⟩ := by
        rw [view, linked]
        rfl
      have whole : definition.layout qualifiedName superclassText
          = ⟨.classType, (some (readBack definition.nominal.name)).map utf8Lossy,
            some qualifiedName, none, superclassText, definition.nominal.fieldLayouts none⟩ := by
        rw [layout, linked, Option.map_some, readBack, utf8Lossy_cut]
        rfl
      have unplaced : ∀ index, index < definition.nominal.fields.length →
          TypeLayout.offsetOf none memory index
            = .ok ((none : Option (List UInt32)).bind (·[index]?)) := fun _ _ => rfl
      obtain ⟨descriptor, fields, layouts⟩ := shows.type_shows.fields_read readable unplaced
      rw [full] at above ⊢
      rw [whole]
      exact TypeLayout.ofType_eq_ok rfl fields layouts above aboveNamed
        (map_eq_ok.mpr ⟨_, shows.type_shows.name_eq, rfl⟩) (map_eq_ok.mpr ⟨_, named, rfl⟩) rfl

end ClassDefinition.Shows

end TypeReflection
