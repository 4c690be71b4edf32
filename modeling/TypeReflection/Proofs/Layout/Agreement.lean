import TypeReflection.Layout.Basic
import TypeReflection.Proofs.Field.Enumeration
import TypeReflection.Proofs.Metadata.Faults
import TypeReflection.Proofs.Traversal

/-! # Layouts agree with the views

A layout is refused for the first thing that a check of the views refuses, and otherwise shows what
the views show, field by field. It stops only where one of the views stops that it is collected
from.
-/

namespace TypeReflection

/-! ## What a layout should show -/

/-- Where the offset of the field with this number stands, if it does: in the offset vector of a
    struct that counts so many fields. -/
def ReflectedType.OffsetStands (type : ReflectedType) (memory : Memory) (index : Nat)
    (place : UInt64) : Prop :=
  ∃ struct locator count, type = .ofStruct struct ∧
    struct.descriptor.offsetVectorLocator memory = .ok locator ∧ locator ≠ 0 ∧
    struct.descriptor.fieldCount memory = .ok count ∧ index < count ∧
    place = struct.handle.address.bits + .ofNat (8 * locator + 4 * index)

/-- The field is the one that the descriptor has with this number, placed where the type says. -/
structure FieldLayout.Shows (field : FieldLayout) (type : ReflectedType)
    (descriptor : FieldDescriptor) (memory : Memory) (index : Nat) : Prop where
  record : ∃ record, descriptor.record? memory index = .ok (some record) ∧
    field.name = record.nameText ∧ field.typeName = record.typeName.map EncodedName.shown ∧
    field.flags = record.flags
  offset_isSome : field.offset.isSome ↔ ∃ place, type.OffsetStands memory index place
  offset_eq : ∀ place offset, type.OffsetStands memory index place → field.offset = some offset →
    ofLittleEndian <$> memory.bytes place 4 = .ok offset.toNat

/-- One layout for each record that the descriptor declares, none where there is no descriptor. -/
def FieldLayout.ShowAll (layouts : List FieldLayout) (type : ReflectedType) (memory : Memory) :
    Option FieldDescriptor → Prop
  | some descriptor => descriptor.fieldCount memory = .ok layouts.length ∧
      ∀ index, ∀ field ∈ layouts[index]?, Shows field type descriptor memory index
  | none => layouts = []

/-- How many fields the descriptor of a struct counts. -/
def ReflectedType.IsFieldCount (memory : Memory) (count : Option Nat) : ReflectedType → Prop
  | .ofStruct type => ∃ stored, type.descriptor.fieldCount memory = .ok stored ∧
      count = some stored
  | .ofClass _ => count = none

/-- The qualified name that the descriptor of a class's immediate superclass gives, if there is a
    superclass and it has one. -/
def ReflectedType.IsSuperclassName (memory : Memory) (text : Option String) : ReflectedType → Prop
  | .ofStruct _ => text = none
  | .ofClass type => ∃ superclass, type.checkSuperclass memory = .ok superclass ∧
      (superclass.bind ClassType.descriptor).mapM
        (fun descriptor => descriptor.type.qualifiedName memory) = .ok text

/-- The layout shows what the views of the type do. The descriptor of a struct and its field
    descriptor each count the fields on their own. -/
structure TypeLayout.Shows (layout : TypeLayout) (type : ReflectedType) (memory : Memory) :
    Prop where
  kind : type.handle.checkTypeKind memory = .ok layout.kind
  name : ∃ name, type.name memory = .ok name ∧ layout.name = name.map utf8Lossy
  qualifiedName : type.qualifiedName memory = .ok layout.qualifiedName
  fieldCount : type.IsFieldCount memory layout.fieldCount
  superclass : type.IsSuperclassName memory layout.superclass
  fields : ∃ descriptor, type.checkFields memory = .ok descriptor ∧
    FieldLayout.ShowAll layout.fields type memory descriptor

/-! ## What a layout is collected from -/

/-- The first of the checks of the views that fails is this one. -/
inductive TypeHandle.FailsFirst (handle : TypeHandle) (memory : Memory)
    (error : MetadataError) : Prop where
  | metadata (rejected : ReflectedType.check handle memory = .error (.rejected error))
  | fields {type : ReflectedType} (accepted : ReflectedType.check handle memory = .ok type)
      (rejected : type.checkFields memory = .error (.rejected error))
  | superclass {type : ClassType} {fields : Option FieldDescriptor}
      (accepted : ReflectedType.check handle memory = .ok (.ofClass type))
      (passed : type.checkFields memory = .ok fields)
      (rejected : type.checkSuperclass memory = .error (.rejected error))

/-- None of the accessors of the type that a layout needs stops, each of them where the checks
    before it have passed. -/
structure ReflectedType.Answers (type : ReflectedType) (memory : Memory) : Prop where
  offsetVector : ∃ vector, type.offsetVector memory = .ok vector
  checkFields : ¬Faults (type.checkFields memory)
  records : ∀ descriptor, type.checkFields memory = .ok (some descriptor) →
    ∃ count, descriptor.Declares memory count
  entries : ∀ descriptor vector count, type.checkFields memory = .ok (some descriptor) →
    type.offsetVector memory = .ok (some vector) → descriptor.fieldCount memory = .ok count →
    ∀ index < count, ∃ entry, vector.get? memory index = .ok entry
  checkSuperclass : ∀ fields, type.checkFields memory = .ok fields →
    ¬Faults (type.checkSuperclass memory)
  superclassName : ∀ fields superclass, type.checkFields memory = .ok fields →
    type.checkSuperclass memory = .ok (some superclass) →
    ∃ text, superclass.qualifiedName memory = .ok text
  names : ∀ fields superclass, type.checkFields memory = .ok fields →
    type.checkSuperclass memory = .ok superclass →
    (∃ name, type.name memory = .ok name) ∧
      (∃ text, type.qualifiedName memory = .ok text) ∧
      ∃ count, type.fieldCount? memory = .ok count

/-- None of the accessors that a layout needs stops. -/
structure TypeHandle.Answers (handle : TypeHandle) (memory : Memory) : Prop where
  check : ¬Faults (ReflectedType.check handle memory)
  accessors : ∀ type, ReflectedType.check handle memory = .ok type → type.Answers memory

variable {handle : TypeHandle} {memory : Memory}

/-! ## Numbers -/

theorem ofLittleEndian_lt (stored : List UInt8) :
    ofLittleEndian stored < capacity stored.length := by
  induction stored with
  | nil => exact Nat.zero_lt_one
  | cons byte bytes ih =>
    have low := byte.toNat_lt
    simp only [ofLittleEndian, List.length_cons, capacity]
    omega

theorem Memory.length_of_bytes {address : UInt64} {count : Nat} {stored : List UInt8}
    (given : memory.bytes address count = .ok stored) : stored.length = count := by
  induction count generalizing address stored with
  | zero =>
    cases given
    rfl
  | succ count ih =>
    obtain ⟨first, -, rest⟩ := bind_eq_ok.mp given
    obtain ⟨others, read, joined⟩ := bind_eq_ok.mp rest
    cases joined
    rw [List.length_cons, ih read]

/-! ## Offsets -/

/-- The offset vector of a struct has an entry for each field that the struct counts. -/
theorem StructType.fieldOffsets_cases {type : StructType} {vector : Option Slice}
    (given : type.fieldOffsets memory = .ok vector) :
    ∃ locator, type.descriptor.offsetVectorLocator memory = .ok locator ∧
      (locator = 0 ∧ vector = none ∨
        locator ≠ 0 ∧ ∃ start count, type.descriptor.fieldCount memory = .ok count ∧
          start.bits = type.handle.address.bits + .ofNat (8 * locator) ∧
          vector = some ⟨.u32, start, count⟩) := by
  obtain ⟨locator, located, rest⟩ := bind_eq_ok.mp given
  refine ⟨locator, located, ?_⟩
  split at rest
  case isTrue zero =>
    cases rest
    exact .inl ⟨zero, rfl⟩
  case isFalse present =>
    obtain ⟨start, moved, rest⟩ := bind_eq_ok.mp rest
    obtain ⟨count, counted, rest⟩ := bind_eq_ok.mp rest
    obtain ⟨slice, placed, rfl⟩ := map_eq_ok.mp rest
    refine .inr ⟨present, start, count, counted, ?_, ?_⟩
    · rw [Address.bits_of_add moved, Nat.mul_comm]
      rfl
    · unfold Slice.of at placed
      split at placed
      case isTrue =>
        cases placed
        rfl
      case isFalse => cases placed

theorem Slice.u32_get?_eq_ok {start : Address} {count index : Nat} {entry : Option Nat}
    (given : Slice.get? ⟨.u32, start, count⟩ memory index = .ok entry) :
    (entry.isSome ↔ index < count) ∧
      ∀ bits, entry = some bits →
        ofLittleEndian <$> memory.bytes (start.bits + .ofNat (4 * index)) 4 = .ok bits := by
  unfold Slice.get? at given
  split at given
  case isTrue inside =>
    obtain ⟨bits, read, rfl⟩ := map_eq_ok.mp given
    refine ⟨by simpa using inside, ?_⟩
    rintro _ ⟨⟩
    exact read
  case isFalse outside =>
    cases given
    exact ⟨by simpa using outside, nofun⟩

/-- The number read is one that its bytes can hold. -/
theorem Memory.lt_of_bytes {place : UInt64} {bits count : Nat}
    (read : ofLittleEndian <$> memory.bytes place count = .ok bits) : bits < capacity count := by
  obtain ⟨stored, given, rfl⟩ := map_eq_ok.mp read
  rw [← Memory.length_of_bytes given]
  exact ofLittleEndian_lt stored

/-- In a struct that has an offset vector, the offset of each field that it counts stands. -/
theorem StructType.offsetStands_iff {type : StructType} {locator count index : Nat}
    {place : UInt64} (located : type.descriptor.offsetVectorLocator memory = .ok locator)
    (nonzero : locator ≠ 0) (counted : type.descriptor.fieldCount memory = .ok count) :
    (ReflectedType.ofStruct type).OffsetStands memory index place ↔
      index < count ∧ place = type.handle.address.bits + .ofNat (8 * locator + 4 * index) := by
  constructor
  · rintro ⟨struct, locator', count', ⟨⟩, located', -, counted', inside, stands⟩
    obtain rfl := Except.ok.inj (located'.symm.trans located)
    obtain rfl := Except.ok.inj (counted'.symm.trans counted)
    exact ⟨inside, stands⟩
  · rintro ⟨inside, stands⟩
    exact ⟨type, locator, count, rfl, located, nonzero, counted, inside, stands⟩

/-- An offset is the one that stands in the offset vector, if one stands there. -/
theorem ReflectedType.offset_of_vector {type : ReflectedType} {vector : Option Slice} {index : Nat}
    {offset : Option UInt32} (vectorRead : type.offsetVector memory = .ok vector)
    (read : TypeLayout.offsetOf vector memory index = .ok offset) :
    (offset.isSome ↔ ∃ place, type.OffsetStands memory index place) ∧
      ∀ place entry, type.OffsetStands memory index place → offset = some entry →
        ofLittleEndian <$> memory.bytes place 4 = .ok entry.toNat := by
  cases type with
  | ofClass type =>
    cases vectorRead
    cases read
    refine ⟨⟨nofun, ?_⟩, nofun⟩
    rintro ⟨place, struct, locator, count, isStruct, -⟩
    cases isStruct
  | ofStruct type =>
    obtain ⟨locator, located, absent | present⟩ := StructType.fieldOffsets_cases vectorRead
    · obtain ⟨rfl, rfl⟩ := absent
      cases read
      refine ⟨⟨nofun, ?_⟩, nofun⟩
      rintro ⟨place, struct, locator, count, ⟨⟩, same, nonzero, -⟩
      exact absurd (Except.ok.inj (same.symm.trans located)) nonzero
    · obtain ⟨nonzero, start, count, counted, placed, rfl⟩ := present
      obtain ⟨entry, found, rfl⟩ := map_eq_ok.mp read
      obtain ⟨reaches, stands⟩ := Slice.u32_get?_eq_ok found
      have standsIff (place : UInt64) :
          (ReflectedType.ofStruct type).OffsetStands memory index place ↔ _ :=
        StructType.offsetStands_iff located nonzero counted
      have address : start.bits + .ofNat (4 * index) =
          type.handle.address.bits + .ofNat (8 * locator + 4 * index) := by
        rw [placed, UInt64.ofNat_add, UInt64.add_assoc]
      simp only [Option.isSome_map, standsIff]
      constructor
      · rw [reaches]
        simp
      · rintro place entry' ⟨inside, rfl⟩ same
        obtain ⟨bits, rfl, rfl⟩ := Option.map_eq_some_iff.mp same
        have number := stands bits rfl
        rw [← address, number, UInt32.toNat_ofNat_of_lt' (Memory.lt_of_bytes number)]

/-! ## Fields -/

/-- The fields of a descriptor, where its records and their offsets can be read. -/
theorem TypeLayout.fieldsOf_eq {type : ReflectedType} {descriptor : FieldDescriptor}
    {vector : Option Slice} {count : Nat} (declares : descriptor.Declares memory count)
    (vectorRead : type.offsetVector memory = .ok vector)
    (entries : ∀ index < count, ∃ offset, offsetOf vector memory index = .ok offset) :
    ∃ fields, fieldsOf descriptor vector memory = .ok fields ∧ fields.length = count ∧
      ∀ index, ∀ field ∈ fields[index]?,
        FieldLayout.Shows field type descriptor memory index := by
  obtain ⟨records, listed, areRecords⟩ := declares.readRecords_eq (show 0 + count ≤ count by omega)
  have collected : descriptor.records memory = .ok records :=
    bind_eq_ok.mpr ⟨_, FieldCursor.all_eq declares, listed⟩
  obtain ⟨sameLength, each⟩ := List.forall₂_iff_get.mp areRecords
  rw [List.length_range'] at sameLength
  obtain ⟨fields, given⟩ : ∃ fields, fieldsOf descriptor vector memory = .ok fields := by
    rw [fieldsOf, bind_of_ok collected]
    apply exists_mapM_eq_ok
    intro item member
    have bound := List.snd_lt_add_of_mem_zipIdx member
    obtain ⟨offset, read⟩ := entries item.2 (by omega)
    exact ⟨_, map_eq_ok.mpr ⟨offset, read, rfl⟩⟩
  refine ⟨fields, given, ?_⟩
  rw [fieldsOf, bind_of_ok collected, mapM_eq_ok_iff, List.forall₂_iff_get] at given
  obtain ⟨paired, built⟩ := given
  rw [List.length_zipIdx] at paired
  refine ⟨by omega, ?_⟩
  intro index field member
  obtain ⟨inside, rfl⟩ := List.getElem?_eq_some_iff.mp member
  have isRecord : descriptor.IsRecord memory index records[index] := by
    have ordered := each index (by rw [List.length_range']; omega) (by omega)
    simpa using ordered
  have made : FieldLayout.ofRecord records[index] <$> offsetOf vector memory index
      = .ok fields[index] := by
    have placed := built index (by rw [List.length_zipIdx]; omega) inside
    simpa using placed
  obtain ⟨offset, read, same⟩ := map_eq_ok.mp made
  obtain ⟨isSome, stands⟩ := type.offset_of_vector vectorRead read
  rw [← same]
  exact ⟨⟨records[index], isRecord, rfl, rfl, rfl⟩, isSome, stands⟩

/-! ## Layouts -/

namespace ReflectedType

variable {type : ReflectedType} {vector : Option Slice} {fields : Option FieldDescriptor}
  {superclass : Option ClassType}

theorem Answers.fieldsOf?_eq (answers : type.Answers memory)
    (vectorRead : type.offsetVector memory = .ok vector)
    (passed : type.checkFields memory = .ok fields) :
    ∃ layouts, TypeLayout.fieldsOf? fields vector memory = .ok layouts ∧
      FieldLayout.ShowAll layouts type memory fields := by
  cases fields with
  | none => exact ⟨[], rfl, rfl⟩
  | some descriptor =>
    obtain ⟨count, declares⟩ := answers.records descriptor passed
    have entries : ∀ index < count, ∃ offset,
        TypeLayout.offsetOf vector memory index = .ok offset := by
      intro index inside
      cases vector with
      | none => exact ⟨none, rfl⟩
      | some vector =>
        obtain ⟨entry, read⟩ :=
          answers.entries descriptor vector count passed vectorRead declares.counted index inside
        exact ⟨_, map_eq_ok.mpr ⟨entry, read, rfl⟩⟩
    obtain ⟨layouts, collected, sameLength, shown⟩ :=
      TypeLayout.fieldsOf_eq declares vectorRead entries
    exact ⟨layouts, collected, sameLength ▸ declares.counted, shown⟩

theorem handle_of_check (accepted : ReflectedType.check handle memory = .ok type) :
    type.handle = handle := by
  obtain ⟨kind, -, view⟩ := bind_eq_ok.mp accepted
  cases kind with
  | structType =>
    obtain ⟨type, checked, rfl⟩ := map_eq_ok.mp view
    obtain ⟨⟨⟩, -, rest⟩ := bind_eq_ok.mp checked
    obtain ⟨found, -, rest⟩ := bind_eq_ok.mp rest
    cases found with
    | none => cases rest
    | some address =>
      obtain ⟨context, -, rest⟩ := bind_eq_ok.mp rest
      obtain ⟨descriptor, -, rest⟩ := bind_eq_ok.mp rest
      cases rest
      rfl
  | classType =>
    obtain ⟨type, checked, rfl⟩ := map_eq_ok.mp view
    obtain ⟨⟨⟩, -, rest⟩ := bind_eq_ok.mp checked
    obtain ⟨found, -, rest⟩ := bind_eq_ok.mp rest
    cases found with
    | none =>
      cases rest
      rfl
    | some address =>
      obtain ⟨context, -, rest⟩ := bind_eq_ok.mp rest
      obtain ⟨descriptor, -, rest⟩ := bind_eq_ok.mp rest
      cases rest
      rfl

theorem kind_of_check (accepted : ReflectedType.check handle memory = .ok type) :
    handle.checkTypeKind memory = .ok type.kind := by
  obtain ⟨kind, classified, view⟩ := bind_eq_ok.mp accepted
  cases kind with
  | structType =>
    obtain ⟨type, -, rfl⟩ := map_eq_ok.mp view
    exact classified
  | classType =>
    obtain ⟨type, -, rfl⟩ := map_eq_ok.mp view
    exact classified

/-- What a layout says of the superclass is what the superclass says of itself. -/
theorem Answers.superclassName_eq (answers : type.Answers memory)
    (passed : type.checkFields memory = .ok fields)
    (above : type.checkSuperclass memory = .ok superclass) :
    ∃ text, TypeLayout.superclassName superclass memory = .ok text ∧
      type.IsSuperclassName memory text := by
  cases type with
  | ofStruct type =>
    cases above
    exact ⟨none, rfl, rfl⟩
  | ofClass type =>
    cases superclass with
    | none => exact ⟨none, rfl, none, above, rfl⟩
    | some superclass =>
      obtain ⟨text, named⟩ := answers.superclassName fields superclass passed above
      refine ⟨text, named, some superclass, above, ?_⟩
      unfold ClassType.qualifiedName at named
      rw [Option.bind_some]
      cases described : superclass.descriptor with
      | none => rwa [described] at named
      | some descriptor => rwa [described] at named

end ReflectedType

namespace TypeLayout

variable {type : ReflectedType} {error : MetadataError}

theorem ofType_of_fields_rejected {vector : Option Slice}
    (vectorRead : type.offsetVector memory = .ok vector)
    (rejected : type.checkFields memory = .error (.rejected error)) :
    ofType type memory = .error (.rejected error) := by
  rw [ofType, lift_bind_of_ok vectorRead, rejected]
  rfl

theorem ofType_of_superclass_rejected {vector : Option Slice} {fields : Option FieldDescriptor}
    {layouts : List FieldLayout} (vectorRead : type.offsetVector memory = .ok vector)
    (passed : type.checkFields memory = .ok fields)
    (collected : fieldsOf? fields vector memory = .ok layouts)
    (rejected : type.checkSuperclass memory = .error (.rejected error)) :
    ofType type memory = .error (.rejected error) := by
  rw [ofType, lift_bind_of_ok vectorRead, passed, bind_of_ok rfl, lift_bind_of_ok collected,
    rejected]
  rfl

/-- A layout is collected if all that goes into it can be read. -/
theorem ofType_eq_ok {type : ReflectedType} {vector : Option Slice}
    {descriptor : Option FieldDescriptor} {fields : List FieldLayout}
    {superclass : Option ClassType} {superclassText qualifiedName : Option String}
    {name : Option (List UInt8)} {count : Option Nat}
    (vector_eq : type.offsetVector memory = .ok vector)
    (descriptor_eq : type.checkFields memory = .ok descriptor)
    (fields_eq : fieldsOf? descriptor vector memory = .ok fields)
    (superclass_eq : type.checkSuperclass memory = .ok superclass)
    (superclassName_eq : superclassName superclass memory = .ok superclassText)
    (name_eq : type.name memory = .ok name)
    (qualifiedName_eq : type.qualifiedName memory = .ok qualifiedName)
    (count_eq : type.fieldCount? memory = .ok count) :
    ofType type memory
      = .ok ⟨type.kind, name.map utf8Lossy, qualifiedName, count, superclassText, fields⟩ := by
  refine bind_eq_ok.mpr ⟨vector, liftM_eq_ok vector_eq, ?_⟩
  refine bind_eq_ok.mpr ⟨descriptor, descriptor_eq, ?_⟩
  refine bind_eq_ok.mpr ⟨fields, liftM_eq_ok fields_eq, ?_⟩
  refine bind_eq_ok.mpr ⟨superclass, superclass_eq, ?_⟩
  refine bind_eq_ok.mpr ⟨superclassText, liftM_eq_ok superclassName_eq, ?_⟩
  refine bind_eq_ok.mpr ⟨name, liftM_eq_ok name_eq, ?_⟩
  refine bind_eq_ok.mpr ⟨qualifiedName, liftM_eq_ok qualifiedName_eq, ?_⟩
  exact bind_eq_ok.mpr ⟨count, liftM_eq_ok count_eq, rfl⟩

theorem ofType_shows {fields : Option FieldDescriptor} {superclass : Option ClassType}
    (answers : type.Answers memory) (kind : type.handle.checkTypeKind memory = .ok type.kind)
    (passed : type.checkFields memory = .ok fields)
    (above : type.checkSuperclass memory = .ok superclass) :
    ∃ layout, ofType type memory = .ok layout ∧ layout.Shows type memory := by
  obtain ⟨vector, vectorRead⟩ := answers.offsetVector
  obtain ⟨layouts, collected, shown⟩ := answers.fieldsOf?_eq vectorRead passed
  obtain ⟨text, aboveNamed, aboveShown⟩ := answers.superclassName_eq passed above
  obtain ⟨⟨name, named⟩, ⟨qualifiedName, qualified⟩, count, counted⟩ :=
    answers.names fields superclass passed above
  refine ⟨_, ofType_eq_ok vectorRead passed collected above aboveNamed named qualified counted,
    ?_⟩
  constructor
  case kind => exact kind
  case name => exact ⟨name, named, rfl⟩
  case qualifiedName => exact qualified
  case fieldCount =>
    cases type with
    | ofStruct type =>
      obtain ⟨number, read, rfl⟩ := map_eq_ok.mp counted
      exact ⟨number, read, rfl⟩
    | ofClass type =>
      cases counted
      rfl
  case superclass => exact aboveShown
  case fields => exact ⟨fields, passed, shown⟩

theorem ofHandle_of_failsFirst (answers : handle.Answers memory)
    (fails : handle.FailsFirst memory error) :
    ofHandle handle memory = .error (.rejected error) := by
  cases fails with
  | metadata rejected =>
    rw [ofHandle, rejected]
    rfl
  | @fields type accepted rejected =>
    obtain ⟨vector, vectorRead⟩ := (answers.accessors type accepted).offsetVector
    rw [ofHandle, bind_of_ok accepted]
    exact ofType_of_fields_rejected vectorRead rejected
  | superclass accepted passed rejected =>
    have reached := answers.accessors _ accepted
    obtain ⟨vector, vectorRead⟩ := reached.offsetVector
    obtain ⟨layouts, collected, -⟩ := reached.fieldsOf?_eq vectorRead passed
    rw [ofHandle, bind_of_ok accepted]
    exact ofType_of_superclass_rejected vectorRead passed collected rejected

theorem ofHandle_of_passes (answers : handle.Answers memory)
    (passes : ∀ error, ¬handle.FailsFirst memory error) :
    ∃ type layout, ReflectedType.check handle memory = .ok type ∧ type.handle = handle ∧
      ofHandle handle memory = .ok layout ∧ layout.Shows type memory := by
  rcases outcome_of_not_faults answers.check with ⟨type, accepted⟩ | ⟨error, rejected⟩
  case inr => exact absurd (.metadata rejected) (passes error)
  have reached := answers.accessors type accepted
  rcases outcome_of_not_faults reached.checkFields with ⟨fields, passed⟩ | ⟨error, rejected⟩
  case inr => exact absurd (.fields accepted rejected) (passes error)
  have same := ReflectedType.handle_of_check accepted
  have kind : type.handle.checkTypeKind memory = .ok type.kind :=
    same ▸ ReflectedType.kind_of_check accepted
  obtain ⟨superclass, above⟩ : ∃ superclass, type.checkSuperclass memory = .ok superclass := by
    cases type with
    | ofStruct type => exact ⟨none, rfl⟩
    | ofClass type =>
      rcases outcome_of_not_faults (reached.checkSuperclass fields passed) with found | rejected
      · exact found
      · obtain ⟨error, rejected⟩ := rejected
        exact absurd (.superclass accepted passed rejected) (passes error)
  obtain ⟨layout, collected, shows⟩ := ofType_shows reached kind passed above
  refine ⟨type, layout, accepted, same, ?_, shows⟩
  rw [ofHandle, bind_of_ok accepted, collected]

/-! ## Where a layout stops -/

theorem readRecord_of_readRecords {descriptor : FieldDescriptor} {start count : Nat}
    {records : List FieldRecord} (read : descriptor.readRecords memory start count = .ok records) :
    records.length = count ∧
      ∀ index < count, ∃ record, descriptor.readRecord memory (start + index) = .ok record := by
  induction count generalizing start records with
  | zero =>
    cases read
    exact ⟨rfl, nofun⟩
  | succ count ih =>
    obtain ⟨first, readFirst, rest⟩ := bind_eq_ok.mp read
    obtain ⟨others, readOthers, joined⟩ := bind_eq_ok.mp rest
    cases joined
    obtain ⟨length, each⟩ := ih readOthers
    refine ⟨congrArg (· + 1) length, ?_⟩
    intro index inside
    cases index with
    | zero => exact ⟨first, readFirst⟩
    | succ index =>
      rw [← Nat.add_assoc, Nat.add_right_comm]
      exact each index (Nat.lt_of_succ_lt_succ inside)

theorem fieldsOf_answers {descriptor : FieldDescriptor} {vector : Option Slice}
    {layouts : List FieldLayout} (collected : fieldsOf descriptor vector memory = .ok layouts) :
    ∃ count, descriptor.Declares memory count ∧
      ∀ index < count, ∃ offset, offsetOf vector memory index = .ok offset := by
  obtain ⟨records, listed, built⟩ := bind_eq_ok.mp collected
  obtain ⟨cursor, whole, read⟩ := bind_eq_ok.mp listed
  obtain ⟨count, counted, start⟩ := bind_eq_ok.mp whole
  cases start
  obtain ⟨length, each⟩ := readRecord_of_readRecords read
  change records.length = count at length
  refine ⟨count, ⟨counted, ?_⟩, ?_⟩
  · intro index inside
    simpa using each index inside
  · intro index inside
    obtain ⟨paired, made⟩ := List.forall₂_iff_get.mp (mapM_eq_ok_iff.mp built)
    rw [List.length_zipIdx] at paired
    have item := made index (by rw [List.length_zipIdx]; omega) (by omega)
    obtain ⟨offset, found, -⟩ := map_eq_ok.mp item
    exact ⟨offset, by simpa using found⟩

theorem answers_of_ofType (answers : ¬Faults (ofType type memory)) : type.Answers memory := by
  obtain ⟨vector, vectorRead, answers⟩ := lift_bind_answers answers
  obtain ⟨checked, answers⟩ := bind_answers answers
  -- what is reached once the field descriptor has been accepted
  have past (fields) (passed : type.checkFields memory = .ok fields) :
      (∃ layouts, fieldsOf? fields vector memory = .ok layouts) ∧
        ¬Faults (type.checkSuperclass memory) ∧
        ∀ superclass, type.checkSuperclass memory = .ok superclass →
          (∃ text, superclassName superclass memory = .ok text) ∧
          (∃ name, type.name memory = .ok name) ∧
          (∃ text, type.qualifiedName memory = .ok text) ∧
          ∃ count, type.fieldCount? memory = .ok count := by
    obtain ⟨layouts, collected, answers⟩ := lift_bind_answers (answers fields passed)
    obtain ⟨above, answers⟩ := bind_answers answers
    refine ⟨⟨layouts, collected⟩, above, ?_⟩
    intro superclass given
    obtain ⟨text, superclassNamed, answers⟩ := lift_bind_answers (answers superclass given)
    obtain ⟨name, named, answers⟩ := lift_bind_answers answers
    obtain ⟨qualifiedName, qualified, answers⟩ := lift_bind_answers answers
    obtain ⟨count, counted, -⟩ := lift_bind_answers answers
    exact ⟨⟨text, superclassNamed⟩, ⟨name, named⟩, ⟨qualifiedName, qualified⟩, count, counted⟩
  constructor
  case offsetVector => exact ⟨vector, vectorRead⟩
  case checkFields => exact checked
  case records =>
    intro descriptor passed
    obtain ⟨⟨layouts, collected⟩, -⟩ := past _ passed
    obtain ⟨count, declares, -⟩ := fieldsOf_answers collected
    exact ⟨count, declares⟩
  case entries =>
    intro descriptor found count passed present counted index inside
    obtain ⟨⟨layouts, collected⟩, -⟩ := past _ passed
    obtain ⟨number, declares, entries⟩ := fieldsOf_answers collected
    obtain rfl := Except.ok.inj (declares.counted.symm.trans counted)
    obtain rfl := Except.ok.inj (vectorRead.symm.trans present)
    obtain ⟨offset, read⟩ := entries index inside
    obtain ⟨entry, given, -⟩ := map_eq_ok.mp read
    exact ⟨entry, given⟩
  case checkSuperclass => exact fun fields passed => (past fields passed).2.1
  case superclassName =>
    intro fields superclass passed above
    exact ((past fields passed).2.2 _ above).1
  case names =>
    intro fields superclass passed above
    exact ((past fields passed).2.2 superclass above).2

/-- Where no accessor stops, the layout of a handle is refused exactly for the check that fails
    first, and shows what the views show if none does. -/
theorem ofHandle_agrees (answers : handle.Answers memory) :
    (∀ error, ofHandle handle memory = .error (.rejected error) ↔
      handle.FailsFirst memory error) ∧
    ((∀ error, ¬handle.FailsFirst memory error) →
      ∃ type layout, ReflectedType.check handle memory = .ok type ∧ type.handle = handle ∧
        ofHandle handle memory = .ok layout ∧ layout.Shows type memory) := by
  refine ⟨fun error => ⟨?_, ofHandle_of_failsFirst answers⟩, ofHandle_of_passes answers⟩
  intro refused
  by_cases fails : ∃ first, handle.FailsFirst memory first
  · obtain ⟨first, failsFirst⟩ := fails
    have same := refused.symm.trans (ofHandle_of_failsFirst answers failsFirst)
    cases same
    exact failsFirst
  · obtain ⟨type, layout, -, -, collected, -⟩ :=
      ofHandle_of_passes answers (not_exists.mp fails)
    rw [collected] at refused
    cases refused

/-- A layout stops where one of the accessors does that it is collected from, and nowhere else. -/
theorem not_faults_iff_answers : ¬Faults (ofHandle handle memory) ↔ handle.Answers memory := by
  constructor
  · intro answers
    obtain ⟨checked, reached⟩ := bind_answers answers
    exact ⟨checked, fun type accepted => answers_of_ofType (reached type accepted)⟩
  · intro answers
    by_cases fails : ∃ error, handle.FailsFirst memory error
    · obtain ⟨error, failsFirst⟩ := fails
      rw [ofHandle_of_failsFirst answers failsFirst]
      exact not_faults_rejected error
    · obtain ⟨type, layout, -, -, collected, -⟩ :=
        ofHandle_of_passes answers (not_exists.mp fails)
      rw [collected]
      exact not_faults_ok layout

/-- A struct `P` with one offset in its metadata, whose field descriptor declares two fields. -/
def pairStruct : Memory :=
  pairFields.store 0x2000
    #[0x00, 0x02, 0, 0, 0, 0, 0, 0, 0x18, 0x20, 0, 0, 0, 0, 0, 0, 4, 0, 0, 0, 0, 0, 0, 0,
      0x51, 0, 0, 0, 0, 0, 0, 0, 0x14, 0, 0, 0, 0, 0, 0, 0, 0xD8, 0xEF, 0xFF, 0xFF,
      1, 0, 0, 0, 2, 0, 0, 0, 0x50, 0]

/-- Both fields are shown, and only the one that the struct counts has an offset. -/
theorem ofHandle_agrees_pairStruct :
    ∃ type layout, ReflectedType.check ⟨0x2000, by decide⟩ pairStruct = .ok type ∧
      ofHandle ⟨0x2000, by decide⟩ pairStruct = .ok layout ∧ layout.Shows type pairStruct ∧
      layout = ⟨.structType, some "P", some "P", some 1, none,
        [⟨"x", some 4, none, ⟨0⟩⟩, ⟨"y", none, none, ⟨2⟩⟩]⟩ := by
  have collected : ofHandle ⟨0x2000, by decide⟩ pairStruct = .ok
      ⟨.structType, some "P", some "P", some 1, none,
        [⟨"x", some 4, none, ⟨0⟩⟩, ⟨"y", none, none, ⟨2⟩⟩]⟩ :=
    ok_of_toOption (by decide +kernel)
  have answers : TypeHandle.Answers ⟨0x2000, by decide⟩ pairStruct := by
    rw [← not_faults_iff_answers, collected]
    exact not_faults_ok _
  obtain ⟨refused, shown⟩ := ofHandle_agrees answers
  obtain ⟨type, layout, accepted, -, given, shows⟩ := shown fun error fails => by
    have rejected := (refused error).mpr fails
    rw [collected] at rejected
    cases rejected
  exact ⟨type, layout, accepted, given, shows, Except.ok.inj (given.symm.trans collected)⟩

end TypeLayout

end TypeReflection
