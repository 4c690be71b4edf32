import TypeReflection.Proofs.View.Extension
import TypeReflection.Proofs.View.Safety

/-! # Queries

An accessor with all that it tells. `Access` keeps the views that an accessor hands out and forgets
data; `Query` names the reading itself, so that answers in two memories can be compared as a whole.
-/

namespace TypeReflection

variable {α : Type}

/-- A reading whose failures are all faults, as a checking one. -/
def plain (reading : Memory → Except Fault α) : Memory → Except Failure α :=
  fun memory => liftM (reading memory)

open View in
/-- A call of an accessor on a view: its reading, and the views that it hands out. A walk along a
    chain is one call for each limit, so that what it hands out in front of a failure counts too. -/
inductive Query :
    {α : Type} → View → (Memory → Except Failure α) → (α → List View) → Prop where
  | addressHandle (address) :
      Query (.address address) (fun _ => .ok address) fun address => [.handle ⟨address⟩]
  | addressContext (address) :
      Query (.address address) (fun _ => (Context.check address).mapError .rejected)
        fun context => [.context context]
  | addressFields (address) :
      Query (.address address) (fun memory => FieldDescriptor.check memory address)
        fun descriptor => [.fields descriptor]
  | handleKindWord (handle) : Query (.handle handle) handle.checkKindWord nothing
  | handleMetadataKind (handle) : Query (.handle handle) handle.checkMetadataKind nothing
  | handleCheckTypeKind (handle) : Query (.handle handle) handle.checkTypeKind nothing
  | handleTypeKind (handle) : Query (.handle handle) (plain handle.typeKind) nothing
  | handleCheckStruct (handle) :
      Query (.handle handle) (StructType.check handle) fun type => [.structType type]
  | handleStruct (handle) :
      Query (.handle handle) (plain (StructType.read handle)) fun type => [.structType type]
  | handleCheckClass (handle) :
      Query (.handle handle) (ClassType.check handle) fun type => [.classType type]
  | handleClass (handle) :
      Query (.handle handle) (plain (ClassType.read handle)) fun type => [.classType type]
  | handleCheckType (handle) :
      Query (.handle handle) (ReflectedType.check handle) fun type => [.reflected type]
  | handleType (handle) :
      Query (.handle handle) (plain (ReflectedType.read handle)) fun type => [.reflected type]
  | handleLayout (handle) : Query (.handle handle) (TypeLayout.ofHandle handle) nothing
  | structParts (type) :
      Query (.structType type) (fun _ => .ok type)
        fun type => [.handle type.handle, .structDescriptor type.descriptor]
  | structName (type) : Query (.structType type) (plain type.name) nothing
  | structQualifiedName (type) : Query (.structType type) (plain type.qualifiedName) nothing
  | structCheckFields (type) : Query (.structType type) type.checkFields (present .fields)
  | structFields (type) : Query (.structType type) (plain type.fields) (present .fields)
  | structFieldCount (type) : Query (.structType type) (plain type.fieldCount) nothing
  | structFieldOffsets (type) : Query (.structType type) (plain type.fieldOffsets) (present .slice)
  | classParts (type) :
      Query (.classType type) (fun _ => .ok type)
        fun type => .handle type.handle :: present .classDescriptor type.descriptor
  | className (type) : Query (.classType type) (plain type.name) nothing
  | classQualifiedName (type) : Query (.classType type) (plain type.qualifiedName) nothing
  | classCheckFields (type) : Query (.classType type) type.checkFields (present .fields)
  | classFields (type) : Query (.classType type) (plain type.fields) (present .fields)
  | classCheckSuperclass (type) : Query (.classType type) type.checkSuperclass (present .classType)
  | classSuperclass (type) : Query (.classType type) (plain type.superclass) (present .classType)
  | classAncestors (type) (limit : Nat) :
      Query (.classType type) (plain fun memory => (type.ancestors memory limit).result)
        (·.map .classType)
  | classAncestorNames (type) (limit : Nat) :
      Query (.classType type)
        (plain fun memory =>
          (type.visitAncestors memory limit fun inner => inner.name memory).result)
        nothing
  | classFlags (type) : Query (.classType type) (plain type.flags) nothing
  | classInstanceAddressPoint (type) :
      Query (.classType type) (plain type.instanceAddressPoint) nothing
  | classInstanceSize (type) : Query (.classType type) (plain type.instanceSize) nothing
  | classInstanceAlignmentMask (type) :
      Query (.classType type) (plain type.instanceAlignmentMask) nothing
  | classSize (type) : Query (.classType type) (plain type.classSize) nothing
  | classAddressPoint (type) : Query (.classType type) (plain type.classAddressPoint) nothing
  | reflectedStruct (type) :
      Query (.reflected (.ofStruct type)) (fun _ => .ok type) fun type => [.structType type]
  | reflectedClass (type) :
      Query (.reflected (.ofClass type)) (fun _ => .ok type) fun type => [.classType type]
  | reflectedName (type) : Query (.reflected type) (plain type.name) nothing
  | reflectedQualifiedName (type) : Query (.reflected type) (plain type.qualifiedName) nothing
  | reflectedCheckFields (type) : Query (.reflected type) type.checkFields (present .fields)
  | reflectedFields (type) : Query (.reflected type) (plain type.fields) (present .fields)
  | reflectedCheckFieldCount (type) : Query (.reflected type) type.checkFieldCount nothing
  | reflectedCheckFieldOffsets (type) :
      Query (.reflected type) type.checkFieldOffsets (present .slice)
  | reflectedLayout (type) : Query (.reflected type) (TypeLayout.ofType type) nothing
  | contextFlags (context) : Query (.context context) (plain context.flags) nothing
  | contextKind (context) : Query (.context context) (plain context.kind) nothing
  | contextParent (context) : Query (.context context) (plain context.parent) (present .context)
  | contextName (context) : Query (.context context) (plain context.name) nothing
  | contextAncestors (context) (limit : Nat) :
      Query (.context context) (plain fun memory => (context.ancestors memory limit).result)
        (·.map .context)
  | contextQualifiedName (context) : Query (.context context) (plain context.qualifiedName) nothing
  | contextType (context) :
      Query (.context context) (plain (TypeContext.ofContext? context)) (present .typeContext)
  | contextStruct (context) :
      Query (.context context) (StructDescriptor.check context)
        fun found => [.structDescriptor found]
  | contextClass (context) :
      Query (.context context) (ClassDescriptor.check context)
        fun found => [.classDescriptor found]
  | typeContext (type) :
      Query (.typeContext type) (fun _ => .ok type) fun type => [.context type.context]
  | typeName (type) : Query (.typeContext type) (plain type.name) nothing
  | typeQualifiedName (type) : Query (.typeContext type) (plain type.qualifiedName) nothing
  | typeAccessFunction (type) : Query (.typeContext type) (plain type.accessFunction) nothing
  | typeCheckFields (type) : Query (.typeContext type) type.checkFields (present .fields)
  | typeFields (type) : Query (.typeContext type) (plain type.fields) (present .fields)
  | structDescriptorType (descriptor) :
      Query (.structDescriptor descriptor) (fun _ => .ok descriptor)
        fun descriptor => [.typeContext descriptor.type]
  | structDescriptorFieldCount (descriptor) :
      Query (.structDescriptor descriptor) (plain descriptor.fieldCount) nothing
  | structDescriptorLocator (descriptor) :
      Query (.structDescriptor descriptor) (plain descriptor.offsetVectorLocator) nothing
  | structDescriptorHasOffsetVector (descriptor) :
      Query (.structDescriptor descriptor) (plain descriptor.hasOffsetVector) nothing
  | classDescriptorType (descriptor) :
      Query (.classDescriptor descriptor) (fun _ => .ok descriptor)
        fun descriptor => [.typeContext descriptor.type]
  | classDescriptorSuperclassType (descriptor) :
      Query (.classDescriptor descriptor) (plain descriptor.superclassType) nothing
  | classDescriptorNegativeWords (descriptor) :
      Query (.classDescriptor descriptor) (plain descriptor.negativeWords) nothing
  | classDescriptorPositiveWords (descriptor) :
      Query (.classDescriptor descriptor) (plain descriptor.positiveWords) nothing
  | classDescriptorImmediateMembers (descriptor) :
      Query (.classDescriptor descriptor) (plain descriptor.immediateMembers) nothing
  | fieldsKind (descriptor) : Query (.fields descriptor) (plain descriptor.kind) nothing
  | fieldsTypeName (descriptor) : Query (.fields descriptor) (plain descriptor.typeName) nothing
  | fieldsSuperclass (descriptor) : Query (.fields descriptor) (plain descriptor.superclass) nothing
  | fieldsRecordSize (descriptor) : Query (.fields descriptor) (plain descriptor.recordSize) nothing
  | fieldsFieldCount (descriptor) : Query (.fields descriptor) (plain descriptor.fieldCount) nothing
  | fieldsRecord (descriptor) (index : Nat) :
      Query (.fields descriptor) (plain fun memory => descriptor.record? memory index) nothing
  | fieldsRecords (descriptor) : Query (.fields descriptor) (plain descriptor.records) nothing
  | fieldsCursor (descriptor) :
      Query (.fields descriptor) (plain (FieldCursor.all descriptor)) fun cursor => [.cursor cursor]
  | cursorNext (cursor) : Query (.cursor cursor) (plain cursor.next) advanced
  | cursorNextBack (cursor) : Query (.cursor cursor) (plain cursor.nextBack) advanced
  | cursorToList (cursor) : Query (.cursor cursor) (plain cursor.toList) nothing
  | cursorToListBack (cursor) : Query (.cursor cursor) (plain cursor.toListBack) nothing
  | sliceGet (slice) (index : Nat) :
      Query (.slice slice) (plain fun memory => slice.get? memory index) nothing
  | sliceToList (slice) : Query (.slice slice) (plain slice.toList) nothing

/-- The views that queries hand out, made on `start` and on what they hand out, in any order. -/
inductive Reached (memory : Memory) (start : View) : View → Prop where
  | start : Reached memory start start
  | query {α : Type} {view handed : View} {reading : Memory → Except Failure α}
      {hands : α → List View} {value : α} :
      Reached memory start view → Query view reading hands → reading memory = .ok value →
      handed ∈ hands value → Reached memory start handed

/-! ## Queries are calls of accessors -/

namespace Query

variable {view : View} {hands : α → List View}

theorem ofPlain {reading : Memory → Except Fault α}
    (access : ∀ memory, Access memory view (Answer.ofReading (reading memory) hands))
    (persists : Persists Fault.IsUnmapped reading) :
    (∀ memory, Access memory view (Answer.ofCheck (plain reading memory) hands)) ∧
      Persists (Failure.Stops Fault.IsUnmapped) (plain reading) := by
  refine ⟨fun memory => ?_, persists.lift⟩
  have called := access memory
  unfold plain
  cases answer : reading memory with
  | ok value =>
      rw [answer] at called
      exact called
  | error fault =>
      rw [answer] at called
      exact called

/-- A query is a call of an accessor, and more memory changes its answer only where it stopped for
    lack of memory. -/
theorem sound {reading : Memory → Except Failure α} (query : Query view reading hands) :
    (∀ memory, Access memory view (Answer.ofCheck (reading memory) hands)) ∧
      Persists (Failure.Stops Fault.IsUnmapped) reading := by
  cases query with
  | addressHandle address => exact ⟨fun _ => .addressHandle address, .const _⟩
  | addressContext address => exact ⟨fun _ => .addressContext address, .const _⟩
  | addressFields address =>
      exact ⟨fun _ => .addressFields address, FieldDescriptor.check_persists address⟩
  | handleKindWord handle => exact ⟨fun _ => .handleKindWord handle, handle.checkKindWord_persists⟩
  | handleMetadataKind handle =>
      exact ⟨fun _ => .handleMetadataKind handle, handle.checkKindWord_persists.map _⟩
  | handleCheckTypeKind handle =>
      exact ⟨fun _ => .handleCheckTypeKind handle, handle.checkTypeKind_persists⟩
  | handleTypeKind handle =>
      exact ofPlain (fun _ => .handleTypeKind handle) handle.checkTypeKind_persists.strict
  | handleCheckStruct handle =>
      exact ⟨fun _ => .handleCheckStruct handle, StructType.check_persists handle⟩
  | handleStruct handle =>
      exact ofPlain (fun _ => .handleStruct handle) (StructType.check_persists handle).strict
  | handleCheckClass handle =>
      exact ⟨fun _ => .handleCheckClass handle, ClassType.check_persists handle⟩
  | handleClass handle =>
      exact ofPlain (fun _ => .handleClass handle) (ClassType.check_persists handle).strict
  | handleCheckType handle =>
      exact ⟨fun _ => .handleCheckType handle, ReflectedType.check_persists handle⟩
  | handleType handle =>
      exact ofPlain (fun _ => .handleType handle) (ReflectedType.check_persists handle).strict
  | handleLayout handle =>
      exact ⟨fun _ => .handleLayout handle, TypeLayout.ofHandle_persists handle⟩
  | structParts type => exact ⟨fun _ => .structParts type, .const _⟩
  | structName type => exact ofPlain (fun _ => .structName type) type.descriptor.type.name_persists
  | structQualifiedName type =>
      exact ofPlain (fun _ => .structQualifiedName type)
        type.descriptor.type.context.qualifiedName_persists
  | structCheckFields type =>
      exact ⟨fun _ => .structCheckFields type, type.descriptor.type.checkFields_persists⟩
  | structFields type =>
      exact ofPlain (fun _ => .structFields type) type.descriptor.type.checkFields_persists.strict
  | structFieldCount type =>
      exact ofPlain (fun _ => .structFieldCount type) type.descriptor.fieldCount_persists
  | structFieldOffsets type =>
      exact ofPlain (fun _ => .structFieldOffsets type) type.fieldOffsets_persists
  | classParts type => exact ⟨fun _ => .classParts type, .const _⟩
  | className type => exact ofPlain (fun _ => .className type) type.name_persists
  | classQualifiedName type =>
      exact ofPlain (fun _ => .classQualifiedName type) type.qualifiedName_persists
  | classCheckFields type => exact ⟨fun _ => .classCheckFields type, type.checkFields_persists⟩
  | classFields type => exact ofPlain (fun _ => .classFields type) type.checkFields_persists.strict
  | classCheckSuperclass type =>
      exact ⟨fun _ => .classCheckSuperclass type, type.checkSuperclass_persists⟩
  | classSuperclass type =>
      exact ofPlain (fun _ => .classSuperclass type) type.checkSuperclass_persists.strict
  | classAncestors type limit =>
      exact ofPlain (fun _ => .classAncestors type limit)
        (type.visitAncestors_persists limit fun inner => .const (.ok inner))
  | classAncestorNames type limit =>
      exact ofPlain (fun _ => .classAncestorNames type limit)
        (type.visitAncestors_persists limit fun inner => inner.name_persists)
  | classFlags type =>
      exact ofPlain (fun _ => .classFlags type) (Memory.readU32_persists type.handle.address _)
  | classInstanceAddressPoint type =>
      exact ofPlain (fun _ => .classInstanceAddressPoint type)
        (Memory.readU32_persists type.handle.address _)
  | classInstanceSize type =>
      exact ofPlain (fun _ => .classInstanceSize type)
        (Memory.readU32_persists type.handle.address _)
  | classInstanceAlignmentMask type =>
      exact ofPlain (fun _ => .classInstanceAlignmentMask type)
        (Memory.readU16_persists type.handle.address _)
  | classSize type =>
      exact ofPlain (fun _ => .classSize type) (Memory.readU32_persists type.handle.address _)
  | classAddressPoint type =>
      exact ofPlain (fun _ => .classAddressPoint type)
        (Memory.readU32_persists type.handle.address _)
  | reflectedStruct type => exact ⟨fun _ => .reflectedStruct type, .const _⟩
  | reflectedClass type => exact ⟨fun _ => .reflectedClass type, .const _⟩
  | reflectedName type => exact ofPlain (fun _ => .reflectedName type) type.name_persists
  | reflectedQualifiedName type =>
      exact ofPlain (fun _ => .reflectedQualifiedName type) type.qualifiedName_persists
  | reflectedCheckFields type =>
      exact ⟨fun _ => .reflectedCheckFields type, type.checkFields_persists⟩
  | reflectedFields type => exact ofPlain (fun _ => .reflectedFields type) type.fields_persists
  | reflectedCheckFieldCount type =>
      exact ⟨fun _ => .reflectedCheckFieldCount type, type.checkFieldCount_persists⟩
  | reflectedCheckFieldOffsets type =>
      exact ⟨fun _ => .reflectedCheckFieldOffsets type, type.checkFieldOffsets_persists⟩
  | reflectedLayout type => exact ⟨fun _ => .reflectedLayout type, TypeLayout.ofType_persists type⟩
  | contextFlags context => exact ofPlain (fun _ => .contextFlags context) context.flags_persists
  | contextKind context => exact ofPlain (fun _ => .contextKind context) context.kind_persists
  | contextParent context => exact ofPlain (fun _ => .contextParent context) context.parent_persists
  | contextName context => exact ofPlain (fun _ => .contextName context) context.name_persists
  | contextAncestors context limit =>
      exact ofPlain (fun _ => .contextAncestors context limit) (context.ancestors_persists limit)
  | contextQualifiedName context =>
      exact ofPlain (fun _ => .contextQualifiedName context) context.qualifiedName_persists
  | contextType context =>
      exact ofPlain (fun _ => .contextType context) (TypeContext.ofContext?_persists context)
  | contextStruct context =>
      exact ⟨fun _ => .contextStruct context, StructDescriptor.check_persists context⟩
  | contextClass context =>
      exact ⟨fun _ => .contextClass context, ClassDescriptor.check_persists context⟩
  | typeContext type => exact ⟨fun _ => .typeContext type, .const _⟩
  | typeName type => exact ofPlain (fun _ => .typeName type) type.name_persists
  | typeQualifiedName type =>
      exact ofPlain (fun _ => .typeQualifiedName type) type.context.qualifiedName_persists
  | typeAccessFunction type =>
      exact ofPlain (fun _ => .typeAccessFunction type) type.accessFunction_persists
  | typeCheckFields type => exact ⟨fun _ => .typeCheckFields type, type.checkFields_persists⟩
  | typeFields type => exact ofPlain (fun _ => .typeFields type) type.checkFields_persists.strict
  | structDescriptorType descriptor => exact ⟨fun _ => .structDescriptorType descriptor, .const _⟩
  | structDescriptorFieldCount descriptor =>
      exact ofPlain (fun _ => .structDescriptorFieldCount descriptor) descriptor.fieldCount_persists
  | structDescriptorLocator descriptor =>
      exact ofPlain (fun _ => .structDescriptorLocator descriptor)
        descriptor.offsetVectorLocator_persists
  | structDescriptorHasOffsetVector descriptor =>
      exact ofPlain (fun _ => .structDescriptorHasOffsetVector descriptor)
        (descriptor.offsetVectorLocator_persists.map _)
  | classDescriptorType descriptor => exact ⟨fun _ => .classDescriptorType descriptor, .const _⟩
  | classDescriptorSuperclassType descriptor =>
      exact ofPlain (fun _ => .classDescriptorSuperclassType descriptor)
        descriptor.superclassType_persists
  | classDescriptorNegativeWords descriptor =>
      exact ofPlain (fun _ => .classDescriptorNegativeWords descriptor)
        (Memory.readU32_persists descriptor.address _)
  | classDescriptorPositiveWords descriptor =>
      exact ofPlain (fun _ => .classDescriptorPositiveWords descriptor)
        (Memory.readU32_persists descriptor.address _)
  | classDescriptorImmediateMembers descriptor =>
      exact ofPlain (fun _ => .classDescriptorImmediateMembers descriptor)
        (Memory.readU32_persists descriptor.address _)
  | fieldsKind descriptor =>
      exact ofPlain (fun _ => .fieldsKind descriptor) descriptor.kind_persists
  | fieldsTypeName descriptor =>
      exact ofPlain (fun _ => .fieldsTypeName descriptor) (descriptor.encodedName_persists _)
  | fieldsSuperclass descriptor =>
      exact ofPlain (fun _ => .fieldsSuperclass descriptor) (descriptor.encodedName_persists _)
  | fieldsRecordSize descriptor =>
      exact ofPlain (fun _ => .fieldsRecordSize descriptor) descriptor.recordSize_persists
  | fieldsFieldCount descriptor =>
      exact ofPlain (fun _ => .fieldsFieldCount descriptor) descriptor.fieldCount_persists
  | fieldsRecord descriptor index =>
      exact ofPlain (fun _ => .fieldsRecord descriptor index) (descriptor.record?_persists index)
  | fieldsRecords descriptor =>
      exact ofPlain (fun _ => .fieldsRecords descriptor) descriptor.records_persists
  | fieldsCursor descriptor =>
      exact ofPlain (fun _ => .fieldsCursor descriptor) descriptor.cursor_persists
  | cursorNext cursor => exact ofPlain (fun _ => .cursorNext cursor) cursor.next_persists
  | cursorNextBack cursor =>
      exact ofPlain (fun _ => .cursorNextBack cursor) cursor.nextBack_persists
  | cursorToList cursor =>
      exact ofPlain (fun _ => .cursorToList cursor) (cursor.descriptor.readRecords_persists _ _)
  | cursorToListBack cursor =>
      exact ofPlain (fun _ => .cursorToListBack cursor)
        (cursor.descriptor.readRecordsBack_persists _ _)
  | sliceGet slice index =>
      exact ofPlain (fun _ => .sliceGet slice index) (slice.get?_persists index)
  | sliceToList slice => exact ofPlain (fun _ => .sliceToList slice) slice.toList_persists

end Query

/-! ## Queries on safe views -/

namespace SafeViews

variable {bad : Fault → Prop} {memory : Memory} {good : View → Prop}

theorem query (safe : SafeViews bad memory good) {view : View} (known : good view)
    {reading : Memory → Except Failure α} {hands : α → List View}
    (query : Query view reading hands) :
    Avoids (Failure.Stops bad) (reading memory) fun value =>
      ∀ handed ∈ hands value, good handed := by
  have avoids := safe.access known (query.sound.1 memory)
  cases answer : reading memory with
  | ok value =>
      rw [answer] at avoids
      exact avoids
  | error failure =>
      rw [answer] at avoids
      cases failure with
      | rejected error => exact id
      | faulted fault => exact avoids

theorem reached (safe : SafeViews bad memory good) {start view : View} (known : good start)
    (reached : Reached memory start view) : good view := by
  induction reached with
  | start => exact known
  | query _ asked given handed ih => exact (safe.query ih asked).ok_of given _ handed

variable {larger smaller : Memory} (safe : SafeViews Fault.IsUnmapped smaller good)
  (more : larger.Extends smaller)

include safe more

/-- A larger memory answers in the same way. -/
theorem query_eq {view : View} (known : good view) {reading : Memory → Except Failure α}
    {hands : α → List View} (query : Query view reading hands) :
    reading larger = reading smaller :=
  query.sound.2.same more (safe.query known query)

/-- A larger memory leads to the same views. -/
theorem reached_iff {start view : View} (known : good start) :
    Reached larger start view ↔ Reached smaller start view := by
  constructor
  · intro reached
    induction reached with
    | start => exact .start
    | query _ asked given handed ih =>
        rw [safe.query_eq more (safe.reached known ih) asked] at given
        exact .query ih asked given handed
  · intro reached
    induction reached with
    | start => exact .start
    | query before asked given handed ih =>
        rw [← safe.query_eq more (safe.reached known before) asked] at given
        exact .query ih asked given handed

end SafeViews

end TypeReflection
