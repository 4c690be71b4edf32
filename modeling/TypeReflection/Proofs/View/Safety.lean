import TypeReflection.Proofs.Reading
import TypeReflection.Proofs.View.Basic

/-! # Safe views

A set of views is safe for a kind of faults if the accessors that read a record, or follow a link
from it, stop at no such fault and stay within the set. All other accessors are put together from
these, so that none of them stops at such a fault either, on any view that is reached from the set.
-/

namespace TypeReflection

open View

/-- The views in `good` give their parts, and what their links lead to, without a fault of the kind
    `bad`, and all of it is in `good` again. -/
structure SafeViews (bad : Fault → Prop) (memory : Memory) (good : View → Prop) : Prop where
  malformed : ∀ error, ¬ bad (.malformed error)
  endlessChain : ¬ bad .endlessChain
  addressHandle : ∀ address, good (.address address) → good (.handle ⟨address⟩)
  addressContext : ∀ address context, good (.address address) →
    Context.check address = .ok context → good (.context context)
  addressFields : ∀ address, good (.address address) →
    Avoids (Failure.Stops bad) (FieldDescriptor.check memory address) fun found =>
      good (.fields found)
  kindWord : ∀ handle, good (.handle handle) →
    Avoids (Failure.Stops bad) (handle.checkKindWord memory) anything
  checkStruct : ∀ handle, good (.handle handle) →
    Avoids (Failure.Stops bad) (StructType.check handle memory) fun type => good (.structType type)
  checkClass : ∀ handle, good (.handle handle) →
    Avoids (Failure.Stops bad) (ClassType.check handle memory) fun type => good (.classType type)
  structHandle : ∀ type, good (.structType type) → good (.handle type.handle)
  structDescriptor : ∀ type, good (.structType type) → good (.structDescriptor type.descriptor)
  fieldOffsets : ∀ type, good (.structType type) →
    Avoids bad (type.fieldOffsets memory) fun vector => ∀ slice ∈ vector, good (.slice slice)
  classHandle : ∀ type, good (.classType type) → good (.handle type.handle)
  classDescriptor : ∀ type, good (.classType type) →
    ∀ descriptor ∈ type.descriptor, good (.classDescriptor descriptor)
  checkSuperclass : ∀ type, good (.classType type) →
    Avoids (Failure.Stops bad) (type.checkSuperclass memory) fun superclass =>
      ∀ found ∈ superclass, good (.classType found)
  classWord : ∀ type, good (.classType type) → ∀ position, 4 ∣ position →
    position + 4 ≤ Format.ClassMetadata.size →
    Avoids bad (memory.readU32 type.handle.address position) anything
  instanceAlignmentMask : ∀ type, good (.classType type) →
    Avoids bad (type.instanceAlignmentMask memory) anything
  reflectedStruct : ∀ type, good (.reflected (.ofStruct type)) ↔ good (.structType type)
  reflectedClass : ∀ type, good (.reflected (.ofClass type)) ↔ good (.classType type)
  flags : ∀ context, good (.context context) → Avoids bad (context.flags memory) anything
  parent : ∀ context, good (.context context) →
    Avoids bad (context.parent memory) fun parent => ∀ found ∈ parent, good (.context found)
  name : ∀ context, good (.context context) → Avoids bad (context.name memory) anything
  contextType : ∀ context, good (.context context) →
    Avoids bad (TypeContext.ofContext? context memory) fun type =>
      ∀ found ∈ type, good (.typeContext found)
  contextStruct : ∀ context, good (.context context) →
    Avoids (Failure.Stops bad) (StructDescriptor.check context memory) fun found =>
      good (.structDescriptor found)
  contextClass : ∀ context, good (.context context) →
    Avoids (Failure.Stops bad) (ClassDescriptor.check context memory) fun found =>
      good (.classDescriptor found)
  typeContext : ∀ type, good (.typeContext type) → good (.context type.context)
  typeName : ∀ type, good (.typeContext type) → Avoids bad (type.name memory) anything
  accessFunction : ∀ type, good (.typeContext type) →
    Avoids bad (type.accessFunction memory) anything
  checkFields : ∀ type, good (.typeContext type) →
    Avoids (Failure.Stops bad) (type.checkFields memory) fun fields =>
      ∀ found ∈ fields, good (.fields found)
  structDescriptorType : ∀ descriptor, good (.structDescriptor descriptor) →
    good (.typeContext descriptor.type)
  structDescriptorWord : ∀ descriptor, good (.structDescriptor descriptor) →
    ∀ position, 4 ∣ position → position + 4 ≤ Format.StructDescriptor.size →
    Avoids bad (memory.readU32 descriptor.address position) anything
  classDescriptorType : ∀ descriptor, good (.classDescriptor descriptor) →
    good (.typeContext descriptor.type)
  classDescriptorWord : ∀ descriptor, good (.classDescriptor descriptor) →
    ∀ position, 4 ∣ position → position + 4 ≤ Format.ClassDescriptor.size →
    Avoids bad (memory.readU32 descriptor.address position) anything
  superclassType : ∀ descriptor, good (.classDescriptor descriptor) →
    Avoids bad (descriptor.superclassType memory) anything
  fieldsKind : ∀ descriptor, good (.fields descriptor) →
    Avoids bad (descriptor.kind memory) anything
  fieldsName : ∀ descriptor, good (.fields descriptor) → ∀ position, 4 ∣ position →
    position + 4 ≤ Format.FieldDescriptor.kind →
    Avoids bad (descriptor.encodedName memory position) anything
  recordSize : ∀ descriptor, good (.fields descriptor) →
    Avoids bad (descriptor.recordSize memory) anything
  fieldCount : ∀ descriptor, good (.fields descriptor) →
    Avoids bad (descriptor.fieldCount memory) anything
  record : ∀ descriptor, good (.fields descriptor) → ∀ count index,
    descriptor.fieldCount memory = .ok count → index < count →
    Avoids bad (descriptor.readRecord memory index) anything
  cursor : ∀ cursor, good (.cursor cursor) ↔ good (.fields cursor.descriptor) ∧
    cursor.front ≤ cursor.back ∧
      ∃ count, cursor.descriptor.fieldCount memory = .ok count ∧ cursor.back ≤ count
  element : ∀ slice, good (.slice slice) → ∀ index, index < slice.count →
    Avoids bad (slice.element memory index) anything

namespace SafeViews

variable {bad : Fault → Prop} {memory : Memory} {good : View → Prop}
  (safe : SafeViews bad memory good)

include safe

/-! ## Handles -/

theorem checkTypeKind {handle : TypeHandle} (known : good (.handle handle)) :
    Avoids (Failure.Stops bad) (handle.checkTypeKind memory) anything := by
  unfold TypeHandle.checkTypeKind
  refine (safe.kindWord handle known).bind fun raw _ _ => ?_
  split
  · exact Avoids.pure trivial
  · exact Avoids.thrown _

theorem checkReflected {handle : TypeHandle} (known : good (.handle handle)) :
    Avoids (Failure.Stops bad) (ReflectedType.check handle memory) fun type =>
      good (.reflected type) := by
  unfold ReflectedType.check
  refine (safe.checkTypeKind known).bind fun kind _ _ => ?_
  cases kind with
  | structType =>
      exact Avoids.map ((safe.checkStruct handle known).mono fun type _ found =>
        (safe.reflectedStruct type).mpr found)
  | classType =>
      exact Avoids.map ((safe.checkClass handle known).mono fun type _ found =>
        (safe.reflectedClass type).mpr found)

/-! ## Contexts -/

theorem contextAncestors {context : Context} (known : good (.context context)) (limit : Nat) :
    Avoids bad (context.ancestors memory limit).result fun found =>
      ∀ outer ∈ found, good (.context outer) := by
  have visits : ∀ outer, good (.context outer) →
      Avoids bad (.ok outer) fun found => good (.context found) := fun _ outer => outer
  exact Walk.result_avoids (Walk.along_avoids safe.parent visits limit context known)

theorem contextQualifiedName {context : Context} (known : good (.context context)) :
    Avoids bad (context.qualifiedName memory) anything := by
  unfold Context.qualifiedName Context.namesOutward
  have names := Walk.wholeResult_avoids safe.endlessChain
    (Walk.along_avoids safe.parent safe.name UInt64.size context known)
  exact names.bind fun _ _ _ => Avoids.pure trivial

theorem contextKind {context : Context} (known : good (.context context)) :
    Avoids bad (context.kind memory) anything :=
  (safe.flags context known).mapped

theorem typeQualifiedName {type : TypeContext} (known : good (.typeContext type)) :
    Avoids bad (type.qualifiedName memory) anything :=
  safe.contextQualifiedName (safe.typeContext type known)

theorem typeFields {type : TypeContext} (known : good (.typeContext type)) :
    Avoids bad (type.fields memory) fun fields => ∀ found ∈ fields, good (.fields found) :=
  Avoids.strict safe.malformed (safe.checkFields type known)

/-! ## Field descriptors -/

theorem record? {descriptor : FieldDescriptor} (known : good (.fields descriptor)) (index : Nat) :
    Avoids bad (descriptor.record? memory index) anything := by
  unfold FieldDescriptor.record?
  refine (safe.fieldCount descriptor known).bind fun count counted _ => ?_
  split
  case isTrue inside => exact (safe.record descriptor known count index counted inside).mapped
  case isFalse => exact Avoids.pure trivial

theorem readRecords {descriptor : FieldDescriptor} (known : good (.fields descriptor))
    {total : Nat} (counted : descriptor.fieldCount memory = .ok total) (index count : Nat)
    (inside : index + count ≤ total) :
    Avoids bad (descriptor.readRecords memory index count) anything := by
  induction count generalizing index with
  | zero => exact Avoids.ok trivial
  | succ count ih =>
      have first := safe.record descriptor known total index counted (by omega)
      have rest := ih (index + 1) (by omega)
      exact first.bind fun _ _ _ => rest.bind fun _ _ _ => Avoids.pure trivial

theorem readRecordsBack {descriptor : FieldDescriptor} (known : good (.fields descriptor))
    {total : Nat} (counted : descriptor.fieldCount memory = .ok total) (index count : Nat)
    (inside : index + count ≤ total) :
    Avoids bad (descriptor.readRecordsBack memory index count) anything := by
  induction count with
  | zero => exact Avoids.ok trivial
  | succ count ih =>
      have last := safe.record descriptor known total (index + count) counted (by omega)
      have rest := ih (by omega)
      exact last.bind fun _ _ _ => rest.bind fun _ _ _ => Avoids.pure trivial

theorem allRecords {descriptor : FieldDescriptor} (known : good (.fields descriptor)) :
    Avoids bad (FieldCursor.all descriptor memory) fun cursor => good (.cursor cursor) := by
  unfold FieldCursor.all
  refine (safe.fieldCount descriptor known).bind fun count counted _ => ?_
  exact Avoids.pure ((safe.cursor _).mpr ⟨known, Nat.zero_le _, count, counted, Nat.le_refl _⟩)

theorem cursorToList {cursor : FieldCursor} (known : good (.cursor cursor)) :
    Avoids bad (cursor.toList memory) anything := by
  obtain ⟨fields, ordered, total, counted, inside⟩ := (safe.cursor cursor).mp known
  exact safe.readRecords fields counted _ _ (by unfold FieldCursor.size; omega)

theorem cursorToListBack {cursor : FieldCursor} (known : good (.cursor cursor)) :
    Avoids bad (cursor.toListBack memory) anything := by
  obtain ⟨fields, ordered, total, counted, inside⟩ := (safe.cursor cursor).mp known
  exact safe.readRecordsBack fields counted _ _ (by unfold FieldCursor.size; omega)

theorem records {descriptor : FieldDescriptor} (known : good (.fields descriptor)) :
    Avoids bad (descriptor.records memory) anything :=
  (safe.allRecords known).bind fun _ _ all => safe.cursorToList all

theorem cursorNext {cursor : FieldCursor} (known : good (.cursor cursor)) :
    Avoids bad (cursor.next memory) fun taken =>
      ∀ pair ∈ taken, good (.cursor pair.2) := by
  obtain ⟨fields, ordered, total, counted, inside⟩ := (safe.cursor cursor).mp known
  unfold FieldCursor.next
  split
  case isTrue => exact Avoids.ok (by simp)
  case isFalse left =>
      refine (safe.record _ fields total _ counted (by omega)).bind fun _ _ _ => Avoids.pure ?_
      rintro _ ⟨rfl⟩
      refine (safe.cursor _).mpr ⟨fields, ?_, total, counted, inside⟩
      change cursor.front + 1 ≤ cursor.back
      omega

theorem cursorNextBack {cursor : FieldCursor} (known : good (.cursor cursor)) :
    Avoids bad (cursor.nextBack memory) fun taken =>
      ∀ pair ∈ taken, good (.cursor pair.2) := by
  obtain ⟨fields, ordered, total, counted, inside⟩ := (safe.cursor cursor).mp known
  unfold FieldCursor.nextBack
  split
  case isTrue => exact Avoids.ok (by simp)
  case isFalse left =>
      refine (safe.record _ fields total _ counted (by omega)).bind fun _ _ _ => Avoids.pure ?_
      rintro _ ⟨rfl⟩
      refine (safe.cursor _).mpr ⟨fields, ?_, total, counted, ?_⟩
      · change cursor.front ≤ cursor.back - 1
        omega
      · change cursor.back - 1 ≤ total
        omega

/-! ## Offset vectors -/

theorem sliceGet {slice : Slice} (known : good (.slice slice)) (index : Nat) :
    Avoids bad (slice.get? memory index) anything := by
  unfold Slice.get?
  split
  case isTrue inside => exact (safe.element slice known index inside).mapped
  case isFalse => exact Avoids.ok trivial

theorem sliceElements {slice : Slice} (known : good (.slice slice)) (index count : Nat)
    (inside : index + count ≤ slice.count) :
    Avoids bad (slice.elements memory index count) anything := by
  induction count generalizing index with
  | zero => exact Avoids.ok trivial
  | succ count ih =>
      have first := safe.element slice known index (by omega)
      have rest := ih (index + 1) (by omega)
      exact first.bind fun _ _ _ => rest.bind fun _ _ _ => Avoids.pure trivial

/-! ## Structs and classes -/

theorem structType {type : StructType} (known : good (.structType type)) :
    good (.typeContext type.descriptor.type) :=
  safe.structDescriptorType _ (safe.structDescriptor type known)

theorem structFieldCount {descriptor : StructDescriptor}
    (known : good (.structDescriptor descriptor)) :
    Avoids bad (descriptor.fieldCount memory) anything :=
  (safe.structDescriptorWord _ known Format.StructDescriptor.fieldCount (by decide)
    (by decide)).mapped

theorem structLocator {descriptor : StructDescriptor}
    (known : good (.structDescriptor descriptor)) :
    Avoids bad (descriptor.offsetVectorLocator memory) anything :=
  (safe.structDescriptorWord _ known Format.StructDescriptor.offsetVectorLocator (by decide)
    (by decide)).mapped

theorem className {type : ClassType} (known : good (.classType type)) :
    Avoids bad (type.name memory) anything := by
  have descriptors := safe.classDescriptor type known
  unfold ClassType.name
  split
  case h_1 descriptor found =>
      exact (safe.typeName _ (safe.classDescriptorType _ (descriptors descriptor found))).mapped
  case h_2 => exact Avoids.ok trivial

theorem classQualifiedName {type : ClassType} (known : good (.classType type)) :
    Avoids bad (type.qualifiedName memory) anything := by
  have descriptors := safe.classDescriptor type known
  unfold ClassType.qualifiedName
  split
  case h_1 descriptor found =>
      have context := safe.classDescriptorType _ (descriptors descriptor found)
      exact (safe.typeQualifiedName context).mapped
  case h_2 => exact Avoids.ok trivial

theorem classCheckFields {type : ClassType} (known : good (.classType type)) :
    Avoids (Failure.Stops bad) (type.checkFields memory) fun fields =>
      ∀ found ∈ fields, good (.fields found) := by
  have descriptors := safe.classDescriptor type known
  unfold ClassType.checkFields
  split
  case h_1 descriptor found =>
      exact safe.checkFields _ (safe.classDescriptorType _ (descriptors descriptor found))
  case h_2 => exact Avoids.ok (by simp)

theorem classSuperclass {type : ClassType} (known : good (.classType type)) :
    Avoids bad (type.superclass memory) fun superclass =>
      ∀ found ∈ superclass, good (.classType found) :=
  Avoids.strict safe.malformed (safe.checkSuperclass type known)

theorem classVisitAncestors {type : ClassType} (known : good (.classType type)) {β : Type}
    {visit : ClassType → Except Fault β} {seen : β → Prop}
    (visits : ∀ inner, good (.classType inner) → Avoids bad (visit inner) seen) (limit : Nat) :
    Avoids bad (type.visitAncestors memory limit visit).result fun found =>
      ∀ item ∈ found, seen item :=
  Walk.result_avoids
    (Walk.along_avoids (fun _ inner => safe.classSuperclass inner) visits limit type known)

/-! ## Reflected types and their layouts -/

theorem reflectedName {type : ReflectedType} (known : good (.reflected type)) :
    Avoids bad (type.name memory) anything := by
  cases type with
  | ofStruct type =>
      have context := safe.structType ((safe.reflectedStruct type).mp known)
      exact (safe.typeName _ context).mapped
  | ofClass type => exact safe.className ((safe.reflectedClass type).mp known)

theorem reflectedQualifiedName {type : ReflectedType} (known : good (.reflected type)) :
    Avoids bad (type.qualifiedName memory) anything := by
  cases type with
  | ofStruct type =>
      have context := safe.structType ((safe.reflectedStruct type).mp known)
      exact (safe.typeQualifiedName context).mapped
  | ofClass type => exact safe.classQualifiedName ((safe.reflectedClass type).mp known)

theorem reflectedCheckFields {type : ReflectedType} (known : good (.reflected type)) :
    Avoids (Failure.Stops bad) (type.checkFields memory) fun fields =>
      ∀ found ∈ fields, good (.fields found) := by
  cases type with
  | ofStruct type =>
      exact safe.checkFields _ (safe.structType ((safe.reflectedStruct type).mp known))
  | ofClass type => exact safe.classCheckFields ((safe.reflectedClass type).mp known)

theorem reflectedFields {type : ReflectedType} (known : good (.reflected type)) :
    Avoids bad (type.fields memory) fun fields => ∀ found ∈ fields, good (.fields found) := by
  have checked := Avoids.strict safe.malformed (safe.reflectedCheckFields known)
  cases type with
  | ofStruct type => exact checked
  | ofClass type => exact checked

theorem offsetVector {type : ReflectedType} (known : good (.reflected type)) :
    Avoids bad (type.offsetVector memory) fun vector =>
      ∀ slice ∈ vector, good (.slice slice) := by
  cases type with
  | ofStruct type => exact safe.fieldOffsets type ((safe.reflectedStruct type).mp known)
  | ofClass type => exact Avoids.ok (by simp)

theorem reflectedSuperclass {type : ReflectedType} (known : good (.reflected type)) :
    Avoids (Failure.Stops bad) (type.checkSuperclass memory) fun superclass =>
      ∀ found ∈ superclass, good (.classType found) := by
  cases type with
  | ofStruct type => exact Avoids.ok (by simp)
  | ofClass type => exact safe.checkSuperclass type ((safe.reflectedClass type).mp known)

theorem reflectedFieldCount {type : ReflectedType} (known : good (.reflected type)) :
    Avoids bad (type.fieldCount? memory) anything := by
  cases type with
  | ofStruct type =>
      have descriptor := safe.structDescriptor type ((safe.reflectedStruct type).mp known)
      exact (safe.structFieldCount descriptor).mapped
  | ofClass type => exact Avoids.ok trivial

theorem reflectedCheckFieldCount {type : ReflectedType} (known : good (.reflected type)) :
    Avoids (Failure.Stops bad) (type.checkFieldCount memory) anything := by
  cases type with
  | ofStruct type =>
      have descriptor := safe.structDescriptor type ((safe.reflectedStruct type).mp known)
      exact Avoids.lift (safe.structFieldCount descriptor)
  | ofClass type => exact Avoids.rejected _

theorem reflectedCheckFieldOffsets {type : ReflectedType} (known : good (.reflected type)) :
    Avoids (Failure.Stops bad) (type.checkFieldOffsets memory) fun vector =>
      ∀ slice ∈ vector, good (.slice slice) := by
  cases type with
  | ofStruct type =>
      exact Avoids.lift (safe.fieldOffsets type ((safe.reflectedStruct type).mp known))
  | ofClass type => exact Avoids.rejected _

theorem offsetOf {vector : Option Slice} (known : ∀ slice ∈ vector, good (.slice slice))
    (index : Nat) : Avoids bad (TypeLayout.offsetOf vector memory index) anything := by
  unfold TypeLayout.offsetOf
  split
  case h_1 slice => exact (safe.sliceGet (known slice rfl) index).mapped
  case h_2 => exact Avoids.ok trivial

theorem fieldsOf {descriptor : FieldDescriptor} (known : good (.fields descriptor))
    {vector : Option Slice} (offsets : ∀ slice ∈ vector, good (.slice slice)) :
    Avoids bad (TypeLayout.fieldsOf descriptor vector memory) anything := by
  unfold TypeLayout.fieldsOf
  refine (safe.records known).bind fun records _ _ => Avoids.mapM fun item _ => ?_
  exact (safe.offsetOf offsets item.2).mapped

theorem fieldsOf? {descriptor : Option FieldDescriptor}
    (known : ∀ found ∈ descriptor, good (.fields found)) {vector : Option Slice}
    (offsets : ∀ slice ∈ vector, good (.slice slice)) :
    Avoids bad (TypeLayout.fieldsOf? descriptor vector memory) anything := by
  cases descriptor with
  | none => exact Avoids.ok trivial
  | some descriptor => exact safe.fieldsOf (known descriptor rfl) offsets

theorem superclassName {superclass : Option ClassType}
    (known : ∀ found ∈ superclass, good (.classType found)) :
    Avoids bad (TypeLayout.superclassName superclass memory) anything := by
  cases superclass with
  | none => exact Avoids.ok trivial
  | some superclass => exact safe.classQualifiedName (known superclass rfl)

theorem ofType {type : ReflectedType} (known : good (.reflected type)) :
    Avoids (Failure.Stops bad) (TypeLayout.ofType type memory) anything := by
  unfold TypeLayout.ofType
  refine (Avoids.lift (safe.offsetVector known)).bind fun vector _ offsets => ?_
  refine (safe.reflectedCheckFields known).bind fun descriptor _ found => ?_
  refine (Avoids.lift (safe.fieldsOf? found offsets)).bind fun _ _ _ => ?_
  refine (safe.reflectedSuperclass known).bind fun superclass _ above => ?_
  refine (Avoids.lift (safe.superclassName above)).bind fun _ _ _ => ?_
  refine (Avoids.lift (safe.reflectedName known)).bind fun _ _ _ => ?_
  refine (Avoids.lift (safe.reflectedQualifiedName known)).bind fun _ _ _ => ?_
  refine (Avoids.lift (safe.reflectedFieldCount known)).bind fun _ _ _ => ?_
  exact Avoids.pure trivial

theorem ofHandle {handle : TypeHandle} (known : good (.handle handle)) :
    Avoids (Failure.Stops bad) (TypeLayout.ofHandle handle memory) anything :=
  (safe.checkReflected known).bind fun _ _ type => safe.ofType type

/-! ## All accessors -/

omit safe in
theorem ofReading {α : Type} {reading : Except Fault α} {views : α → List View} {post : α → Prop}
    (avoids : Avoids bad reading post)
    (hands : ∀ value, post value → ∀ view ∈ views value, good view) :
    Avoids bad (Answer.ofReading reading views) fun views => ∀ view ∈ views, good view :=
  (avoids.mono fun value _ holds => hands value holds).map

omit safe in
theorem ofCheck {α : Type} {checked : Except Failure α} {views : α → List View} {post : α → Prop}
    (avoids : Avoids (Failure.Stops bad) checked post)
    (hands : ∀ value, post value → ∀ view ∈ views value, good view) :
    Avoids bad (Answer.ofCheck checked views) fun views => ∀ view ∈ views, good view := by
  cases checked with
  | ok value => exact hands value avoids
  | error failure =>
      cases failure with
      | rejected error => exact List.forall_mem_nil _
      | faulted fault => exact avoids

omit safe in
theorem ofData {α : Type} {reading : Except Fault α} (avoids : Avoids bad reading anything) :
    Avoids bad (Answer.ofReading reading nothing) fun views => ∀ view ∈ views, good view :=
  ofReading avoids fun _ _ => List.forall_mem_nil _

omit safe in
theorem ofCheckedData {α : Type} {checked : Except Failure α}
    (avoids : Avoids (Failure.Stops bad) checked anything) :
    Avoids bad (Answer.ofCheck checked nothing) fun views => ∀ view ∈ views, good view :=
  ofCheck avoids fun _ _ => List.forall_mem_nil _

omit safe in
theorem forall_present {α : Type} {view : α → View} {found : Option α}
    (known : ∀ record ∈ found, good (view record)) :
    ∀ handed ∈ present view found, good handed := by
  cases found with
  | none => exact List.forall_mem_nil _
  | some record => simpa [present] using known record rfl

/-- No accessor of a safe view stops at a bad fault, and what it hands out is safe. -/
theorem access {view : View} {answer : Answer} (known : good view)
    (accessed : Access memory view answer) :
    Avoids bad answer fun views => ∀ handed ∈ views, good handed := by
  cases accessed with
  | addressHandle address =>
      simpa [Avoids] using safe.addressHandle address known
  | addressContext address =>
      have checked : Avoids (Failure.Stops bad) ((Context.check address).mapError .rejected)
          fun context => good (.context context) := by
        cases opened : Context.check address with
        | ok context => exact safe.addressContext address context known opened
        | error error => exact Avoids.rejected error
      exact ofCheck checked (by simp)
  | addressFields address => exact ofCheck (safe.addressFields address known) (by simp)
  | handleKindWord handle => exact ofCheckedData (safe.kindWord handle known)
  | handleMetadataKind handle => exact ofCheckedData (safe.kindWord handle known).mapped
  | handleCheckTypeKind handle => exact ofCheckedData (safe.checkTypeKind known)
  | handleTypeKind handle =>
      exact ofData (Avoids.strict safe.malformed (safe.checkTypeKind known))
  | handleCheckStruct handle => exact ofCheck (safe.checkStruct handle known) (by simp)
  | handleStruct handle =>
      exact ofReading (Avoids.strict safe.malformed (safe.checkStruct handle known)) (by simp)
  | handleCheckClass handle => exact ofCheck (safe.checkClass handle known) (by simp)
  | handleClass handle =>
      exact ofReading (Avoids.strict safe.malformed (safe.checkClass handle known)) (by simp)
  | handleCheckType handle => exact ofCheck (safe.checkReflected known) (by simp)
  | handleType handle =>
      exact ofReading (Avoids.strict safe.malformed (safe.checkReflected known)) (by simp)
  | handleLayout handle => exact ofCheckedData (safe.ofHandle known)
  | structParts type =>
      have parts := And.intro (safe.structHandle type known) (safe.structDescriptor type known)
      simpa [Avoids] using parts
  | structName type => exact ofData (safe.typeName _ (safe.structType known))
  | structQualifiedName type => exact ofData (safe.typeQualifiedName (safe.structType known))
  | structCheckFields type =>
      exact ofCheck (safe.checkFields _ (safe.structType known)) fun _ => forall_present
  | structFields type =>
      exact ofReading (safe.typeFields (safe.structType known)) fun _ => forall_present
  | structFieldCount type =>
      exact ofData (safe.structFieldCount (safe.structDescriptor type known))
  | structFieldOffsets type =>
      exact ofReading (safe.fieldOffsets type known) fun _ => forall_present
  | classParts type =>
      have descriptor := forall_present (safe.classDescriptor type known)
      exact Avoids.ok (List.forall_mem_cons.mpr ⟨safe.classHandle type known, descriptor⟩)
  | className type => exact ofData (safe.className known)
  | classQualifiedName type => exact ofData (safe.classQualifiedName known)
  | classCheckFields type => exact ofCheck (safe.classCheckFields known) fun _ => forall_present
  | classFields type =>
      exact ofReading (Avoids.strict safe.malformed (safe.classCheckFields known))
        fun _ => forall_present
  | classCheckSuperclass type =>
      exact ofCheck (safe.checkSuperclass type known) fun _ => forall_present
  | classSuperclass type =>
      exact ofReading (safe.classSuperclass known) fun _ => forall_present
  | classAncestors type limit =>
      have visits : ∀ inner, good (.classType inner) →
          Avoids bad (.ok inner) fun found => good (.classType found) := fun _ inner => inner
      exact ofReading (safe.classVisitAncestors known visits limit) (by simp)
  | classAncestorNames type limit =>
      exact ofData (safe.classVisitAncestors known (fun _ => safe.className) limit).anyway
  | classFlags type =>
      exact ofData (safe.classWord type known _ (by decide) (by decide))
  | classInstanceAddressPoint type =>
      exact ofData (safe.classWord type known _ (by decide) (by decide))
  | classInstanceSize type =>
      exact ofData (safe.classWord type known _ (by decide) (by decide))
  | classInstanceAlignmentMask type => exact ofData (safe.instanceAlignmentMask type known)
  | classSize type =>
      exact ofData (safe.classWord type known _ (by decide) (by decide))
  | classAddressPoint type =>
      exact ofData (safe.classWord type known _ (by decide) (by decide))
  | reflectedStruct type =>
      simpa [Avoids] using (safe.reflectedStruct type).mp known
  | reflectedClass type =>
      simpa [Avoids] using (safe.reflectedClass type).mp known
  | reflectedName type => exact ofData (safe.reflectedName known)
  | reflectedQualifiedName type => exact ofData (safe.reflectedQualifiedName known)
  | reflectedCheckFields type =>
      exact ofCheck (safe.reflectedCheckFields known) fun _ => forall_present
  | reflectedFields type =>
      exact ofReading (safe.reflectedFields known) fun _ => forall_present
  | reflectedCheckFieldCount type => exact ofCheckedData (safe.reflectedCheckFieldCount known)
  | reflectedCheckFieldOffsets type =>
      exact ofCheck (safe.reflectedCheckFieldOffsets known) fun _ => forall_present
  | reflectedLayout type => exact ofCheckedData (safe.ofType known)
  | contextFlags context => exact ofData (safe.flags context known)
  | contextKind context => exact ofData (safe.contextKind known)
  | contextParent context => exact ofReading (safe.parent context known) fun _ => forall_present
  | contextName context => exact ofData (safe.name context known)
  | contextAncestors context limit =>
      exact ofReading (safe.contextAncestors known limit) (by simp)
  | contextQualifiedName context => exact ofData (safe.contextQualifiedName known)
  | contextType context =>
      exact ofReading (safe.contextType context known) fun _ => forall_present
  | contextStruct context => exact ofCheck (safe.contextStruct context known) (by simp)
  | contextClass context => exact ofCheck (safe.contextClass context known) (by simp)
  | typeContext type => simpa [Avoids] using safe.typeContext type known
  | typeName type => exact ofData (safe.typeName type known)
  | typeQualifiedName type => exact ofData (safe.typeQualifiedName known)
  | typeAccessFunction type => exact ofData (safe.accessFunction type known)
  | typeCheckFields type => exact ofCheck (safe.checkFields type known) fun _ => forall_present
  | typeFields type => exact ofReading (safe.typeFields known) fun _ => forall_present
  | structDescriptorType descriptor =>
      simpa [Avoids] using safe.structDescriptorType descriptor known
  | structDescriptorFieldCount descriptor => exact ofData (safe.structFieldCount known)
  | structDescriptorLocator descriptor => exact ofData (safe.structLocator known)
  | structDescriptorHasOffsetVector descriptor => exact ofData (safe.structLocator known).mapped
  | classDescriptorType descriptor =>
      simpa [Avoids] using safe.classDescriptorType descriptor known
  | classDescriptorSuperclassType descriptor => exact ofData (safe.superclassType descriptor known)
  | classDescriptorNegativeWords descriptor =>
      exact ofData (safe.classDescriptorWord descriptor known _ (by decide) (by decide))
  | classDescriptorPositiveWords descriptor =>
      exact ofData (safe.classDescriptorWord descriptor known _ (by decide) (by decide))
  | classDescriptorImmediateMembers descriptor =>
      exact ofData (safe.classDescriptorWord descriptor known _ (by decide) (by decide))
  | fieldsKind descriptor => exact ofData (safe.fieldsKind descriptor known)
  | fieldsTypeName descriptor =>
      exact ofData (safe.fieldsName descriptor known _ (by decide) (by decide))
  | fieldsSuperclass descriptor =>
      exact ofData (safe.fieldsName descriptor known _ (by decide) (by decide))
  | fieldsRecordSize descriptor => exact ofData (safe.recordSize descriptor known)
  | fieldsFieldCount descriptor => exact ofData (safe.fieldCount descriptor known)
  | fieldsRecord descriptor index => exact ofData (safe.record? known index)
  | fieldsRecords descriptor => exact ofData (safe.records known)
  | fieldsCursor descriptor => exact ofReading (safe.allRecords known) (by simp)
  | cursorNext cursor => exact ofReading (safe.cursorNext known) fun _ => forall_present
  | cursorNextBack cursor => exact ofReading (safe.cursorNextBack known) fun _ => forall_present
  | cursorToList cursor => exact ofData (safe.cursorToList known)
  | cursorToListBack cursor => exact ofData (safe.cursorToListBack known)
  | sliceGet slice index => exact ofData (safe.sliceGet known index)
  | sliceToList slice => exact ofData (safe.sliceElements known 0 slice.count (by omega))

/-- All views reached from a safe view are safe. -/
theorem reachable {start view : View} (known : good start)
    (reached : Reachable memory start view) : good view := by
  induction reached with
  | start => exact known
  | access _ accessed handed ih => exact safe.access ih accessed _ handed

end SafeViews

end TypeReflection
