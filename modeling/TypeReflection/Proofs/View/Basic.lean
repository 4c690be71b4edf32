import TypeReflection.Layout.Basic

/-! # Views and their accessors

Reflection hands out views: a type handle, the metadata of a struct or a class, contexts,
descriptors, fields. Each accessor of a view reads memory and may hand out further views. `Access`
lists the accessors, and `Reachable` follows them from one view in any order.
-/

namespace TypeReflection

/-- What accessors are called on. -/
inductive View where
  /-- An address at which a record may be looked for. -/
  | address (address : Address)
  | handle (handle : TypeHandle)
  | structType (type : StructType)
  | classType (type : ClassType)
  | reflected (type : ReflectedType)
  | context (context : Context)
  | typeContext (type : TypeContext)
  | structDescriptor (descriptor : StructDescriptor)
  | classDescriptor (descriptor : ClassDescriptor)
  | fields (descriptor : FieldDescriptor)
  | cursor (cursor : FieldCursor)
  | slice (slice : Slice)

namespace View

variable {α : Type}

/-- No view: what accessors of plain data hand out. -/
def nothing : α → List View :=
  fun _ => []

/-- The view of a record that may be absent. -/
def present (view : α → View) : Option α → List View
  | some record => [view record]
  | none => []

/-- The cursor behind a record that was taken. -/
def advanced : Option (FieldRecord × FieldCursor) → List View :=
  present fun taken => .cursor taken.2

end View

/-- What an accessor hands out, or the fault that it stops at. -/
abbrev Answer : Type :=
  Except Fault (List View)

namespace Answer

variable {α : Type}

/-- The answer of an accessor that promises a value. -/
def ofReading (reading : Except Fault α) (views : α → List View) : Answer :=
  views <$> reading

/-- The answer of a checking accessor: a failed check is a value too, and hands out nothing. -/
def ofCheck (checked : Except Failure α) (views : α → List View) : Answer :=
  match checked with
  | .ok value => .ok (views value)
  | .error (.rejected _) => .ok []
  | .error (.faulted fault) => .error fault

end Answer

open View Answer in
/-- One call of an accessor on a view, and its answer. -/
inductive Access (memory : Memory) : View → Answer → Prop where
  | addressHandle (address) :
      Access memory (.address address) (.ok [.handle ⟨address⟩])
  | addressContext (address) :
      Access memory (.address address)
        (ofCheck ((Context.check address).mapError .rejected) fun context => [.context context])
  | addressFields (address) :
      Access memory (.address address)
        (ofCheck (FieldDescriptor.check memory address) fun descriptor => [.fields descriptor])
  | handleKindWord (handle) :
      Access memory (.handle handle) (ofCheck (handle.checkKindWord memory) nothing)
  | handleMetadataKind (handle) :
      Access memory (.handle handle) (ofCheck (handle.checkMetadataKind memory) nothing)
  | handleCheckTypeKind (handle) :
      Access memory (.handle handle) (ofCheck (handle.checkTypeKind memory) nothing)
  | handleTypeKind (handle) :
      Access memory (.handle handle) (ofReading (handle.typeKind memory) nothing)
  | handleCheckStruct (handle) :
      Access memory (.handle handle)
        (ofCheck (StructType.check handle memory) fun type => [.structType type])
  | handleStruct (handle) :
      Access memory (.handle handle)
        (ofReading (StructType.read handle memory) fun type => [.structType type])
  | handleCheckClass (handle) :
      Access memory (.handle handle)
        (ofCheck (ClassType.check handle memory) fun type => [.classType type])
  | handleClass (handle) :
      Access memory (.handle handle)
        (ofReading (ClassType.read handle memory) fun type => [.classType type])
  | handleCheckType (handle) :
      Access memory (.handle handle)
        (ofCheck (ReflectedType.check handle memory) fun type => [.reflected type])
  | handleType (handle) :
      Access memory (.handle handle)
        (ofReading (ReflectedType.read handle memory) fun type => [.reflected type])
  | handleLayout (handle) :
      Access memory (.handle handle) (ofCheck (TypeLayout.ofHandle handle memory) nothing)
  | structParts (type) :
      Access memory (.structType type)
        (.ok [.handle type.handle, .structDescriptor type.descriptor])
  | structName (type) :
      Access memory (.structType type) (ofReading (type.name memory) nothing)
  | structQualifiedName (type) :
      Access memory (.structType type) (ofReading (type.qualifiedName memory) nothing)
  | structCheckFields (type) :
      Access memory (.structType type) (ofCheck (type.checkFields memory) (present .fields))
  | structFields (type) :
      Access memory (.structType type) (ofReading (type.fields memory) (present .fields))
  | structFieldCount (type) :
      Access memory (.structType type) (ofReading (type.fieldCount memory) nothing)
  | structFieldOffsets (type) :
      Access memory (.structType type) (ofReading (type.fieldOffsets memory) (present .slice))
  | classParts (type) :
      Access memory (.classType type)
        (.ok (.handle type.handle :: present .classDescriptor type.descriptor))
  | className (type) :
      Access memory (.classType type) (ofReading (type.name memory) nothing)
  | classQualifiedName (type) :
      Access memory (.classType type) (ofReading (type.qualifiedName memory) nothing)
  | classCheckFields (type) :
      Access memory (.classType type) (ofCheck (type.checkFields memory) (present .fields))
  | classFields (type) :
      Access memory (.classType type) (ofReading (type.fields memory) (present .fields))
  | classCheckSuperclass (type) :
      Access memory (.classType type) (ofCheck (type.checkSuperclass memory) (present .classType))
  | classSuperclass (type) :
      Access memory (.classType type) (ofReading (type.superclass memory) (present .classType))
  | classAncestors (type) (limit : Nat) :
      Access memory (.classType type)
        (ofReading (type.ancestors memory limit).result (·.map .classType))
  | classAncestorNames (type) (limit : Nat) :
      Access memory (.classType type)
        (ofReading (type.visitAncestors memory limit fun inner => inner.name memory).result nothing)
  | classFlags (type) :
      Access memory (.classType type) (ofReading (type.flags memory) nothing)
  | classInstanceAddressPoint (type) :
      Access memory (.classType type) (ofReading (type.instanceAddressPoint memory) nothing)
  | classInstanceSize (type) :
      Access memory (.classType type) (ofReading (type.instanceSize memory) nothing)
  | classInstanceAlignmentMask (type) :
      Access memory (.classType type) (ofReading (type.instanceAlignmentMask memory) nothing)
  | classSize (type) :
      Access memory (.classType type) (ofReading (type.classSize memory) nothing)
  | classAddressPoint (type) :
      Access memory (.classType type) (ofReading (type.classAddressPoint memory) nothing)
  | reflectedStruct (type) :
      Access memory (.reflected (.ofStruct type)) (.ok [.structType type])
  | reflectedClass (type) :
      Access memory (.reflected (.ofClass type)) (.ok [.classType type])
  | reflectedName (type) :
      Access memory (.reflected type) (ofReading (type.name memory) nothing)
  | reflectedQualifiedName (type) :
      Access memory (.reflected type) (ofReading (type.qualifiedName memory) nothing)
  | reflectedCheckFields (type) :
      Access memory (.reflected type) (ofCheck (type.checkFields memory) (present .fields))
  | reflectedFields (type) :
      Access memory (.reflected type) (ofReading (type.fields memory) (present .fields))
  | reflectedCheckFieldCount (type) :
      Access memory (.reflected type) (ofCheck (type.checkFieldCount memory) nothing)
  | reflectedCheckFieldOffsets (type) :
      Access memory (.reflected type) (ofCheck (type.checkFieldOffsets memory) (present .slice))
  | reflectedLayout (type) :
      Access memory (.reflected type) (ofCheck (TypeLayout.ofType type memory) nothing)
  | contextFlags (context) :
      Access memory (.context context) (ofReading (context.flags memory) nothing)
  | contextKind (context) :
      Access memory (.context context) (ofReading (context.kind memory) nothing)
  | contextParent (context) :
      Access memory (.context context) (ofReading (context.parent memory) (present .context))
  | contextName (context) :
      Access memory (.context context) (ofReading (context.name memory) nothing)
  | contextAncestors (context) (limit : Nat) :
      Access memory (.context context)
        (ofReading (context.ancestors memory limit).result (·.map .context))
  | contextQualifiedName (context) :
      Access memory (.context context) (ofReading (context.qualifiedName memory) nothing)
  | contextType (context) :
      Access memory (.context context)
        (ofReading (TypeContext.ofContext? context memory) (present .typeContext))
  | contextStruct (context) :
      Access memory (.context context)
        (ofCheck (StructDescriptor.check context memory) fun found => [.structDescriptor found])
  | contextClass (context) :
      Access memory (.context context)
        (ofCheck (ClassDescriptor.check context memory) fun found => [.classDescriptor found])
  | typeContext (type) :
      Access memory (.typeContext type) (.ok [.context type.context])
  | typeName (type) :
      Access memory (.typeContext type) (ofReading (type.name memory) nothing)
  | typeQualifiedName (type) :
      Access memory (.typeContext type) (ofReading (type.qualifiedName memory) nothing)
  | typeAccessFunction (type) :
      Access memory (.typeContext type) (ofReading (type.accessFunction memory) nothing)
  | typeCheckFields (type) :
      Access memory (.typeContext type) (ofCheck (type.checkFields memory) (present .fields))
  | typeFields (type) :
      Access memory (.typeContext type) (ofReading (type.fields memory) (present .fields))
  | structDescriptorType (descriptor) :
      Access memory (.structDescriptor descriptor) (.ok [.typeContext descriptor.type])
  | structDescriptorFieldCount (descriptor) :
      Access memory (.structDescriptor descriptor)
        (ofReading (descriptor.fieldCount memory) nothing)
  | structDescriptorLocator (descriptor) :
      Access memory (.structDescriptor descriptor)
        (ofReading (descriptor.offsetVectorLocator memory) nothing)
  | structDescriptorHasOffsetVector (descriptor) :
      Access memory (.structDescriptor descriptor)
        (ofReading (descriptor.hasOffsetVector memory) nothing)
  | classDescriptorType (descriptor) :
      Access memory (.classDescriptor descriptor) (.ok [.typeContext descriptor.type])
  | classDescriptorSuperclassType (descriptor) :
      Access memory (.classDescriptor descriptor)
        (ofReading (descriptor.superclassType memory) nothing)
  | classDescriptorNegativeWords (descriptor) :
      Access memory (.classDescriptor descriptor)
        (ofReading (descriptor.negativeWords memory) nothing)
  | classDescriptorPositiveWords (descriptor) :
      Access memory (.classDescriptor descriptor)
        (ofReading (descriptor.positiveWords memory) nothing)
  | classDescriptorImmediateMembers (descriptor) :
      Access memory (.classDescriptor descriptor)
        (ofReading (descriptor.immediateMembers memory) nothing)
  | fieldsKind (descriptor) :
      Access memory (.fields descriptor) (ofReading (descriptor.kind memory) nothing)
  | fieldsTypeName (descriptor) :
      Access memory (.fields descriptor) (ofReading (descriptor.typeName memory) nothing)
  | fieldsSuperclass (descriptor) :
      Access memory (.fields descriptor) (ofReading (descriptor.superclass memory) nothing)
  | fieldsRecordSize (descriptor) :
      Access memory (.fields descriptor) (ofReading (descriptor.recordSize memory) nothing)
  | fieldsFieldCount (descriptor) :
      Access memory (.fields descriptor) (ofReading (descriptor.fieldCount memory) nothing)
  | fieldsRecord (descriptor) (index : Nat) :
      Access memory (.fields descriptor) (ofReading (descriptor.record? memory index) nothing)
  | fieldsRecords (descriptor) :
      Access memory (.fields descriptor) (ofReading (descriptor.records memory) nothing)
  | fieldsCursor (descriptor) :
      Access memory (.fields descriptor)
        (ofReading (FieldCursor.all descriptor memory) fun cursor => [.cursor cursor])
  | cursorNext (cursor) :
      Access memory (.cursor cursor) (ofReading (cursor.next memory) advanced)
  | cursorNextBack (cursor) :
      Access memory (.cursor cursor) (ofReading (cursor.nextBack memory) advanced)
  | cursorToList (cursor) :
      Access memory (.cursor cursor) (ofReading (cursor.toList memory) nothing)
  | cursorToListBack (cursor) :
      Access memory (.cursor cursor) (ofReading (cursor.toListBack memory) nothing)
  | sliceGet (slice) (index : Nat) :
      Access memory (.slice slice) (ofReading (slice.get? memory index) nothing)
  | sliceToList (slice) :
      Access memory (.slice slice) (ofReading (slice.toList memory) nothing)

/-- The views that accessors hand out, called on `start` and on what they hand out, in any
    order. -/
inductive Reachable (memory : Memory) (start : View) : View → Prop where
  | start : Reachable memory start start
  | access {view handed : View} {views : List View} :
      Reachable memory start view → Access memory view (.ok views) → handed ∈ views →
      Reachable memory start handed

end TypeReflection
