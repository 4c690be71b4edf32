import TypeReflection.Layout.Basic
import TypeReflection.Proofs.Reading

/-! # Readings in larger memories

A memory extends another if it holds all bytes of the other where they are. A reading that stopped
for lack of memory may then go on, but any other answer, a failed check or a fault included, is the
answer in the larger memory too.
-/

namespace TypeReflection

/-- The larger memory holds all that the smaller one holds. -/
def Memory.Extends (larger smaller : Memory) : Prop :=
  ∀ address byte, smaller.byte? address = some byte → larger.byte? address = some byte

/-- More memory changes the answer only where the reading stopped for lack of memory. -/
def Persists {ε α : Type} (bad : ε → Prop) (reading : Memory → Except ε α) : Prop :=
  ∀ larger smaller : Memory, larger.Extends smaller →
    reading larger = reading smaller ∨ ∃ error, reading smaller = .error error ∧ bad error

variable {ε α β : Type} {bad : ε → Prop}

/-- A reading that avoids bad errors has the same answer in a larger memory. -/
theorem Persists.same {reading : Memory → Except ε α} (persists : Persists bad reading)
    {larger smaller : Memory} (extends_ : larger.Extends smaller) {post : α → Prop}
    (avoids : Avoids bad (reading smaller) post) : reading larger = reading smaller := by
  rcases persists _ _ extends_ with same | ⟨error, stopped, is⟩
  · exact same
  · exact absurd is (avoids.error_of stopped)

namespace Persists

theorem const (answer : Except ε α) : Persists bad fun _ => answer :=
  fun _ _ _ => .inl rfl

/-- The rule for readings in sequence. -/
theorem bind {first : Memory → Except ε α} {next : α → Memory → Except ε β}
    (one : Persists bad first) (rest : ∀ value, Persists bad (next value)) :
    Persists bad fun memory => first memory >>= fun value => next value memory := by
  intro larger smaller extends_
  dsimp only
  rcases one _ _ extends_ with same | ⟨error, stopped, is⟩
  · rw [same]
    cases first smaller with
    | ok value => exact rest value _ _ extends_
    | error error => exact .inl rfl
  · rw [stopped]
    exact .inr ⟨error, rfl, is⟩

theorem map {reading : Memory → Except ε α} (persists : Persists bad reading) (f : α → β) :
    Persists bad fun memory => f <$> reading memory := by
  intro larger smaller extends_
  dsimp only
  rcases persists _ _ extends_ with same | ⟨error, stopped, is⟩
  · exact .inl (congrArg (f <$> ·) same)
  · rw [stopped]
    exact .inr ⟨error, rfl, is⟩

/-- The rule for a choice that does not depend on memory. -/
theorem ite {condition : Prop} [Decidable condition] {yes no : Memory → Except ε α}
    (first : Persists bad yes) (second : Persists bad no) :
    Persists bad fun memory => if condition then yes memory else no memory := by
  by_cases holds : condition
  · simpa only [if_pos holds] using first
  · simpa only [if_neg holds] using second

/-- The rule for lists read item by item. -/
theorem mapM {f : α → Memory → Except ε β} {items : List α}
    (each : ∀ item, Persists bad (f item)) :
    Persists bad fun memory => items.mapM fun item => f item memory := by
  induction items with
  | nil => exact const (.ok [])
  | cons item items ih =>
      simp only [List.mapM_cons]
      exact (each item).bind fun first => ih.bind fun rest => const (.ok (first :: rest))

/-- A plain reading inside a checking reader. -/
theorem lift {bad : Fault → Prop} {reading : Memory → Except Fault α}
    (persists : Persists bad reading) :
    Persists (Failure.Stops bad) fun memory => (liftM (reading memory) : Except Failure α) := by
  intro larger smaller extends_
  dsimp only
  rcases persists _ _ extends_ with same | ⟨error, stopped, is⟩
  · exact .inl (congrArg _ same)
  · rw [stopped]
    exact .inr ⟨.faulted error, rfl, is⟩

/-- A checking reader whose failed checks are faults too. -/
theorem strict {bad : Fault → Prop} {checked : Memory → Except Failure α}
    (persists : Persists (Failure.Stops bad) checked) :
    Persists bad fun memory => TypeReflection.strict (checked memory) := by
  intro larger smaller extends_
  dsimp only
  rcases persists _ _ extends_ with same | ⟨failure, stopped, is⟩
  · exact .inl (congrArg _ same)
  · rw [stopped]
    cases failure with
    | rejected error => exact absurd is id
    | faulted fault => exact .inr ⟨fault, rfl, is⟩

end Persists

/-! ## Bytes, numbers and strings -/

namespace Memory

theorem byte_persists (address : UInt64) :
    Persists Fault.IsUnmapped fun memory => memory.byte address := by
  intro larger smaller extends_
  cases stored : smaller.byte? address with
  | some byte => exact .inl (by simp [Memory.byte, stored, extends_ address byte stored])
  | none => exact .inr ⟨.unmapped address, by simp [Memory.byte, stored], trivial⟩

theorem bytes_persists (address : UInt64) (count : Nat) :
    Persists Fault.IsUnmapped fun memory => memory.bytes address count := by
  induction count generalizing address with
  | zero => exact .const (.ok [])
  | succ count ih =>
      exact (byte_persists address).bind fun first =>
        (ih (address + 1)).bind fun rest => .const (.ok (first :: rest))

theorem read_persists (scalar : Scalar) (address : Address) :
    Persists Fault.IsUnmapped fun memory => memory.read scalar address := by
  apply Persists.ite
  · exact (bytes_persists address.bits scalar.size).bind fun stored => .const _
  · exact .const _

theorem readAt_persists (scalar : Scalar) (address : Address) (offset : UInt64) :
    Persists Fault.IsUnmapped fun memory => memory.readAt scalar address offset :=
  (Persists.const (address.add offset)).bind fun moved => read_persists scalar moved

theorem readU16_persists (address : Address) (position : Nat) :
    Persists Fault.IsUnmapped fun memory => memory.readU16 address position :=
  (readAt_persists .u16 address (.ofNat position)).map UInt16.ofNat

theorem readU32_persists (address : Address) (position : Nat) :
    Persists Fault.IsUnmapped fun memory => memory.readU32 address position :=
  (readAt_persists .u32 address (.ofNat position)).map UInt32.ofNat

theorem readPointer_persists (address : Address) (position : Nat) :
    Persists Fault.IsUnmapped fun memory => memory.readPointer address position :=
  ((readAt_persists .word address (.ofNat position)).map UInt64.ofNat).map Address.ofBits?

theorem bytesToZero_persists (address : UInt64) (limit : Nat) :
    Persists Fault.IsUnmapped fun memory => memory.bytesToZero address limit := by
  induction limit generalizing address with
  | zero => exact .const _
  | succ limit ih =>
      apply (byte_persists address).bind
      intro first
      apply Persists.ite
      · exact .const _
      · exact (ih (address + 1)).bind fun rest => .const (.ok (first :: rest))

theorem cString_persists (address : Address) :
    Persists Fault.IsUnmapped fun memory => memory.cString address :=
  bytesToZero_persists address.bits (room address.bits)

end Memory

theorem EncodedName.scan_persists (address : UInt64) (pending limit : Nat) :
    Persists Fault.IsUnmapped fun memory => EncodedName.scan memory address pending limit := by
  induction limit generalizing address pending with
  | zero => exact .const _
  | succ limit ih =>
      apply (Memory.byte_persists address).bind
      intro first
      cases pending with
      | succ pending =>
          exact (ih (address + 1) pending).bind fun rest => .const (.ok (first :: rest))
      | zero =>
          apply Persists.ite
          · exact .const _
          · exact (ih (address + 1) _).bind fun rest => .const (.ok (first :: rest))

theorem EncodedName.read_persists (address : Address) :
    Persists Fault.IsUnmapped fun memory => EncodedName.read memory address :=
  (scan_persists address.bits 0 (Memory.room address.bits)).map EncodedName.mk

namespace Slice

variable (slice : Slice)

theorem element_persists (index : Nat) :
    Persists Fault.IsUnmapped fun memory => slice.element memory index :=
  (Memory.bytes_persists _ _).map ofLittleEndian

theorem get?_persists (index : Nat) :
    Persists Fault.IsUnmapped fun memory => slice.get? memory index := by
  apply Persists.ite
  · exact (slice.element_persists index).map some
  · exact .const _

theorem elements_persists (index count : Nat) :
    Persists Fault.IsUnmapped fun memory => slice.elements memory index count := by
  induction count generalizing index with
  | zero => exact .const _
  | succ count ih =>
      exact (slice.element_persists index).bind fun first =>
        (ih (index + 1)).bind fun rest => .const (.ok (first :: rest))

theorem toList_persists : Persists Fault.IsUnmapped slice.toList :=
  slice.elements_persists 0 slice.count

end Slice

/-! ## Links -/

theorem Memory.readOffset_persists (anchor : Address) :
    Persists Fault.IsUnmapped fun memory => memory.readOffset anchor :=
  (read_persists .i32 anchor).map _

namespace DirectLink

theorem readAt_persists (record : Address) (position : Nat) :
    Persists Fault.IsUnmapped fun memory => readAt memory record position :=
  (Persists.const (record.add _)).bind fun anchor =>
    (Memory.readOffset_persists anchor).map (DirectLink.mk anchor)

variable {view : Memory → Address → Except Fault α} (link : DirectLink)
  (views : ∀ target, Persists Fault.IsUnmapped fun memory => view memory target)

include views

theorem get_persists : Persists Fault.IsUnmapped fun memory => link.get (view memory) :=
  (Persists.const link.target).bind views

theorem get?_persists : Persists Fault.IsUnmapped fun memory => link.get? (view memory) := by
  apply Persists.ite
  · exact .const _
  · exact (link.get_persists views).map some

end DirectLink

namespace IndirectableLink

theorem read_persists (anchor : Address) :
    Persists Fault.IsUnmapped fun memory => read memory anchor :=
  (Memory.readOffset_persists anchor).map (IndirectableLink.mk anchor)

variable (link : IndirectableLink)

theorem target_persists : Persists Fault.IsUnmapped link.target := by
  apply Persists.ite
  · exact .const _
  · apply Persists.ite
    · apply (Persists.const link.slot).bind
      intro slot
      apply Persists.ite
      · apply (Memory.readPointer_persists slot 0).bind
        intro found
        cases found with
        | some target => exact .const _
        | none => exact .const _
      · exact .const _
    · exact .const _

theorem get?_persists {view : Memory → Address → Except Fault α}
    (views : ∀ target, Persists Fault.IsUnmapped fun memory => view memory target) :
    Persists Fault.IsUnmapped fun memory => link.get? memory (view memory) := by
  apply Persists.ite
  · exact .const _
  · exact (link.target_persists.bind views).map some

end IndirectableLink

/-! ## Walks -/

namespace Walk

variable {next : Memory → α → Except ε (Option α)} {visit : Memory → α → Except ε β}

/-- A walk goes the same way in a larger memory, or stopped at a bad error. -/
theorem along_persists (steps : ∀ item, Persists bad fun memory => next memory item)
    (visits : ∀ item, Persists bad fun memory => visit memory item) (limit : Nat) (item : α)
    {larger smaller : Memory} (extends_ : larger.Extends smaller) :
    along (next larger) (visit larger) limit item = along (next smaller) (visit smaller) limit item ∨
      ∃ error, (along (next smaller) (visit smaller) limit item).ending = .failed error ∧
        bad error := by
  induction limit generalizing item with
  | zero => exact .inl rfl
  | succ limit ih =>
      rcases steps item _ _ extends_ with same | ⟨error, stopped, is⟩
      case inr => exact .inr ⟨error, by simp [along, stopped], is⟩
      case inl =>
          simp only [along, same]
          cases next smaller item with
          | error error => exact .inl rfl
          | ok following =>
              rcases visits item _ _ extends_ with same | ⟨error, stopped, is⟩
              case inr => exact .inr ⟨error, by simp [stopped], is⟩
              case inl =>
                  simp only [same]
                  cases visit smaller item with
                  | error error => exact .inl rfl
                  | ok visited =>
                      cases following with
                      | none => exact .inl rfl
                      | some following =>
                          rcases ih following with rest | stopped
                          · exact .inl (by simp [rest])
                          · exact .inr stopped

theorem result_persists (steps : ∀ item, Persists bad fun memory => next memory item)
    (visits : ∀ item, Persists bad fun memory => visit memory item) (limit : Nat) (item : α) :
    Persists bad fun memory => (along (next memory) (visit memory) limit item).result := by
  intro larger smaller extends_
  dsimp only
  rcases along_persists steps visits limit item extends_ with same | ⟨error, stopped, is⟩
  · exact .inl (congrArg result same)
  · exact .inr ⟨error, by simp [result, stopped], is⟩

theorem wholeResult_persists (steps : ∀ item, Persists bad fun memory => next memory item)
    (visits : ∀ item, Persists bad fun memory => visit memory item) (limit : Nat) (item : α)
    (unfinished : ε) : Persists bad fun memory =>
      (along (next memory) (visit memory) limit item).wholeResult unfinished := by
  intro larger smaller extends_
  dsimp only
  rcases along_persists steps visits limit item extends_ with same | ⟨error, stopped, is⟩
  · exact .inl (congrArg (wholeResult · unfinished) same)
  · exact .inr ⟨error, by simp [wholeResult, stopped], is⟩

end Walk

/-! ## Contexts -/

namespace Context

variable (context : Context)

theorem flags_persists : Persists Fault.IsUnmapped context.flags :=
  (Memory.readU32_persists context.address _).map ContextFlags.mk

theorem kind_persists : Persists Fault.IsUnmapped context.kind :=
  context.flags_persists.map ContextFlags.kind

theorem parent_persists : Persists Fault.IsUnmapped context.parent := by
  have link : Persists Fault.IsUnmapped context.parentLink :=
    (Persists.const (context.address.add _)).bind IndirectableLink.read_persists
  exact link.bind fun link => link.get?_persists fun target => .const (ofTarget target)

theorem name_persists : Persists Fault.IsUnmapped context.name := by
  apply context.kind_persists.bind
  intro kind
  apply Persists.ite
  · exact (DirectLink.readAt_persists context.address _).bind fun link =>
      link.get?_persists Memory.cString_persists
  · exact .const _

theorem ancestors_persists (limit : Nat) :
    Persists Fault.IsUnmapped fun memory => (context.ancestors memory limit).result :=
  Walk.result_persists parent_persists (fun inner => .const (.ok inner)) limit context

theorem qualifiedName_persists : Persists Fault.IsUnmapped context.qualifiedName := by
  have names : Persists Fault.IsUnmapped context.namesOutward :=
    Walk.wholeResult_persists parent_persists name_persists UInt64.size context .endlessChain
  exact names.bind fun names => .const _

end Context

/-! ## Field descriptors -/

namespace FieldDescriptor

theorem check_persists (address : Address) :
    Persists (Failure.Stops Fault.IsUnmapped) fun memory => check memory address := by
  apply Persists.ite
  · apply (Memory.readU16_persists address _).lift.bind
    intro size
    exact .const _
  · exact .const _

variable (descriptor : FieldDescriptor)

theorem kind_persists : Persists Fault.IsUnmapped descriptor.kind :=
  (Memory.readU16_persists descriptor.address _).map _

theorem encodedName_persists (position : Nat) :
    Persists Fault.IsUnmapped fun memory => descriptor.encodedName memory position :=
  (DirectLink.readAt_persists descriptor.address position).bind fun link =>
    link.get?_persists EncodedName.read_persists

theorem recordSize_persists : Persists Fault.IsUnmapped descriptor.recordSize :=
  (Memory.readU16_persists descriptor.address _).map UInt16.toNat

theorem fieldCount_persists : Persists Fault.IsUnmapped descriptor.fieldCount :=
  (Memory.readU32_persists descriptor.address _).map UInt32.toNat

theorem readRecord_persists (index : Nat) :
    Persists Fault.IsUnmapped fun memory => descriptor.readRecord memory index := by
  apply descriptor.recordSize_persists.bind
  intro size
  apply (Persists.const (descriptor.address.add _)).bind
  intro base
  apply (Memory.readU32_persists base _).bind
  intro flags
  apply (DirectLink.readAt_persists base _).bind
  intro typeLink
  apply (DirectLink.readAt_persists base _).bind
  intro nameLink
  apply (typeLink.get?_persists EncodedName.read_persists).bind
  intro typeName
  exact (nameLink.get_persists Memory.cString_persists).bind fun name => .const _

theorem record?_persists (index : Nat) :
    Persists Fault.IsUnmapped fun memory => descriptor.record? memory index := by
  apply descriptor.fieldCount_persists.bind
  intro count
  apply Persists.ite
  · exact (descriptor.readRecord_persists index).map some
  · exact .const _

theorem readRecords_persists (index count : Nat) :
    Persists Fault.IsUnmapped fun memory => descriptor.readRecords memory index count := by
  induction count generalizing index with
  | zero => exact .const _
  | succ count ih =>
      exact (descriptor.readRecord_persists index).bind fun first =>
        (ih (index + 1)).bind fun rest => .const (.ok (first :: rest))

theorem readRecordsBack_persists (index count : Nat) :
    Persists Fault.IsUnmapped fun memory => descriptor.readRecordsBack memory index count := by
  induction count with
  | zero => exact .const _
  | succ count ih =>
      exact (descriptor.readRecord_persists (index + count)).bind fun last =>
        ih.bind fun rest => .const (.ok (last :: rest))

theorem cursor_persists : Persists Fault.IsUnmapped (FieldCursor.all descriptor) :=
  descriptor.fieldCount_persists.bind fun _ => .const _

theorem records_persists : Persists Fault.IsUnmapped descriptor.records :=
  descriptor.cursor_persists.bind fun cursor =>
    cursor.descriptor.readRecords_persists cursor.front cursor.size

end FieldDescriptor

namespace FieldCursor

variable (cursor : FieldCursor)

theorem next_persists : Persists Fault.IsUnmapped cursor.next := by
  apply Persists.ite
  · exact .const _
  · exact (cursor.descriptor.readRecord_persists cursor.front).bind fun record => .const _

theorem nextBack_persists : Persists Fault.IsUnmapped cursor.nextBack := by
  apply Persists.ite
  · exact .const _
  · exact (cursor.descriptor.readRecord_persists (cursor.back - 1)).bind fun record => .const _

end FieldCursor

/-! ## Types -/

namespace TypeContext

theorem ofContext?_persists (context : Context) :
    Persists Fault.IsUnmapped (ofContext? context) :=
  context.kind_persists.bind fun _ => .const _

theorem check_persists (context : Context) (expected : ContextKind) :
    Persists (Failure.Stops Fault.IsUnmapped) fun memory => check context memory expected := by
  apply context.kind_persists.lift.bind
  intro found
  exact .const _

variable (type : TypeContext)

theorem name_persists : Persists Fault.IsUnmapped type.name :=
  (DirectLink.readAt_persists type.context.address _).bind fun link =>
    link.get_persists Memory.cString_persists

theorem accessFunction_persists : Persists Fault.IsUnmapped type.accessFunction :=
  (DirectLink.readAt_persists type.address _).bind fun link =>
    link.get?_persists fun target => .const (.ok target)

theorem checkFields_persists : Persists (Failure.Stops Fault.IsUnmapped) type.checkFields := by
  apply (DirectLink.readAt_persists type.address _).lift.bind
  intro link
  apply (link.get?_persists fun target => .const (.ok target)).lift.bind
  intro found
  cases found with
  | none => exact .const _
  | some address => exact (FieldDescriptor.check_persists address).map some

end TypeContext

theorem StructDescriptor.check_persists (context : Context) :
    Persists (Failure.Stops Fault.IsUnmapped) (StructDescriptor.check context) :=
  (TypeContext.check_persists context .structType).map StructDescriptor.mk

theorem ClassDescriptor.check_persists (context : Context) :
    Persists (Failure.Stops Fault.IsUnmapped) (ClassDescriptor.check context) :=
  (TypeContext.check_persists context .classType).map ClassDescriptor.mk

theorem ClassDescriptor.superclassType_persists (descriptor : ClassDescriptor) :
    Persists Fault.IsUnmapped descriptor.superclassType :=
  (DirectLink.readAt_persists descriptor.address _).bind fun link =>
    link.get?_persists EncodedName.read_persists

theorem StructDescriptor.fieldCount_persists (descriptor : StructDescriptor) :
    Persists Fault.IsUnmapped descriptor.fieldCount :=
  (Memory.readU32_persists descriptor.address _).map UInt32.toNat

theorem StructDescriptor.offsetVectorLocator_persists (descriptor : StructDescriptor) :
    Persists Fault.IsUnmapped descriptor.offsetVectorLocator :=
  (Memory.readU32_persists descriptor.address _).map UInt32.toNat

/-! ## Metadata -/

namespace TypeHandle

variable (handle : TypeHandle)

theorem checkKindWord_persists :
    Persists (Failure.Stops Fault.IsUnmapped) handle.checkKindWord := by
  apply Persists.ite
  · exact (Memory.read_persists .word handle.address).lift.bind fun bits => .const _
  · exact .const _

theorem checkTypeKind_persists :
    Persists (Failure.Stops Fault.IsUnmapped) handle.checkTypeKind :=
  handle.checkKindWord_persists.bind fun _ => .const _

theorem checkShape_persists (expected : TypeKind) :
    Persists (Failure.Stops Fault.IsUnmapped) fun memory => handle.checkShape memory expected :=
  handle.checkTypeKind_persists.bind fun _ => .const _

end TypeHandle

theorem StructType.check_persists (handle : TypeHandle) :
    Persists (Failure.Stops Fault.IsUnmapped) (StructType.check handle) := by
  apply (handle.checkShape_persists .structType).bind
  intro _
  apply (Memory.readPointer_persists handle.address _).lift.bind
  intro found
  cases found with
  | none => exact .const _
  | some address =>
      exact (Persists.const (liftM (Context.check address))).bind fun context =>
        (StructDescriptor.check_persists context).bind fun descriptor => .const _

theorem StructType.fieldOffsets_persists (type : StructType) :
    Persists Fault.IsUnmapped type.fieldOffsets := by
  apply type.descriptor.offsetVectorLocator_persists.bind
  intro locator
  apply Persists.ite
  · exact .const _
  · exact (Persists.const (type.handle.address.add _)).bind fun start =>
      type.descriptor.fieldCount_persists.bind fun _ => .const _

theorem ClassType.check_persists (handle : TypeHandle) :
    Persists (Failure.Stops Fault.IsUnmapped) (ClassType.check handle) := by
  apply (handle.checkShape_persists .classType).bind
  intro _
  apply (Memory.readPointer_persists handle.address _).lift.bind
  intro found
  cases found with
  | none => exact .const _
  | some address =>
      exact (Persists.const (liftM (Context.check address))).bind fun context =>
        (ClassDescriptor.check_persists context).bind fun descriptor => .const _

namespace ClassType

variable (type : ClassType)

theorem name_persists : Persists Fault.IsUnmapped type.name := by
  obtain ⟨handle, descriptor⟩ := type
  cases descriptor with
  | none => exact .const _
  | some descriptor => exact descriptor.type.name_persists.map some

theorem qualifiedName_persists : Persists Fault.IsUnmapped type.qualifiedName := by
  obtain ⟨handle, descriptor⟩ := type
  cases descriptor with
  | none => exact .const _
  | some descriptor => exact descriptor.type.context.qualifiedName_persists.map some

theorem checkFields_persists : Persists (Failure.Stops Fault.IsUnmapped) type.checkFields := by
  obtain ⟨handle, descriptor⟩ := type
  cases descriptor with
  | none => exact .const _
  | some descriptor => exact descriptor.type.checkFields_persists

theorem checkSuperclass_persists :
    Persists (Failure.Stops Fault.IsUnmapped) type.checkSuperclass := by
  apply (Memory.readPointer_persists type.handle.address _).lift.bind
  intro found
  cases found with
  | none => exact .const _
  | some address => exact (ClassType.check_persists ⟨address⟩).map some

theorem visitAncestors_persists (limit : Nat) {visit : Memory → ClassType → Except Fault β}
    (visits : ∀ inner, Persists Fault.IsUnmapped fun memory => visit memory inner) :
    Persists Fault.IsUnmapped fun memory =>
      (type.visitAncestors memory limit (visit memory)).result :=
  Walk.result_persists (fun inner => inner.checkSuperclass_persists.strict) visits limit type

end ClassType

namespace ReflectedType

theorem check_persists (handle : TypeHandle) :
    Persists (Failure.Stops Fault.IsUnmapped) (ReflectedType.check handle) := by
  apply handle.checkTypeKind_persists.bind
  intro kind
  cases kind with
  | structType => exact (StructType.check_persists handle).map ofStruct
  | classType => exact (ClassType.check_persists handle).map ofClass

variable (type : ReflectedType)

theorem name_persists : Persists Fault.IsUnmapped type.name := by
  cases type with
  | ofStruct type => exact type.descriptor.type.name_persists.map some
  | ofClass type => exact type.name_persists

theorem qualifiedName_persists : Persists Fault.IsUnmapped type.qualifiedName := by
  cases type with
  | ofStruct type => exact type.descriptor.type.context.qualifiedName_persists.map some
  | ofClass type => exact type.qualifiedName_persists

theorem checkFields_persists : Persists (Failure.Stops Fault.IsUnmapped) type.checkFields := by
  cases type with
  | ofStruct type => exact type.descriptor.type.checkFields_persists
  | ofClass type => exact type.checkFields_persists

theorem fields_persists : Persists Fault.IsUnmapped type.fields := by
  cases type with
  | ofStruct type => exact type.descriptor.type.checkFields_persists.strict
  | ofClass type => exact type.checkFields_persists.strict

theorem checkFieldCount_persists :
    Persists (Failure.Stops Fault.IsUnmapped) type.checkFieldCount := by
  cases type with
  | ofStruct type => exact type.descriptor.fieldCount_persists.lift
  | ofClass type => exact .const _

theorem checkFieldOffsets_persists :
    Persists (Failure.Stops Fault.IsUnmapped) type.checkFieldOffsets := by
  cases type with
  | ofStruct type => exact type.fieldOffsets_persists.lift
  | ofClass type => exact .const _

theorem offsetVector_persists : Persists Fault.IsUnmapped type.offsetVector := by
  cases type with
  | ofStruct type => exact type.fieldOffsets_persists
  | ofClass type => exact .const _

theorem checkSuperclass_persists :
    Persists (Failure.Stops Fault.IsUnmapped) type.checkSuperclass := by
  cases type with
  | ofStruct type => exact .const _
  | ofClass type => exact type.checkSuperclass_persists

theorem fieldCount?_persists : Persists Fault.IsUnmapped type.fieldCount? := by
  cases type with
  | ofStruct type => exact type.descriptor.fieldCount_persists.map some
  | ofClass type => exact .const _

end ReflectedType

namespace TypeLayout

theorem fieldsOf?_persists (descriptor : Option FieldDescriptor) (vector : Option Slice) :
    Persists Fault.IsUnmapped (fieldsOf? descriptor vector) := by
  have offset (index : Nat) :
      Persists Fault.IsUnmapped fun memory => offsetOf vector memory index := by
    cases vector with
    | none => exact .const _
    | some vector => exact (vector.get?_persists index).map _
  cases descriptor with
  | none => exact .const _
  | some descriptor =>
      apply descriptor.records_persists.bind
      intro records
      exact .mapM fun item => (offset item.2).map _

theorem superclassName_persists (superclass : Option ClassType) :
    Persists Fault.IsUnmapped (superclassName superclass) := by
  cases superclass with
  | none => exact .const _
  | some superclass => exact superclass.qualifiedName_persists

theorem ofType_persists (type : ReflectedType) :
    Persists (Failure.Stops Fault.IsUnmapped) (ofType type) := by
  apply type.offsetVector_persists.lift.bind
  intro vector
  apply type.checkFields_persists.bind
  intro descriptor
  apply (fieldsOf?_persists descriptor vector).lift.bind
  intro fields
  apply type.checkSuperclass_persists.bind
  intro superclass
  apply (superclassName_persists superclass).lift.bind
  intro superclassName
  apply type.name_persists.lift.bind
  intro name
  apply type.qualifiedName_persists.lift.bind
  intro qualifiedName
  exact type.fieldCount?_persists.lift.bind fun fieldCount => .const _

theorem ofHandle_persists (handle : TypeHandle) :
    Persists (Failure.Stops Fault.IsUnmapped) (ofHandle handle) :=
  (ReflectedType.check_persists handle).bind ofType_persists

end TypeLayout

end TypeReflection
