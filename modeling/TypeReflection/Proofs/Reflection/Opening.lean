import TypeReflection.Proofs.Reflection.Entry

/-! # Opening emitted types

A handle of emitted metadata gives the view of a struct or of a class exactly if its kind word
stands for that shape. Any other outcome is a rejection, and no fault.
-/

namespace TypeReflection

variable {memory : Memory} {base : Address} {metadata place : Nat}

/-- The check failed, rather than what it reads. -/
def IsRejected {α : Type} (checked : Except Failure α) : Prop :=
  ∃ error, checked = .error (.rejected error)

theorem IsRejected.bind {α β : Type} {checked : Except Failure α}
    (rejected : IsRejected checked) (next : α → Except Failure β) :
    IsRejected (checked >>= next) := by
  obtain ⟨error, rfl⟩ := rejected
  exact ⟨error, rfl⟩

/-! ## Symbols -/

namespace Image

variable {image : Image} {offset : Nat}

theorem handle_eq_ok {role : Role} (metadata : role ≠ .context)
    (inside : image.base.bits.toNat + offset < UInt64.size) :
    image.handle ⟨image.id, offset, role⟩ = .ok ⟨image.base.past offset⟩ := by
  have resolved : Symbol.resolveMetadata ⟨image.id, offset, role⟩ image.id = .ok offset := by
    cases role with
    | context => exact absurd rfl metadata
    | structMetadata => simp [Symbol.resolveMetadata, Symbol.resolve]
    | classMetadata => simp [Symbol.resolveMetadata, Symbol.resolve]
  rw [handle, resolved]
  change (liftM (image.base.add (.ofNat offset)) >>= _ : Except LookupError TypeHandle) = _
  rw [Address.add_eq_past inside]
  rfl

theorem context_eq_ok {found : Context}
    (inside : image.base.bits.toNat + offset < UInt64.size)
    (checked : Context.check (image.base.past offset) = .ok found) :
    image.context ⟨image.id, offset, .context⟩ = .ok found := by
  have resolved : Symbol.resolve ⟨image.id, offset, .context⟩ image.id .context = .ok offset := by
    simp [Symbol.resolve]
  rw [context, resolved]
  change (liftM (image.base.add (.ofNat offset)) >>= _ : Except LookupError Context) = _
  rw [Address.add_eq_past inside]
  change (Context.check (image.base.past offset)).mapError _ = _
  rw [checked]
  rfl

end Image

/-! ## Kind words -/

namespace TypeHandle

variable {handle : TypeHandle} {word : UInt64} {kind : TypeKind}

theorem checkTypeKind_eq_ok (known : handle.checkKindWord memory = .ok word)
    (shape : (MetadataKind.ofRaw word).typeKind? = some kind) :
    handle.checkTypeKind memory = .ok kind := by
  refine bind_eq_ok.mpr ⟨word, known, ?_⟩
  rw [shape]
  rfl

theorem checkTypeKind_unsupported (known : handle.checkKindWord memory = .ok word)
    (shape : (MetadataKind.ofRaw word).typeKind? = none) :
    handle.checkTypeKind memory
      = .error (.rejected (.unsupportedKind handle.address.bits word)) := by
  rw [checkTypeKind, known]
  dsimp only [bind, Except.bind]
  rw [shape]
  rfl

theorem checkTypeKind_rejected (known : handle.checkKindWord memory = .ok word)
    (shape : (MetadataKind.ofRaw word).typeKind? = none) :
    IsRejected (handle.checkTypeKind memory) :=
  ⟨_, checkTypeKind_unsupported known shape⟩

theorem checkShape_eq_ok (known : handle.checkKindWord memory = .ok word)
    (shape : (MetadataKind.ofRaw word).typeKind? = some kind) :
    handle.checkShape memory kind = .ok () := by
  refine bind_eq_ok.mpr ⟨kind, checkTypeKind_eq_ok known shape, ?_⟩
  rw [if_pos rfl]
  rfl

theorem checkShape_rejected (known : handle.checkKindWord memory = .ok word)
    (other : (MetadataKind.ofRaw word).typeKind? ≠ some kind) :
    IsRejected (handle.checkShape memory kind) := by
  cases shape : (MetadataKind.ofRaw word).typeKind? with
  | none => exact (checkTypeKind_rejected known shape).bind _
  | some found =>
      have apart : found ≠ kind := fun same => other (same ▸ shape)
      refine ⟨.wrongKind handle.address.bits kind.name, ?_⟩
      rw [checkShape, checkTypeKind_eq_ok known shape]
      change (if found = kind then pure () else throw _ : Except Failure Unit) = _
      rw [if_neg apart]
      rfl

end TypeHandle

/-! ## Descriptors -/

namespace TypeContext

variable {context : Context} {kind : ContextKind}

theorem check_eq_ok (known : context.kind memory = .ok kind) :
    check context memory kind = .ok ⟨context⟩ := by
  rw [check, known]
  exact if_pos rfl

theorem check_rejected {expected : ContextKind} (known : context.kind memory = .ok kind)
    (other : kind ≠ expected) : IsRejected (check context memory expected) := by
  refine ⟨.descriptorKindMismatch context.address.bits expected kind, ?_⟩
  rw [check, known]
  exact if_neg other

end TypeContext

/-! ## Structs -/

namespace StructDefinition.Shows

variable {definition : StructDefinition} (shows : definition.Shows memory base metadata place)

include shows

theorem check_eq_ok {parent : Option Context} {name : Option (List UInt8)}
    (context : (⟨base.past place⟩ : Context).Shows memory .structType parent name)
    (shape : definition.nominal.shape? .structType = some .structType) :
    StructType.check ⟨base.past metadata⟩ memory
      = .ok ⟨⟨base.past metadata⟩, ⟨⟨⟨base.past place⟩⟩⟩⟩ := by
  have opened := TypeHandle.checkShape_eq_ok shows.kindWord_eq shape
  rw [StructType.check, opened, shows.descriptor_eq]
  change (liftM (Context.check (base.past place)) >>= _ : Except Failure StructType) = _
  rw [context.check_eq]
  change StructDescriptor.check ⟨base.past place⟩ memory >>= _ = _
  rw [StructDescriptor.check, TypeContext.check_eq_ok context.kind_eq]
  rfl

/-- The metadata of a struct is never taken for anything else. -/
theorem check_rejected :
    (definition.nominal.shape? .structType ≠ some .structType →
        IsRejected (StructType.check ⟨base.past metadata⟩ memory)) ∧
      IsRejected (ClassType.check ⟨base.past metadata⟩ memory) := by
  refine ⟨fun other => (TypeHandle.checkShape_rejected shows.kindWord_eq other).bind _, ?_⟩
  have other : definition.nominal.shape? .structType ≠ some .classType := by
    intro same
    cases shows.fits .classType same
  exact (TypeHandle.checkShape_rejected shows.kindWord_eq other).bind _

end StructDefinition.Shows

/-! ## Offset vectors -/

theorem Memory.Holds.entry {offsets : List UInt32} {start : Nat}
    (holds : memory.Holds start (offsets.flatMap fun offset => littleEndian 4 offset.toNat))
    {index : Nat} (inside : index < offsets.length) :
    memory.Holds (start + 4 * index) (littleEndian 4 offsets[index].toNat) := by
  induction offsets generalizing start index with
  | nil => exact absurd inside (Nat.not_lt_zero _)
  | cons offset offsets ih =>
      rw [List.flatMap_cons] at holds
      obtain ⟨first, rest⟩ := Memory.holds_append.mp holds
      rw [length_littleEndian] at rest
      cases index with
      | zero => exact first
      | succ index => exact (ih rest (Nat.lt_of_succ_lt_succ inside)).of_eq (by omega)

namespace StructDefinition.Shows

variable {definition : StructDefinition} (shows : definition.Shows memory base metadata place)

include shows

theorem inside : base.bits.toNat + metadata < UInt64.size := by
  have fits := shows.offsets_hold.fits
  have word : Format.wordSize = 8 := rfl
  omega

theorem fieldOffsets_none (absent : definition.offsets = none) :
    StructType.fieldOffsets ⟨⟨base.past metadata⟩, ⟨⟨⟨base.past place⟩⟩⟩⟩ memory = .ok none := by
  have locator := shows.locator_eq
  simp only [offsetVectorLocator, absent] at locator
  exact bind_eq_ok.mpr ⟨0, locator, rfl⟩

/-- The vector stands behind the two words that all struct metadata has. -/
theorem fieldOffsets_some {offsets : List UInt32} (given : definition.offsets = some offsets) :
    StructType.fieldOffsets ⟨⟨base.past metadata⟩, ⟨⟨⟨base.past place⟩⟩⟩⟩ memory
      = (base.past metadata).add (.ofNat (2 * Format.wordSize)) >>= fun start =>
          .ok (some ⟨.u32, start, definition.nominal.fields.length % UInt32.size⟩) := by
  have locator := shows.locator_eq
  simp only [offsetVectorLocator, given] at locator
  rw [StructType.fieldOffsets, locator]
  change (base.past metadata).add (.ofNat (2 * Format.wordSize)) >>= _ = _
  cases moved : (base.past metadata).add (.ofNat (2 * Format.wordSize)) with
  | error fault => rfl
  | ok start =>
      have whole : start.isAligned Scalar.u32.size = true := by
        rw [Address.isAligned_iff, Address.bits_of_add moved]
        refine dvd_toNat_add (by decide) ?_ (by decide)
        rw [Address.toNat_past shows.inside]
        exact Nat.dvd_trans (by decide) shows.aligned
      change StructDescriptor.fieldCount ⟨⟨⟨base.past place⟩⟩⟩ memory >>= _ = _
      rw [shows.fieldCount_eq]
      change some <$> Slice.of .u32 start _ = _
      rw [Slice.of, if_pos whole]
      rfl

theorem element_eq {offsets : List UInt32} (given : definition.offsets = some offsets)
    {start : Address} (moved : (base.past metadata).add (.ofNat (2 * Format.wordSize)) = .ok start)
    (count : Nat) {index : Nat} (inside : index < offsets.length) :
    (⟨.u32, start, count⟩ : Slice).element memory index = .ok offsets[index].toNat := by
  have holds := shows.offsets_hold
  rw [storedOffsets, given, Option.getD_some] at holds
  have read := (holds.entry inside).bytes
  rw [length_littleEndian, UInt64.ofNat_add, UInt64.ofNat_add, ← Address.bits_past shows.inside,
    ← Address.bits_of_add moved] at read
  have small : offsets[index].toNat % capacity 4 = offsets[index].toNat :=
    Nat.mod_eq_of_lt offsets[index].toNat_lt
  rw [Slice.element]
  change ofLittleEndian <$> memory.bytes (start.bits + .ofNat (4 * index)) 4 = _
  rw [read, map_ok, ofLittleEndian_littleEndian, small]

end StructDefinition.Shows

/-! ## Classes -/

namespace ClassDefinition

/-- The view of an emitted class. -/
def view (definition : ClassDefinition) (base : Address) (metadata place : Nat) : ClassType where
  handle := ⟨base.past metadata⟩
  descriptor := if definition.isLinked then some ⟨⟨⟨base.past place⟩⟩⟩ else none

theorem qualifiedName_view (definition : ClassDefinition) {qualifiedName : String}
    (named : (⟨base.past place⟩ : Context).qualifiedName memory = .ok qualifiedName) :
    (definition.view base metadata place).qualifiedName memory
      = .ok (if definition.isLinked then some qualifiedName else none) := by
  rw [view, ClassType.qualifiedName]
  cases definition.isLinked with
  | false => rfl
  | true => exact map_eq_ok.mpr ⟨qualifiedName, named, rfl⟩

namespace Shows

variable {definition : ClassDefinition} (shows : definition.Shows memory base metadata place)

include shows

theorem check_eq_ok {parent : Option Context} {name : Option (List UInt8)}
    (context : (⟨base.past place⟩ : Context).Shows memory .classType parent name)
    (shape : definition.nominal.shape? .classType = some .classType) :
    ClassType.check ⟨base.past metadata⟩ memory = .ok (definition.view base metadata place) := by
  have opened := TypeHandle.checkShape_eq_ok shows.kindWord_eq shape
  rw [ClassType.check, opened, shows.descriptor_eq, view]
  cases definition.isLinked with
  | false => rfl
  | true =>
      change (liftM (Context.check (base.past place)) >>= _ : Except Failure ClassType) = _
      rw [context.check_eq]
      change ClassDescriptor.check ⟨base.past place⟩ memory >>= _ = _
      rw [ClassDescriptor.check, TypeContext.check_eq_ok context.kind_eq]
      rfl

/-- The metadata of a class is never taken for anything else. -/
theorem check_rejected :
    (definition.nominal.shape? .classType ≠ some .classType →
        IsRejected (ClassType.check ⟨base.past metadata⟩ memory)) ∧
      IsRejected (StructType.check ⟨base.past metadata⟩ memory) := by
  refine ⟨fun other => (TypeHandle.checkShape_rejected shows.kindWord_eq other).bind _, ?_⟩
  have other : definition.nominal.shape? .classType ≠ some .structType := by
    intro same
    cases shows.fits .structType same
  exact (TypeHandle.checkShape_rejected shows.kindWord_eq other).bind _

/-- Metadata whose kind word stands for no shape is reported with that word. -/
theorem check_unsupported (shape : definition.nominal.shape? .classType = none) :
    ClassType.check ⟨base.past metadata⟩ memory
      = .error (.rejected (.unsupportedKind (base.past metadata).bits
          (definition.nominal.kindWord .classType))) := by
  rw [ClassType.check, TypeHandle.checkShape,
    TypeHandle.checkTypeKind_unsupported shows.kindWord_eq shape]
  rfl

theorem checkSuperclass_none (absent : definition.superclass = none) :
    (definition.view base metadata place).checkSuperclass memory = .ok none := by
  have pointer := shows.superclass_eq
  rw [absent] at pointer
  change (liftM (memory.readPointer (base.past metadata) Format.ClassMetadata.superclass) >>= _ :
    Except Failure (Option ClassType)) = _
  rw [pointer]
  rfl

theorem checkSuperclass_some {symbol : Symbol} {name : List UInt8}
    (given : definition.superclass = some (symbol, name)) :
    (definition.view base metadata place).checkSuperclass memory
      = some <$> ClassType.check ⟨base.past symbol.offset⟩ memory := by
  have pointer := shows.superclass_eq
  rw [given] at pointer
  change (liftM (memory.readPointer (base.past metadata) Format.ClassMetadata.superclass) >>= _ :
    Except Failure (Option ClassType)) = _
  rw [pointer]
  rfl

end Shows

end ClassDefinition

end TypeReflection
