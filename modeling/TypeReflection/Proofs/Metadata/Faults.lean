import TypeReflection.Proofs.Metadata.Acceptance
import TypeReflection.Proofs.View.Alignment

/-! # Where checks stop

A check is there to report malformed metadata, and reports most of it: where all memory can be read,
the checks of a handle stop at nothing. Only arithmetic that wraps around to null gets past them,
and it can come from three places that malformed metadata controls.
-/

namespace TypeReflection

/-- The check stops at a fault instead of a report. -/
def Faults {α : Type} (checked : Except Failure α) : Prop :=
  ∃ fault, checked = .error (.faulted fault)

section Faults

variable {α β : Type}

theorem not_faults_ok (value : α) : ¬Faults (.ok value) :=
  nofun

theorem not_faults_rejected (error : MetadataError) :
    ¬Faults (throw (.rejected error) : Except Failure α) :=
  nofun

theorem not_faults_ite {condition : Prop} [Decidable condition] (value : α)
    (error : MetadataError) :
    ¬Faults (if condition then pure value else throw (.rejected error) : Except Failure α) := by
  split
  · exact not_faults_ok value
  · exact not_faults_rejected error

theorem faults_bind_iff {first : Except Failure α} {rest : α → Except Failure β} :
    Faults (first >>= rest) ↔ Faults first ∨ ∃ value, first = .ok value ∧ Faults (rest value) := by
  cases first with
  | ok value => simp [Faults, bind, Except.bind]
  | error failure => simp [Faults, bind, Except.bind]

theorem faults_map_iff {checked : Except Failure α} {f : α → β} :
    Faults (f <$> checked) ↔ Faults checked := by
  cases checked with
  | ok value => simp [Faults]
  | error failure => simp [Faults, Functor.map, Except.map]

/-- What stops a plain reading stops the check that it is part of. -/
theorem faults_lift_bind_iff {reading : Except Fault α} {rest : α → Except Failure β} :
    Faults ((liftM reading : Except Failure α) >>= rest) ↔
      (∃ fault, reading = .error fault) ∨ ∃ value, reading = .ok value ∧ Faults (rest value) := by
  cases reading with
  | ok value =>
      change Faults (rest value) ↔ _
      simp
  | error fault => exact iff_of_true ⟨fault, rfl⟩ (.inl ⟨fault, rfl⟩)

theorem faults_check_bind_iff {checked : Except MetadataError α} {rest : α → Except Failure β} :
    Faults ((liftM checked : Except Failure α) >>= rest) ↔
      ∃ value, checked = .ok value ∧ Faults (rest value) := by
  cases checked with
  | ok value =>
      change Faults (rest value) ↔ _
      simp
  | error error => exact iff_of_false nofun nofun

theorem outcome_of_not_faults {checked : Except Failure α} (answers : ¬Faults checked) :
    (∃ value, checked = .ok value) ∨ ∃ error, checked = .error (.rejected error) := by
  cases checked with
  | ok value => exact .inl ⟨value, rfl⟩
  | error failure =>
    cases failure with
    | rejected error => exact .inr ⟨error, rfl⟩
    | faulted fault => exact absurd ⟨fault, rfl⟩ answers

/-- Checks that do not stop have not stopped on the way. -/
theorem bind_answers {checked : Except Failure α} {next : α → Except Failure β}
    (answers : ¬Faults (checked >>= next)) :
    ¬Faults checked ∧ ∀ value, checked = .ok value → ¬Faults (next value) := by
  rw [faults_bind_iff, not_or] at answers
  refine ⟨answers.1, ?_⟩
  intro value given faults
  exact answers.2 ⟨value, given, faults⟩

theorem lift_bind_answers {reading : Except Fault α} {next : α → Except Failure β}
    (answers : ¬Faults ((liftM reading : Except Failure α) >>= next)) :
    ∃ value, reading = .ok value ∧ ¬Faults (next value) := by
  cases reading with
  | ok value => exact ⟨value, rfl, answers⟩
  | error fault => exact absurd ⟨fault, rfl⟩ answers

end Faults

/-! ## Readings where all memory can be read -/

theorem error_bind_iff {ε α β : Type} {first : Except ε α} {rest : α → Except ε β} :
    (∃ error, first >>= rest = .error error) ↔
      (∃ error, first = .error error) ∨
        ∃ value, first = .ok value ∧ ∃ error, rest value = .error error := by
  cases first <;> simp [bind, Except.bind]

theorem error_map_iff {ε α β : Type} {reading : Except ε α} {f : α → β} :
    (∃ error, f <$> reading = .error error) ↔ ∃ error, reading = .error error := by
  cases reading <;> simp [Functor.map, Except.map]

namespace Address

variable {address : Address}

theorem offset_error_iff {delta : Int64} :
    (∃ fault, address.offset delta = .error fault) ↔ address.bits + delta.toUInt64 = 0 := by
  unfold offset offset? ofBits?
  by_cases null : address.bits + delta.toUInt64 = 0
  · simp [null]
  · simp [null]

theorem add_error_iff {count : UInt64} :
    (∃ fault, address.add count = .error fault) ↔ address.bits + count = 0 := by
  rw [add, offset_error_iff, UInt64.toUInt64_toInt64]

end Address

/-- The link leads to null. -/
def DirectLink.Wraps (link : DirectLink) : Prop :=
  resolveOffset? link.anchor.bits link.offset = some 0

theorem DirectLink.get?_error_iff {link : DirectLink} :
    (∃ fault, link.get? .ok = (.error fault : Except Fault (Option Address))) ↔ link.Wraps := by
  unfold get? Wraps resolveOffset? resolveOffset
  cases absent : link.isAbsent with
  | true =>
      have zero : isAbsentOffset link.offset = true := absent
      simp [zero, Except.toOption]
  | false =>
      have some : isAbsentOffset link.offset = false := absent
      have target : link.target = link.anchor.offset link.offset.toInt64 := by
        rw [DirectLink.target, if_neg (by simp [absent])]
      rw [if_neg (by simp), error_map_iff, get, error_bind_iff, or_iff_left (by simp), target,
        Address.offset_error_iff]
      simp [some, Except.toOption]

section Total

variable {memory : Memory} (total : ∀ address, memory.byte? address ≠ none)

include total

namespace Memory

theorem bytes_of_total (address : UInt64) (count : Nat) :
    ∃ stored, memory.bytes address count = .ok stored := by
  induction count generalizing address with
  | zero => exact ⟨[], rfl⟩
  | succ count ih =>
      obtain ⟨rest, given⟩ := ih (address + 1)
      cases found : memory.byte? address with
      | none => exact absurd found (total address)
      | some first =>
          refine ⟨first :: rest, ?_⟩
          rw [bytes, byte, found, given]
          rfl

theorem read_of_total {scalar : Scalar} {address : Address}
    (aligned : scalar.size ∣ address.bits.toNat) :
    ∃ number, memory.read scalar address = .ok number := by
  obtain ⟨stored, given⟩ := bytes_of_total total address.bits scalar.size
  refine ⟨ofLittleEndian stored, ?_⟩
  rw [read, if_pos (Address.isAligned_iff.mpr aligned), given]
  rfl

/-- Inside an aligned record only the place of a number can be amiss. -/
theorem readAt_error_iff {scalar : Scalar} {address : Address} {position : Nat}
    (aligned : scalar.size ∣ address.bits.toNat) (multiple : scalar.size ∣ position) :
    (∃ fault, memory.readAt scalar address (.ofNat position) = .error fault) ↔
      address.bits + .ofNat position = 0 := by
  rw [readAt, error_bind_iff, Address.add_error_iff, or_iff_left]
  rintro ⟨moved, given, fault, stopped⟩
  have placed := (Address.add_avoids_misaligned scalar.size_dvd_size aligned multiple).ok_of given
  obtain ⟨number, found⟩ := read_of_total total placed
  rw [found] at stopped
  cases stopped

theorem readU16_error_iff {address : Address} {position : Nat} (aligned : 2 ∣ address.bits.toNat)
    (multiple : 2 ∣ position) :
    (∃ fault, memory.readU16 address position = .error fault) ↔
      address.bits + .ofNat position = 0 := by
  rw [readU16, error_map_iff]
  exact readAt_error_iff total aligned multiple

theorem readU32_error_iff {address : Address} {position : Nat} (aligned : 4 ∣ address.bits.toNat)
    (multiple : 4 ∣ position) :
    (∃ fault, memory.readU32 address position = .error fault) ↔
      address.bits + .ofNat position = 0 := by
  rw [readU32, error_map_iff]
  exact readAt_error_iff total aligned multiple

theorem readPointer_error_iff {address : Address} {position : Nat}
    (aligned : 8 ∣ address.bits.toNat) (multiple : 8 ∣ position) :
    (∃ fault, memory.readPointer address position = .error fault) ↔
      address.bits + .ofNat position = 0 := by
  rw [readPointer, error_map_iff, readWord, error_map_iff]
  exact readAt_error_iff total aligned multiple

end Memory

/-! ## Checks of one record -/

namespace TypeHandle

variable (handle : TypeHandle)

theorem checkKindWord_not_faults : ¬Faults (handle.checkKindWord memory) := by
  unfold checkKindWord
  split
  case isTrue aligned =>
      obtain ⟨bits, given⟩ : ∃ bits, memory.read .word handle.address = .ok bits :=
        Memory.read_of_total total (Address.isAligned_iff.mp aligned)
      rw [given]
      exact not_faults_ok _
  case isFalse => exact not_faults_rejected _

theorem checkTypeKind_not_faults : ¬Faults (handle.checkTypeKind memory) := by
  rw [checkTypeKind, faults_bind_iff, or_iff_right (handle.checkKindWord_not_faults total)]
  rintro ⟨raw, _, faults⟩
  split at faults
  · exact not_faults_ok _ faults
  · exact not_faults_rejected _ faults

theorem checkShape_not_faults (expected : TypeKind) :
    ¬Faults (handle.checkShape memory expected) := by
  rw [checkShape, faults_bind_iff, or_iff_right (handle.checkTypeKind_not_faults total)]
  rintro ⟨found, _, faults⟩
  exact not_faults_ite _ _ faults

/-- A check of the shape and of what a pointer of the metadata leads to can only miss the
    pointer. -/
theorem opening_faults_iff {handle : TypeHandle} {α : Type} {expected : TypeKind} {position : Nat}
    (multiple : 8 ∣ position) {rest : Option Address → Except Failure α}
    (harmless : ∀ found, ¬Faults (rest found)) :
    Faults (handle.checkShape memory expected >>= fun _ =>
        (liftM (memory.readPointer handle.address position) : Except Failure (Option Address)) >>=
          rest) ↔
      handle.checkShape memory expected = .ok () ∧
        handle.address.bits + .ofNat position = 0 := by
  rw [faults_bind_iff, or_iff_right (handle.checkShape_not_faults total expected)]
  constructor
  · rintro ⟨⟨⟩, shape, faults⟩
    have aligned := (handle.shape_avoids_misaligned memory expected).ok_of shape
    rw [faults_lift_bind_iff, Memory.readPointer_error_iff total aligned multiple,
      or_iff_left fun ⟨found, _, late⟩ => harmless found late] at faults
    exact ⟨shape, faults⟩
  · rintro ⟨shape, null⟩
    have aligned := (handle.shape_avoids_misaligned memory expected).ok_of shape
    refine ⟨(), shape, ?_⟩
    rw [faults_lift_bind_iff, Memory.readPointer_error_iff total aligned multiple]
    exact .inl null

end TypeHandle

theorem TypeContext.check_not_faults {context : Context} (aligned : context.address.AtDescriptor)
    (expected : ContextKind) : ¬Faults (TypeContext.check context memory expected) := by
  have flags : ¬∃ fault, context.kind memory = .error fault := by
    rw [Context.kind, error_map_iff, Context.flags, error_map_iff,
      Memory.readU32_error_iff total aligned (by decide)]
    simpa [Format.Context.flags] using context.address.ne_null
  rw [TypeContext.check, faults_lift_bind_iff, or_iff_right flags]
  rintro ⟨found, _, faults⟩
  exact not_faults_ite _ _ faults

theorem TypeContext.view_not_faults {α β : Type} (address : Address) (expected : ContextKind)
    (descriptor : TypeContext → α) (view : α → β) :
    ¬Faults ((liftM (Context.check address) : Except Failure Context) >>= fun context =>
      (descriptor <$> TypeContext.check context memory expected) >>= fun found =>
        pure (view found)) := by
  rw [faults_check_bind_iff]
  rintro ⟨context, given, faults⟩
  rw [faults_bind_iff, faults_map_iff] at faults
  rcases faults with faults | ⟨found, _, faults⟩
  · exact check_not_faults total (Context.aligned_of_check given) expected faults
  · exact not_faults_ok _ faults

theorem FieldDescriptor.check_not_faults (address : Address) :
    ¬Faults (FieldDescriptor.check memory address) := by
  unfold check
  split
  case isTrue aligned =>
      have size : ¬∃ fault, memory.readU16 address Format.FieldDescriptor.recordSize
          = .error fault := by
        have placed : 4 ∣ address.bits.toNat := Address.isAligned_iff.mp aligned
        rw [Memory.readU16_error_iff total (by omega) (by decide)]
        intro null
        -- a multiple of four plus ten is none, so it cannot be null
        have sum : (address.bits.toNat + 10) % 2 ^ 64 = 0 := by
          simpa [Format.FieldDescriptor.recordSize] using congrArg UInt64.toNat null
        omega
      rw [faults_lift_bind_iff, or_iff_right size]
      rintro ⟨found, _, faults⟩
      exact not_faults_ite _ _ faults
  case isFalse => exact not_faults_rejected _

/-! ## Links to fields -/

theorem DirectLink.readAt_error_iff {record : Address} {position : Nat}
    (aligned : 4 ∣ record.bits.toNat) (multiple : 4 ∣ position) :
    (∃ fault, DirectLink.readAt memory record position = .error fault) ↔
      record.bits + .ofNat position = 0 := by
  rw [DirectLink.readAt, error_bind_iff, Address.add_error_iff, or_iff_left]
  rintro ⟨anchor, given, stopped⟩
  have placed := (Address.add_avoids_misaligned (by decide) aligned multiple).ok_of given
  obtain ⟨bits, found⟩ : ∃ bits, memory.read .i32 anchor = .ok bits :=
    Memory.read_of_total total placed
  rw [DirectLink.read, error_map_iff, Memory.readOffset, error_map_iff, found] at stopped
  exact nomatch stopped

/-- The link to the fields stands at null or leads there. -/
def TypeContext.FieldsWrap (type : TypeContext) (memory : Memory) : Prop :=
  type.address.bits + .ofNat Format.Context.fields = 0 ∨
    ∃ link, DirectLink.readAt memory type.address Format.Context.fields = .ok link ∧ link.Wraps

theorem TypeContext.checkFields_faults_iff {type : TypeContext}
    (aligned : type.address.AtDescriptor) :
    Faults (type.checkFields memory) ↔ type.FieldsWrap memory := by
  rw [checkFields, faults_lift_bind_iff,
    DirectLink.readAt_error_iff total aligned (by decide)]
  refine or_congr_right (exists_congr fun link => and_congr_right fun _ => ?_)
  rw [faults_lift_bind_iff, DirectLink.get?_error_iff]
  refine or_iff_left ?_
  rintro ⟨found, _, faults⟩
  cases found with
  | none => exact not_faults_ok _ faults
  | some address => exact FieldDescriptor.check_not_faults total address (faults_map_iff.mp faults)

/-! ## Metadata -/

theorem StructType.check_faults_iff {handle : TypeHandle} :
    Faults (check handle memory) ↔ handle.checkShape memory .structType = .ok () ∧
      handle.address.bits + .ofNat Format.StructMetadata.descriptor = 0 := by
  refine TypeHandle.opening_faults_iff total (by decide) fun found => ?_
  cases found with
  | none => exact not_faults_rejected _
  | some address =>
      exact TypeContext.view_not_faults total address .structType StructDescriptor.mk
        fun descriptor => (⟨handle, descriptor⟩ : StructType)

theorem ClassType.check_faults_iff {handle : TypeHandle} :
    Faults (check handle memory) ↔ handle.checkShape memory .classType = .ok () ∧
      handle.address.bits + .ofNat Format.ClassMetadata.descriptor = 0 := by
  refine TypeHandle.opening_faults_iff total (by decide) fun found => ?_
  cases found with
  | none => exact not_faults_ok _
  | some address =>
      exact TypeContext.view_not_faults total address .classType ClassDescriptor.mk
        fun descriptor => (⟨handle, some descriptor⟩ : ClassType)

theorem StructType.checkFields_faults_iff {handle : TypeHandle} {type : StructType}
    (given : check handle memory = .ok type) :
    Faults (type.checkFields memory) ↔ type.descriptor.type.FieldsWrap memory :=
  have aligned := (check_avoids_misaligned handle memory).ok_of given
  TypeContext.checkFields_faults_iff total aligned.2

theorem ClassType.checkFields_faults_iff {handle : TypeHandle} {type : ClassType}
    (given : check handle memory = .ok type) :
    Faults (type.checkFields memory) ↔
      ∃ descriptor ∈ type.descriptor, descriptor.type.FieldsWrap memory := by
  have aligned := (check_avoids_misaligned handle memory).ok_of given
  unfold checkFields
  cases found : type.descriptor with
  | none => simp [not_faults_ok]
  | some descriptor =>
      have fields : descriptor.address.AtDescriptor := aligned.2 descriptor found
      simpa using TypeContext.checkFields_faults_iff total fields

theorem ReflectedType.check_faults_iff {handle : TypeHandle} :
    Faults (check handle memory) ↔ ∃ kind, handle.checkTypeKind memory = .ok kind ∧
      match kind with
      | .structType => Faults (StructType.check handle memory)
      | .classType => Faults (ClassType.check handle memory) := by
  rw [check, faults_bind_iff, or_iff_right (handle.checkTypeKind_not_faults total)]
  refine exists_congr fun kind => and_congr_right fun _ => ?_
  cases kind <;> exact faults_map_iff

/-- The superclass has the shape of a class, and its descriptor would stand at null. -/
def ClassType.SuperclassWraps (type : ClassType) (memory : Memory) : Prop :=
  ∃ address, memory.readPointer type.handle.address Format.ClassMetadata.superclass
      = .ok (some address) ∧
    TypeHandle.checkShape ⟨address⟩ memory .classType = .ok () ∧
      address.bits + .ofNat Format.ClassMetadata.descriptor = 0

theorem ClassType.checkSuperclass_faults_iff {type : ClassType}
    (aligned : 8 ∣ type.handle.address.bits.toNat)
    (inside : type.handle.address.bits + .ofNat Format.ClassMetadata.superclass ≠ 0) :
    Faults (type.checkSuperclass memory) ↔ type.SuperclassWraps memory := by
  rw [checkSuperclass, faults_lift_bind_iff,
    Memory.readPointer_error_iff total aligned (by decide), or_iff_right inside]
  constructor
  · rintro ⟨found, given, faults⟩
    cases found with
    | none => exact absurd faults (not_faults_ok _)
    | some address =>
        exact ⟨address, given, (check_faults_iff total).mp (faults_map_iff.mp faults)⟩
  · rintro ⟨address, given, wraps⟩
    exact ⟨some address, given, faults_map_iff.mpr ((check_faults_iff total).mpr wraps)⟩

end Total

/-! ## Handles -/

/-- Where the checks of a handle and of the views behind it stop: nowhere but in three places, and
    there only at arithmetic that wraps around to null. -/
structure TypeHandle.Reports (handle : TypeHandle) (memory : Memory) : Prop where
  metadataKind : ¬Faults (handle.checkMetadataKind memory)
  typeKind : ¬Faults (handle.checkTypeKind memory)
  structType : ¬Faults (StructType.check handle memory)
  classType : ¬Faults (ClassType.check handle memory)
  reflectedType : ¬Faults (ReflectedType.check handle memory)
  structFields : ∀ type, StructType.check handle memory = .ok type →
    (Faults (type.checkFields memory) ↔ type.descriptor.type.FieldsWrap memory)
  classFields : ∀ type, ClassType.check handle memory = .ok type →
    (Faults (type.checkFields memory) ↔
      ∃ descriptor ∈ type.descriptor, descriptor.type.FieldsWrap memory)
  superclass : ∀ type, ClassType.check handle memory = .ok type →
    (Faults (type.checkSuperclass memory) ↔ type.SuperclassWraps memory)
  reflectedFields : ∀ type, ReflectedType.check handle memory = .ok type →
    (Faults (type.checkFields memory) ↔
      match type with
      | .ofStruct type => type.descriptor.type.FieldsWrap memory
      | .ofClass type => ∃ descriptor ∈ type.descriptor, descriptor.type.FieldsWrap memory)

/-- In memory that can be read everywhere, malformed metadata is reported unless arithmetic wraps
    around to null. -/
theorem malformed_reported {memory : Memory} (total : ∀ address, memory.byte? address ≠ none)
    {handle : TypeHandle} (fits : handle.address.bits.toNat + 48 ≤ UInt64.size) :
    handle.Reports memory := by
  have inside {position : Nat} (early : position < 48) :
      handle.address.bits + .ofNat position ≠ 0 :=
    Address.add_ofNat_ne_null (by omega)
  have structType : ¬Faults (StructType.check handle memory) := fun faults =>
    inside (by decide) ((StructType.check_faults_iff total).mp faults).2
  have classType : ¬Faults (ClassType.check handle memory) := fun faults =>
    inside (by decide) ((ClassType.check_faults_iff total).mp faults).2
  constructor
  case metadataKind =>
      rw [TypeHandle.checkMetadataKind, faults_map_iff]
      exact handle.checkKindWord_not_faults total
  case typeKind => exact handle.checkTypeKind_not_faults total
  case structType => exact structType
  case classType => exact classType
  case reflectedType =>
      rw [ReflectedType.check_faults_iff total]
      rintro ⟨kind, _, faults⟩
      cases kind with
      | structType => exact structType faults
      | classType => exact classType faults
  case structFields => exact fun _ given => StructType.checkFields_faults_iff total given
  case classFields => exact fun _ given => ClassType.checkFields_faults_iff total given
  case superclass =>
      intro type given
      have aligned := (ClassType.check_avoids_misaligned handle memory).ok_of given
      have legible := TypeHandle.isLegible_of_total total fits
      have same := ((ClassType.check_decides legible rfl).views type given).1
      exact ClassType.checkSuperclass_faults_iff total aligned.1 (same ▸ inside (by decide))
  case reflectedFields =>
      intro type given
      obtain ⟨kind, _, view⟩ := bind_eq_ok.mp given
      cases kind with
      | structType =>
          obtain ⟨type, checked, rfl⟩ := map_eq_ok.mp view
          exact StructType.checkFields_faults_iff total checked
      | classType =>
          obtain ⟨type, checked, rfl⟩ := map_eq_ok.mp view
          exact ClassType.checkFields_faults_iff total checked

/-- Memory that is mapped everywhere and zero except for the metadata of a struct and its
    descriptor, whose link to the fields leads back to null. -/
def strayStruct : Memory :=
  Memory.store ⟨fun _ => some 0⟩ 0x1000
    #[0x00, 0x02, 0, 0, 0, 0, 0, 0, 0x10, 0x10, 0, 0, 0, 0, 0, 0,
      0x51, 0, 0, 0, 0, 0, 0, 0, 0, 0, 0, 0, 0, 0, 0, 0, 0xE0, 0xEF, 0xFF, 0xFF]

theorem strayStruct_total (address : UInt64) : strayStruct.byte? address ≠ none := by
  simp [strayStruct, Memory.store]

theorem strayStruct_accepted : StructType.check ⟨0x1000, by decide⟩ strayStruct
    = .ok ⟨⟨0x1000, by decide⟩, ⟨⟨⟨0x1010, by decide⟩⟩⟩⟩ :=
  ok_of_toOption (by decide +kernel)

theorem malformed_reported_strayStruct :
    TypeHandle.Reports ⟨0x1000, by decide⟩ strayStruct :=
  malformed_reported strayStruct_total (by decide)

/-- The struct is accepted, and then the check of its fields reports nothing. -/
theorem malformed_unreported_strayStruct :
    (∀ address, strayStruct.byte? address ≠ none) ∧
      ∃ type, StructType.check ⟨0x1000, by decide⟩ strayStruct = .ok type ∧
        type.checkFields strayStruct
          = .error (.faulted (.wrappedToNull ⟨0x1020, by decide⟩ (-0x1020))) :=
  ⟨strayStruct_total, _, strayStruct_accepted, rfl⟩

end TypeReflection
