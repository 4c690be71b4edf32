import TypeReflection.Metadata.Type
import TypeReflection.Proofs.Memory

/-! # What the validators accept

The validators of metadata stop at the first condition of a list that does not hold. Here the lists
are written down over the words that memory stores, and each validator is proved equal to the search
for the first broken one.
-/

namespace TypeReflection

/-! ## Stored words -/

namespace Memory

/-- The number that `width` bytes from `start` on stand for. -/
def number (memory : Memory) (start width : Nat) : Nat :=
  ofLittleEndian ((List.range width).map fun index =>
    (memory.byte? (.ofNat (start + index))).getD 0)

/-- The machine word at `start`. -/
def wordAt (memory : Memory) (start : Nat) : UInt64 :=
  .ofNat (memory.number start 8)

/-- The context kind in the flags at `start`. -/
def contextKindAt (memory : Memory) (start : Nat) : Nat :=
  memory.number start 4 % 32

variable {memory : Memory} {start : Nat}

theorem Holds.number_eq {bytes : List UInt8} (holds : memory.Holds start bytes) :
    memory.number start bytes.length = ofLittleEndian bytes := by
  have same : (List.range bytes.length).map
      (fun index => (memory.byte? (.ofNat (start + index))).getD 0) = bytes := by
    apply List.ext_getElem
    · simp
    · intro index _ inside
      simp only [List.getElem_map, List.getElem_range]
      rw [holds.stored index inside, Option.getD_some]
  rw [number, same]

theorem Maps.readAt {address : Address} {position : Nat} {scalar : Scalar}
    (maps : memory.Maps (address.bits.toNat + position) scalar.size)
    (aligned : scalar.size ∣ address.bits.toNat + position) :
    memory.readAt scalar address (.ofNat position)
      = .ok (memory.number (address.bits.toNat + position) scalar.size) := by
  obtain ⟨bytes, whole, holds⟩ := maps
  rw [holds.readAt whole aligned, ← whole, holds.number_eq]

theorem Maps.readWord {address : Address} {position : Nat}
    (maps : memory.Maps (address.bits.toNat + position) 8)
    (aligned : 8 ∣ address.bits.toNat + position) :
    memory.readWord address position = .ok (memory.wordAt (address.bits.toNat + position)) := by
  have read : memory.readAt .word address (.ofNat position) = .ok _ := Maps.readAt maps aligned
  rw [Memory.readWord, read, map_ok]
  rfl

/-- Where all memory is mapped, so is every range that does not wrap. -/
theorem maps_of_total (total : ∀ address, memory.byte? address ≠ none) {count : Nat}
    (fits : start + count ≤ UInt64.size) : memory.Maps start count := by
  refine ⟨(List.range count).map fun index =>
    (memory.byte? (.ofNat (start + index))).getD 0, by simp, by simpa using fits, ?_⟩
  intro index inside
  simp only [List.getElem_map, List.getElem_range]
  cases stored : memory.byte? (.ofNat (start + index)) with
  | none => exact absurd stored (total _)
  | some byte => rfl

end Memory

/-! ## Requirements -/

/-- A condition on stored words, and the error of a validator that finds it broken. -/
structure Requirement where
  isMet : Bool
  error : MetadataError

namespace Requirement

/-- The error of the first requirement that is broken. -/
def firstBroken : List Requirement → Option MetadataError
  | [] => none
  | requirement :: rest =>
      if requirement.isMet then firstBroken rest else some requirement.error

/-- The check that stops at the first broken requirement. -/
def demand (requirements : List Requirement) : Except Failure Unit :=
  match firstBroken requirements with
  | none => .ok ()
  | some error => .error (.rejected error)

theorem firstBroken_eq_none {requirements : List Requirement} :
    firstBroken requirements = none ↔ ∀ requirement ∈ requirements, requirement.isMet = true := by
  induction requirements with
  | nil => simp [firstBroken]
  | cons requirement rest ih =>
      cases met : requirement.isMet with
      | false => simp [firstBroken, met]
      | true => simp [firstBroken, met, ih]

theorem firstBroken_append_eq_none {first second : List Requirement} :
    firstBroken (first ++ second) = none
      ↔ firstBroken first = none ∧ firstBroken second = none := by
  simp only [firstBroken_eq_none, List.forall_mem_append]

theorem firstBroken_cons_eq_none {requirement : Requirement} {rest : List Requirement} :
    firstBroken (requirement :: rest) = none
      ↔ requirement.isMet = true ∧ firstBroken rest = none := by
  simp only [firstBroken_eq_none, List.forall_mem_cons]

theorem demand_nil : demand [] = .ok () :=
  rfl

theorem demand_cons (requirement : Requirement) (rest : List Requirement) :
    demand (requirement :: rest)
      = if requirement.isMet then demand rest else .error (.rejected requirement.error) := by
  cases met : requirement.isMet with
  | false => simp [demand, firstBroken, met]
  | true => simp [demand, firstBroken, met]

theorem demand_append (first second : List Requirement) :
    demand (first ++ second) = demand first >>= fun _ => demand second := by
  induction first with
  | nil => rfl
  | cons requirement rest ih =>
      rw [List.cons_append, demand_cons, demand_cons]
      cases requirement.isMet with
      | false => rfl
      | true => exact ih

/-- What is done after a demand matters only where the demand is met. -/
theorem demand_bind_congr {α : Type} {requirements : List Requirement}
    {next other : Unit → Except Failure α}
    (same : firstBroken requirements = none → next () = other ()) :
    demand requirements >>= next = demand requirements >>= other := by
  cases broken : firstBroken requirements with
  | none =>
      simp only [demand, broken]
      exact same broken
  | some error =>
      simp only [demand, broken]
      rfl

end Requirement

open Requirement

/-! ## Kind words -/

/-- The kind words of structs. -/
def IsStructKind (word : UInt64) : Prop :=
  word = 1 ∨ word = 0x200

/-- The kind words of classes: zero, and isa pointers. -/
def IsClassKind (word : UInt64) : Prop :=
  word = 0 ∨ 0x7FF < word

instance (word : UInt64) : Decidable (IsStructKind word) :=
  inferInstanceAs (Decidable (_ ∨ _))

instance (word : UInt64) : Decidable (IsClassKind word) :=
  inferInstanceAs (Decidable (_ ∨ _))

theorem IsStructKind.not_isClassKind {word : UInt64} (isStruct : IsStructKind word) :
    ¬ IsClassKind word := by
  rcases isStruct with rfl | rfl <;> decide

namespace MetadataKind

theorem typeKind?_of_mem :
    ∀ entry ∈ enumerated, entry.2.typeKind?
      = if IsStructKind (.ofNat entry.1) then some .structType
        else if IsClassKind (.ofNat entry.1) then some .classType
        else none := by
  decide

theorem typeKind?_ofRaw (word : UInt64) :
    (ofRaw word).typeKind?
      = if IsStructKind word then some .structType
        else if IsClassKind word then some .classType
        else none := by
  cases found : enumerated.lookup word.toNat with
  | some kind =>
      obtain ⟨front, back, split, _⟩ := List.lookup_eq_some_iff.mp found
      have member : (word.toNat, kind) ∈ enumerated := by simp [split]
      have known := typeKind?_of_mem _ member
      rw [UInt64.ofNat_toNat] at known
      rw [ofRaw, found]
      exact known
  | none =>
      have zero : word ≠ 0 := by
        rintro rfl
        exact absurd found (by decide)
      have legacy : word ≠ 1 := by
        rintro rfl
        exact absurd found (by decide)
      have current : word ≠ 0x200 := by
        rintro rfl
        exact absurd found (by decide)
      have isa : 0x7FF < word ↔ Format.lastEnumeratedKind < word.toNat := UInt64.lt_iff_toNat_lt
      simp only [ofRaw, found, IsStructKind, IsClassKind, zero, legacy, current, isa, or_self,
        false_or, if_false]
      split
      case isTrue large => rfl
      case isFalse small => rfl

end MetadataKind

/-! ## The shape -/

/-- The kind words of a shape. -/
def TypeKind.IsKindWord : TypeKind → UInt64 → Prop
  | .structType => IsStructKind
  | .classType => IsClassKind

instance (kind : TypeKind) (word : UInt64) : Decidable (kind.IsKindWord word) :=
  match kind with
  | .structType => inferInstanceAs (Decidable (IsStructKind word))
  | .classType => inferInstanceAs (Decidable (IsClassKind word))

namespace TypeHandle

variable (handle : TypeHandle) (memory : Memory)

/-- The kind word of the metadata behind a handle. -/
def storedKind : UInt64 :=
  memory.wordAt handle.address.bits.toNat

/-- The shape that a kind word stands for, if it stands for any. -/
def storedShape : TypeKind :=
  if IsStructKind (handle.storedKind memory) then .structType else .classType

/-- What metadata of any shape has to satisfy. -/
def typeRequirements : List Requirement :=
  [ ⟨8 ∣ handle.address.bits.toNat, .misaligned "type metadata" handle.address.bits 8⟩,
    ⟨IsStructKind (handle.storedKind memory) ∨ IsClassKind (handle.storedKind memory),
      .unsupportedKind handle.address.bits (handle.storedKind memory)⟩ ]

/-- What metadata of one shape has to satisfy. -/
def shapeRequirements (expected : TypeKind) : List Requirement :=
  handle.typeRequirements memory ++
    [⟨expected.IsKindWord (handle.storedKind memory),
      .wrongKind handle.address.bits expected.name⟩]

variable {handle memory}

theorem checkKindWord_eq (maps : memory.Maps handle.address.bits.toNat 8) :
    handle.checkKindWord memory
      = if 8 ∣ handle.address.bits.toNat then .ok (handle.storedKind memory)
        else .error (.rejected (.misaligned "type metadata" handle.address.bits 8)) := by
  unfold checkKindWord
  by_cases aligned : 8 ∣ handle.address.bits.toNat
  · have whole : handle.address.isAligned Format.wordSize = true :=
      Address.isAligned_iff.mpr aligned
    obtain ⟨bytes, length, holds⟩ := maps
    have read : memory.read .word handle.address = .ok (ofLittleEndian bytes) :=
      holds.read length aligned
    rw [if_pos whole, if_pos aligned, read, storedKind, Memory.wordAt, ← length, holds.number_eq]
    rfl
  · have broken : ¬ handle.address.isAligned Format.wordSize = true :=
      fun whole => aligned (Address.isAligned_iff.mp whole)
    rw [if_neg broken, if_neg aligned]
    rfl

theorem checkTypeKind_eq (maps : memory.Maps handle.address.bits.toNat 8) :
    handle.checkTypeKind memory
      = demand (handle.typeRequirements memory) >>= fun _ => .ok (handle.storedShape memory) := by
  rw [checkTypeKind, checkKindWord_eq maps]
  simp only [typeRequirements, demand_cons, demand_nil, decide_eq_true_eq]
  by_cases aligned : 8 ∣ handle.address.bits.toNat
  · simp only [aligned, if_true]
    dsimp only [bind, Except.bind]
    rw [MetadataKind.typeKind?_ofRaw]
    by_cases isStruct : IsStructKind (handle.storedKind memory)
    · simp only [storedShape, isStruct, true_or, if_true]
      rfl
    · by_cases isClass : IsClassKind (handle.storedKind memory)
      · simp only [storedShape, isStruct, isClass, false_or, if_true, if_false]
        rfl
      · simp only [isStruct, isClass, false_or, if_false]
        rfl
  · simp only [aligned, if_false]
    rfl

theorem typeRequirements_met :
    firstBroken (handle.typeRequirements memory) = none ↔
      8 ∣ handle.address.bits.toNat ∧
        (IsStructKind (handle.storedKind memory) ∨ IsClassKind (handle.storedKind memory)) := by
  simp [typeRequirements, firstBroken_eq_none]

theorem storedShape_eq_iff {expected : TypeKind}
    (supported : firstBroken (handle.typeRequirements memory) = none) :
    handle.storedShape memory = expected ↔ expected.IsKindWord (handle.storedKind memory) := by
  have known := (typeRequirements_met.mp supported).2
  unfold storedShape
  by_cases isStruct : IsStructKind (handle.storedKind memory)
  · have notClass := isStruct.not_isClassKind
    cases expected with
    | structType => simp [TypeKind.IsKindWord, isStruct]
    | classType => simp [TypeKind.IsKindWord, isStruct, notClass]
  · have isClass := known.resolve_left isStruct
    cases expected with
    | structType => simp [TypeKind.IsKindWord, isStruct]
    | classType => simp [TypeKind.IsKindWord, isStruct, isClass]

theorem shapeRequirements_met {expected : TypeKind} :
    firstBroken (handle.shapeRequirements memory expected) = none ↔
      8 ∣ handle.address.bits.toNat ∧ expected.IsKindWord (handle.storedKind memory) := by
  -- a kind word of the expected shape is supported
  have supported (is : expected.IsKindWord (handle.storedKind memory)) :
      IsStructKind (handle.storedKind memory) ∨ IsClassKind (handle.storedKind memory) := by
    cases expected with
    | structType => exact .inl is
    | classType => exact .inr is
  rw [shapeRequirements, firstBroken_append_eq_none, typeRequirements_met,
    firstBroken_cons_eq_none, decide_eq_true_eq]
  constructor
  · rintro ⟨⟨aligned, -⟩, is, -⟩
    exact ⟨aligned, is⟩
  · rintro ⟨aligned, is⟩
    exact ⟨⟨aligned, supported is⟩, is, rfl⟩

theorem checkShape_eq (maps : memory.Maps handle.address.bits.toNat 8) (expected : TypeKind) :
    handle.checkShape memory expected = demand (handle.shapeRequirements memory expected) := by
  rw [checkShape, checkTypeKind_eq maps, shapeRequirements, demand_append]
  cases broken : firstBroken (handle.typeRequirements memory) with
  | some error =>
      simp only [demand, broken]
      rfl
  | none =>
      simp only [demand_cons, demand_nil, decide_eq_true_eq]
      simp only [demand, broken]
      dsimp only [bind, Except.bind]
      by_cases same : handle.storedShape memory = expected
      · rw [if_pos same, if_pos ((storedShape_eq_iff broken).mp same)]
        rfl
      · rw [if_neg same, if_neg fun is => same ((storedShape_eq_iff broken).mpr is)]
        rfl

/-- The two shapes exclude each other, whatever memory holds. -/
theorem checkShape_unique {first second : TypeKind}
    (one : handle.checkShape memory first = .ok ())
    (other : handle.checkShape memory second = .ok ()) : first = second := by
  obtain ⟨found, given, same⟩ := bind_eq_ok.mp one
  obtain ⟨again, given', same'⟩ := bind_eq_ok.mp other
  cases given.symm.trans given'
  split at same
  case isTrue is =>
      split at same'
      case isTrue is' => exact is.symm.trans is'
      case isFalse => cases same'
  case isFalse => cases same

end TypeHandle

/-! ## Descriptors -/

section Descriptor

variable (memory : Memory) (word : UInt64)

/-- What the record that a descriptor word leads to has to satisfy. -/
def descriptorRequirements (expected : ContextKind) : List Requirement :=
  [ ⟨4 ∣ word.toNat, .misaligned "context descriptor" word 4⟩,
    ⟨memory.contextKindAt word.toNat = expected.raw.toNat,
      .descriptorKindMismatch word expected (.ofRaw (.ofNat (memory.contextKindAt word.toNat)))⟩ ]

variable {memory word}

theorem descriptorRequirements_met {expected : ContextKind} :
    firstBroken (descriptorRequirements memory word expected) = none ↔
      4 ∣ word.toNat ∧ memory.contextKindAt word.toNat = expected.raw.toNat := by
  simp [descriptorRequirements, firstBroken_eq_none]

theorem Context.kind_eq {address : Address} (maps : memory.Maps address.bits.toNat 4)
    (aligned : 4 ∣ address.bits.toNat) :
    Context.kind ⟨address⟩ memory
      = .ok (.ofRaw (.ofNat (memory.contextKindAt address.bits.toNat))) := by
  have read : memory.readAt .u32 address (.ofNat 0)
      = .ok (memory.number (address.bits.toNat + 0) Scalar.u32.size) :=
    Memory.Maps.readAt maps aligned
  have masked : ((UInt32.ofNat (memory.number address.bits.toNat 4) &&& 0x1F).toUInt8)
      = .ofNat (memory.contextKindAt address.bits.toNat) := by
    apply UInt8.toNat_inj.mp
    have low := Nat.and_two_pow_sub_one_eq_mod (memory.number address.bits.toNat 4 % 256) 5
    simp [Memory.contextKindAt] at low ⊢
    omega
  rw [Context.kind, Context.flags]
  change ContextFlags.kind <$> ((⟨·⟩) <$> (UInt32.ofNat <$> memory.readAt .u32 address (.ofNat 0)))
    = _
  rw [read]
  exact congrArg (fun number => Except.ok (ContextKind.ofRaw number)) masked

theorem TypeContext.check_eq {address : Address} (expected : ContextKind)
    (canonical : .ofRaw expected.raw = expected)
    (maps : 4 ∣ address.bits.toNat → memory.Maps address.bits.toNat 4) :
    ((liftM (Context.check address) : Except Failure Context) >>= fun context =>
        TypeContext.check context memory expected)
      = demand (descriptorRequirements memory address.bits expected) >>= fun _ =>
          .ok ⟨⟨address⟩⟩ := by
  simp only [descriptorRequirements, demand_cons, demand_nil, decide_eq_true_eq]
  by_cases aligned : 4 ∣ address.bits.toNat
  · have small : memory.contextKindAt address.bits.toNat < 2 ^ 8 := by
      unfold Memory.contextKindAt
      omega
    have whole : address.isAligned Format.descriptorAlignment = true :=
      Address.isAligned_iff.mpr aligned
    rw [Context.check, if_pos whole, if_pos aligned]
    change TypeContext.check ⟨address⟩ memory expected = _
    rw [TypeContext.check, Context.kind_eq (maps aligned) aligned]
    dsimp only [liftM, monadLift, MonadLift.monadLift, Except.mapError, bind, Except.bind]
    by_cases same : memory.contextKindAt address.bits.toNat = expected.raw.toNat
    · have is : ContextKind.ofRaw (.ofNat (memory.contextKindAt address.bits.toNat)) = expected := by
        rw [same, UInt8.ofNat_toNat, canonical]
      rw [if_pos is, if_pos same]
      rfl
    · have differs : ContextKind.ofRaw (.ofNat (memory.contextKindAt address.bits.toNat))
          ≠ expected := by
        intro is
        have number := congrArg (fun kind => kind.raw.toNat) is
        rw [ContextKind.raw_ofRaw, UInt8.toNat_ofNat', Nat.mod_eq_of_lt small] at number
        exact same number
      rw [if_neg differs, if_neg same]
      rfl
  · have broken : ¬ address.isAligned Format.descriptorAlignment = true :=
      fun whole => aligned (Address.isAligned_iff.mp whole)
    rw [Context.check, if_neg broken, if_neg aligned]
    rfl

end Descriptor

/-! ## Validators -/

/-- The bytes that a validator may look at stand in memory: those of the metadata up to the
    descriptor word, and the flags that the word leads to if it can lead to a record. -/
structure TypeHandle.IsLegible (handle : TypeHandle) (memory : Memory) (position : Nat) : Prop where
  header : memory.Maps handle.address.bits.toNat (position + 8)
  flags : memory.wordAt (handle.address.bits.toNat + position) ≠ 0 →
    4 ∣ (memory.wordAt (handle.address.bits.toNat + position)).toNat →
    memory.Maps (memory.wordAt (handle.address.bits.toNat + position)).toNat 4

namespace TypeHandle

variable {handle : TypeHandle} {memory : Memory} {position : Nat}

/-- In memory that is mapped everywhere, a header need only not wrap. -/
theorem isLegible_of_total (total : ∀ address, memory.byte? address ≠ none)
    (fits : handle.address.bits.toNat + (position + 8) ≤ UInt64.size) :
    handle.IsLegible memory position where
  header := Memory.maps_of_total total fits
  flags _ aligned := by
    apply Memory.maps_of_total total
    have small := (memory.wordAt (handle.address.bits.toNat + position)).toNat_lt
    have size : UInt64.size = 2 ^ 64 := rfl
    omega

namespace IsLegible

variable (legible : handle.IsLegible memory position)

include legible

theorem kind_maps : memory.Maps handle.address.bits.toNat 8 := by
  obtain ⟨bytes, length, holds⟩ := legible.header
  have maps : memory.Maps (handle.address.bits.toNat + 0) 8 := holds.maps (by omega)
  exact maps

theorem readPointer_eq (aligned : 8 ∣ handle.address.bits.toNat) (whole : 8 ∣ position) :
    memory.readPointer handle.address position
      = .ok (Address.ofBits? (memory.wordAt (handle.address.bits.toNat + position))) := by
  obtain ⟨bytes, length, holds⟩ := legible.header
  have maps : memory.Maps (handle.address.bits.toNat + position) 8 := holds.maps (by omega)
  rw [Memory.readPointer, maps.readWord (Nat.dvd_add aligned whole), map_ok]

/-- How the validators begin: the shape is demanded, then the descriptor word is read. -/
theorem opening_eq {α : Type} (whole : 8 ∣ position) (expected : TypeKind)
    (next : Option Address → Except Failure α) :
    (handle.checkShape memory expected >>= fun _ =>
        (liftM (memory.readPointer handle.address position) : Except Failure (Option Address)) >>=
          next)
      = demand (handle.shapeRequirements memory expected) >>= fun _ =>
          next (Address.ofBits? (memory.wordAt (handle.address.bits.toNat + position))) := by
  rw [checkShape_eq legible.kind_maps]
  apply demand_bind_congr
  intro met
  rw [legible.readPointer_eq (shapeRequirements_met.mp met).1 whole]
  rfl

end IsLegible

end TypeHandle

/-- How they end: the record that the descriptor word leads to is checked, and a view is made. -/
theorem TypeContext.check_map_eq {α β : Type} {memory : Memory} {address : Address}
    (expected : ContextKind) (canonical : .ofRaw expected.raw = expected)
    (maps : 4 ∣ address.bits.toNat → memory.Maps address.bits.toNat 4)
    (descriptor : TypeContext → α) (view : α → β) :
    ((liftM (Context.check address) : Except Failure Context) >>= fun context =>
        (descriptor <$> TypeContext.check context memory expected) >>= fun found =>
          pure (view found))
      = demand (descriptorRequirements memory address.bits expected) >>= fun _ =>
          .ok (view (descriptor ⟨⟨address⟩⟩)) := by
  simp only [bind_map_left, ← bind_assoc, check_eq expected canonical maps]
  simp only [bind_assoc]
  rfl

/-- What struct metadata has to satisfy. -/
def StructType.requirements (handle : TypeHandle) (memory : Memory) : List Requirement :=
  let word := memory.wordAt (handle.address.bits.toNat + 8)
  handle.shapeRequirements memory .structType ++
    ⟨word ≠ 0, .nullDescriptor handle.address.bits⟩ ::
      descriptorRequirements memory word .structType

/-- What class metadata has to satisfy. A class may lack a descriptor. -/
def ClassType.requirements (handle : TypeHandle) (memory : Memory) : List Requirement :=
  let word := memory.wordAt (handle.address.bits.toNat + 40)
  handle.shapeRequirements memory .classType ++
    if word = 0 then [] else descriptorRequirements memory word .classType

section Validators

variable {handle : TypeHandle} {memory : Memory}

theorem StructType.check_eq (legible : handle.IsLegible memory 8) :
    ∃ type : StructType, check handle memory
        = (demand (requirements handle memory) >>= fun _ => .ok type) ∧ type.handle = handle ∧
      (memory.wordAt (handle.address.bits.toNat + 8) ≠ 0 →
        type.descriptor.address.bits = memory.wordAt (handle.address.bits.toNat + 8)) := by
  have flags := legible.flags
  have opened : check handle memory = _ := legible.opening_eq (by decide) .structType _
  simp only [opened, requirements, demand_append, bind_assoc]
  generalize memory.wordAt (handle.address.bits.toNat + 8) = word at flags
  cases found : Address.ofBits? word with
  | none =>
      have null : word = 0 := by simpa [Address.ofBits?] using found
      refine ⟨⟨handle, ⟨⟨⟨handle.address⟩⟩⟩⟩, ?_, rfl, fun some => absurd null some⟩
      rw [demand_cons, if_neg (by simp [null])]
      rfl
  | some address =>
      have is := Address.bits_of_ofBits? found
      have given : word ≠ 0 := is ▸ address.ne_null
      subst is
      refine ⟨⟨handle, ⟨⟨⟨address⟩⟩⟩⟩, ?_, rfl, fun _ => rfl⟩
      rw [demand_cons, if_pos (by simpa using given)]
      have ended := TypeContext.check_map_eq .structType rfl (flags given) StructDescriptor.mk
        fun descriptor => (⟨handle, descriptor⟩ : StructType)
      exact congrArg (_ >>= fun _ => ·) ended

theorem ClassType.check_eq (legible : handle.IsLegible memory 40) :
    ∃ type : ClassType, check handle memory
        = (demand (requirements handle memory) >>= fun _ => .ok type) ∧ type.handle = handle ∧
      type.descriptor.map (·.address)
        = Address.ofBits? (memory.wordAt (handle.address.bits.toNat + 40)) := by
  have flags := legible.flags
  have opened : check handle memory = _ := legible.opening_eq (by decide) .classType _
  simp only [opened, requirements, demand_append, bind_assoc]
  generalize memory.wordAt (handle.address.bits.toNat + 40) = word at flags
  cases found : Address.ofBits? word with
  | none =>
      have null : word = 0 := by simpa [Address.ofBits?] using found
      refine ⟨⟨handle, none⟩, ?_, rfl, rfl⟩
      rw [if_pos null]
      rfl
  | some address =>
      have is := Address.bits_of_ofBits? found
      have given : word ≠ 0 := is ▸ address.ne_null
      subst is
      refine ⟨⟨handle, some ⟨⟨⟨address⟩⟩⟩⟩, ?_, rfl, rfl⟩
      rw [if_neg given]
      have ended := TypeContext.check_map_eq .classType rfl (flags given) ClassDescriptor.mk
        fun descriptor => (⟨handle, some descriptor⟩ : ClassType)
      exact congrArg (_ >>= fun _ => ·) ended

/-- A check accepts exactly what satisfies a condition, gives then a view with a property, and
    otherwise reports the first requirement that is broken. -/
structure Decides {α : Type} (checked : Except Failure α) (condition : Prop) (view : α → Prop)
    (requirements : List Requirement) : Prop where
  accepted : (∃ value, checked = .ok value) ↔ condition
  views : ∀ value, checked = .ok value → view value
  rejected : ∀ failure, checked = .error failure ↔
    ∃ error, firstBroken requirements = some error ∧ failure = .rejected error

theorem Decides.of_eq {α : Type} {checked : Except Failure α} {condition : Prop}
    {view : α → Prop} {requirements : List Requirement} {value : α}
    (same : checked = demand requirements >>= fun _ => .ok value)
    (met : firstBroken requirements = none ↔ condition) (seen : condition → view value) :
    Decides checked condition view requirements := by
  subst same
  rw [demand]
  cases broken : firstBroken requirements with
  | none =>
      have holds := met.mp broken
      constructor
      case accepted => exact ⟨fun _ => holds, fun _ => ⟨value, rfl⟩⟩
      case views =>
          intro found given
          cases given
          exact seen holds
      case rejected => simp [bind, Except.bind, broken]
  | some error =>
      have fails : ¬ condition := by
        intro holds
        rw [met.mpr holds] at broken
        cases broken
      constructor
      case accepted => simp [bind, Except.bind, fails]
      case views => simp [bind, Except.bind]
      case rejected => simp [bind, Except.bind, broken, eq_comm]

theorem StructType.check_decides (legible : handle.IsLegible memory 8) {word : UInt64}
    (stored : word = memory.wordAt (handle.address.bits.toNat + 8)) :
    Decides (check handle memory)
      (8 ∣ handle.address.bits.toNat ∧ IsStructKind (handle.storedKind memory) ∧ word ≠ 0 ∧
        4 ∣ word.toNat ∧ memory.contextKindAt word.toNat = 17)
      (fun type => type.handle = handle ∧ type.descriptor.address.bits = word)
      (requirements handle memory) := by
  obtain ⟨type, same, known, leads⟩ := check_eq legible
  rw [← stored] at leads
  refine Decides.of_eq same ?_ fun holds => ⟨known, leads holds.2.2.1⟩
  rw [requirements, ← stored, firstBroken_append_eq_none, firstBroken_cons_eq_none,
    TypeHandle.shapeRequirements_met, descriptorRequirements_met, decide_eq_true_eq, and_assoc]
  rfl

theorem ClassType.check_decides (legible : handle.IsLegible memory 40) {word : UInt64}
    (stored : word = memory.wordAt (handle.address.bits.toNat + 40)) :
    Decides (check handle memory)
      (8 ∣ handle.address.bits.toNat ∧ IsClassKind (handle.storedKind memory) ∧
        (word = 0 ∨ 4 ∣ word.toNat ∧ memory.contextKindAt word.toNat = 16))
      (fun type => type.handle = handle ∧
        type.descriptor.map (·.address) = Address.ofBits? word)
      (requirements handle memory) := by
  obtain ⟨type, same, known, leads⟩ := check_eq legible
  rw [← stored] at leads
  refine Decides.of_eq same ?_ fun _ => ⟨known, leads⟩
  rw [requirements, ← stored, firstBroken_append_eq_none, TypeHandle.shapeRequirements_met,
    and_assoc]
  by_cases null : word = 0
  · simp only [null, if_true, firstBroken, true_or, and_true]
    rfl
  · rw [if_neg null, descriptorRequirements_met]
    simp only [null, false_or]
    rfl

/-- The validators of struct and class metadata decide plain conditions on the stored words, and
    report what the first broken condition is about. No handle satisfies both, and the validator
    of any metadata is the one that the classification of the kind word selects. -/
theorem validators_exact (memory : Memory) (handle : TypeHandle) :
    (handle.IsLegible memory 8 →
      let word := memory.wordAt (handle.address.bits.toNat + 8)
      Decides (StructType.check handle memory)
        (8 ∣ handle.address.bits.toNat ∧ IsStructKind (handle.storedKind memory) ∧ word ≠ 0 ∧
          4 ∣ word.toNat ∧ memory.contextKindAt word.toNat = 17)
        (fun type => type.handle = handle ∧ type.descriptor.address.bits = word)
        (StructType.requirements handle memory)) ∧
    (handle.IsLegible memory 40 →
      let word := memory.wordAt (handle.address.bits.toNat + 40)
      Decides (ClassType.check handle memory)
        (8 ∣ handle.address.bits.toNat ∧ IsClassKind (handle.storedKind memory) ∧
          (word = 0 ∨ 4 ∣ word.toNat ∧ memory.contextKindAt word.toNat = 16))
        (fun type => type.handle = handle ∧
          type.descriptor.map (·.address) = Address.ofBits? word)
        (ClassType.requirements handle memory)) ∧
    (∀ structType classType, StructType.check handle memory = .ok structType →
      ClassType.check handle memory ≠ .ok classType) ∧
    (memory.Maps handle.address.bits.toNat 8 →
      handle.checkTypeKind memory
        = demand (handle.typeRequirements memory) >>= fun _ => .ok (handle.storedShape memory)) ∧
    ReflectedType.check handle memory
      = match handle.checkTypeKind memory with
        | .ok .structType => .ofStruct <$> StructType.check handle memory
        | .ok .classType => .ofClass <$> ClassType.check handle memory
        | .error failure => .error failure := by
  refine ⟨fun legible => StructType.check_decides legible rfl,
    fun legible => ClassType.check_decides legible rfl, ?_, TypeHandle.checkTypeKind_eq, ?_⟩
  · intro structType classType one other
    obtain ⟨_, asStruct, _⟩ := bind_eq_ok.mp one
    obtain ⟨_, asClass, _⟩ := bind_eq_ok.mp other
    cases TypeHandle.checkShape_unique asStruct asClass
  · rw [ReflectedType.check]
    cases handle.checkTypeKind memory with
    | error failure => rfl
    | ok kind =>
        cases kind with
        | structType => rfl
        | classType => rfl

/-- Memory that is mapped everywhere and zero except for the metadata of a struct and the start of
    its descriptor. -/
def wideStruct : Memory :=
  Memory.store ⟨fun _ => some 0⟩ 0x1000
    #[0x00, 0x02, 0, 0, 0, 0, 0, 0, 0x10, 0x10, 0, 0, 0, 0, 0, 0, 0x51]

/-- The struct is accepted as one, and no class. -/
theorem validators_exact_wideStruct :
    (∃ type, StructType.check ⟨0x1000, by decide⟩ wideStruct = .ok type) ∧
      ClassType.check ⟨0x1000, by decide⟩ wideStruct
        = .error (.rejected (.wrongKind 0x1000 "class")) := by
  have total : ∀ address, wideStruct.byte? address ≠ none := by
    intro address
    simp [wideStruct, Memory.store]
  obtain ⟨asStruct, asClass, _⟩ := validators_exact wideStruct ⟨0x1000, by decide⟩
  have opened := asStruct (TypeHandle.isLegible_of_total total (by decide))
  have refused := asClass (TypeHandle.isLegible_of_total total (by decide))
  exact ⟨opened.accepted.mpr (by decide +kernel),
    (refused.rejected _).mpr ⟨_, by decide +kernel, rfl⟩⟩

end Validators

end TypeReflection
