import TypeReflection.Proofs.Address
import TypeReflection.Proofs.View.Safety

/-! # Aligned reads

Views are built at aligned addresses only, whatever memory holds: the checks in front of them and
the sizes of the records keep every number that is read at a multiple of its size. Arithmetic
modulo 2^64 does not disturb this, since all the alignments divide 2^64.
-/

namespace TypeReflection

/-- The fault is a number read, or a run of numbers taken, at an address that is not a multiple of
    their size. -/
def Fault.IsMisaligned : Fault → Prop
  | .misalignedRead .. | .misalignedSlice .. => True
  | _ => False

namespace Address

theorem offset_avoids_misaligned (address : Address) (delta : Int64) :
    Avoids Fault.IsMisaligned (address.offset delta) fun moved =>
      moved.bits = address.bits + delta.toUInt64 := by
  cases given : address.offset delta with
  | ok moved => exact bits_of_offset given
  | error fault =>
      rw [offset_error given]
      exact fun misaligned => misaligned

theorem add_avoids_misaligned {address : Address} {alignment position : Nat}
    (word : alignment ∣ UInt64.size) (aligned : alignment ∣ address.bits.toNat)
    (multiple : alignment ∣ position) :
    Avoids Fault.IsMisaligned (address.add (.ofNat position)) fun moved =>
      alignment ∣ moved.bits.toNat := by
  refine (offset_avoids_misaligned address _).mono fun moved _ sum => ?_
  rw [sum, UInt64.toUInt64_toInt64]
  exact dvd_toNat_add word aligned (dvd_toNat_ofNat word multiple)

end Address

namespace Memory

theorem byte_avoids_misaligned (memory : Memory) (address : UInt64) :
    Avoids Fault.IsMisaligned (memory.byte address) anything := by
  unfold byte
  split
  · exact Avoids.ok trivial
  · exact fun misaligned => misaligned

theorem bytes_avoids_misaligned (memory : Memory) (address : UInt64) (count : Nat) :
    Avoids Fault.IsMisaligned (memory.bytes address count) anything := by
  induction count generalizing address with
  | zero => exact Avoids.ok trivial
  | succ count ih =>
      refine (memory.byte_avoids_misaligned address).bind fun _ _ _ => ?_
      exact (ih (address + 1)).bind fun _ _ _ => Avoids.pure trivial

theorem bytesToZero_avoids_misaligned (memory : Memory) (address : UInt64) (limit : Nat) :
    Avoids Fault.IsMisaligned (memory.bytesToZero address limit) anything := by
  induction limit generalizing address with
  | zero => exact fun misaligned => misaligned
  | succ limit ih =>
      refine (memory.byte_avoids_misaligned address).bind fun first _ _ => ?_
      split
      · exact Avoids.pure trivial
      · exact (ih (address + 1)).bind fun _ _ _ => Avoids.pure trivial

theorem cString_avoids_misaligned (memory : Memory) (address : Address) :
    Avoids Fault.IsMisaligned (memory.cString address) anything :=
  memory.bytesToZero_avoids_misaligned _ _

theorem read_avoids_misaligned (memory : Memory) (scalar : Scalar) {address : Address}
    (aligned : scalar.size ∣ address.bits.toNat) :
    Avoids Fault.IsMisaligned (memory.read scalar address) anything := by
  unfold read
  rw [if_pos (Address.isAligned_iff.mpr aligned)]
  exact (memory.bytes_avoids_misaligned _ _).bind fun _ _ _ => Avoids.pure trivial

/-- Inside a record, numbers stand at multiples of their size if the record does. -/
theorem readAt_avoids_misaligned (memory : Memory) (scalar : Scalar) {address : Address}
    {position : Nat} (aligned : scalar.size ∣ address.bits.toNat)
    (multiple : scalar.size ∣ position) :
    Avoids Fault.IsMisaligned (memory.readAt scalar address (.ofNat position)) anything :=
  (Address.add_avoids_misaligned scalar.size_dvd_size aligned multiple).bind
    fun _ _ moved => memory.read_avoids_misaligned scalar moved

theorem readU32_avoids_misaligned (memory : Memory) {address : Address} {position : Nat}
    (aligned : 4 ∣ address.bits.toNat) (multiple : 4 ∣ position) :
    Avoids Fault.IsMisaligned (memory.readU32 address position) anything :=
  (memory.readAt_avoids_misaligned .u32 aligned multiple).mapped

theorem readU16_avoids_misaligned (memory : Memory) {address : Address} {position : Nat}
    (aligned : 2 ∣ address.bits.toNat) (multiple : 2 ∣ position) :
    Avoids Fault.IsMisaligned (memory.readU16 address position) anything :=
  (memory.readAt_avoids_misaligned .u16 aligned multiple).mapped

theorem readPointer_avoids_misaligned (memory : Memory) {address : Address} {position : Nat}
    (aligned : 8 ∣ address.bits.toNat) (multiple : 8 ∣ position) :
    Avoids Fault.IsMisaligned (memory.readPointer address position) anything :=
  (memory.readAt_avoids_misaligned .word aligned multiple).mapped.mapped

end Memory

theorem EncodedName.scan_avoids_misaligned (memory : Memory) (address : UInt64)
    (pending limit : Nat) :
    Avoids Fault.IsMisaligned (scan memory address pending limit) anything := by
  induction limit generalizing address pending with
  | zero => exact fun misaligned => misaligned
  | succ limit ih =>
      refine (memory.byte_avoids_misaligned address).bind fun first _ _ => ?_
      cases pending with
      | succ pending =>
          exact (ih (address + 1) pending).bind fun _ _ _ => Avoids.pure trivial
      | zero =>
          dsimp only
          split
          · exact Avoids.pure trivial
          · exact (ih (address + 1) _).bind fun _ _ _ => Avoids.pure trivial

theorem EncodedName.read_avoids_misaligned (memory : Memory) (address : Address) :
    Avoids Fault.IsMisaligned (EncodedName.read memory address) anything :=
  (scan_avoids_misaligned memory _ _ _).mapped

/-! ## Links -/

namespace DirectLink

theorem readAt_avoids_misaligned (memory : Memory) {record : Address} {position : Nat}
    (aligned : 4 ∣ record.bits.toNat) (multiple : 4 ∣ position) :
    Avoids Fault.IsMisaligned (readAt memory record position) anything := by
  refine (Address.add_avoids_misaligned (by decide) aligned multiple).bind fun anchor _ moved => ?_
  exact (memory.read_avoids_misaligned .i32 moved).mapped.mapped

theorem get_avoids_misaligned {α : Type} (link : DirectLink) {view : Address → Except Fault α}
    {post : α → Prop} (views : ∀ target, Avoids Fault.IsMisaligned (view target) post) :
    Avoids Fault.IsMisaligned (link.get view) post := by
  refine Avoids.bind (?_ : Avoids _ link.target anything) fun target _ _ => views target
  unfold target
  split
  · exact fun misaligned => misaligned
  · exact (Address.offset_avoids_misaligned _ _).anyway

theorem get?_avoids_misaligned {α : Type} (link : DirectLink) {view : Address → Except Fault α}
    {post : α → Prop} (views : ∀ target, Avoids Fault.IsMisaligned (view target) post) :
    Avoids Fault.IsMisaligned (link.get? view) fun found => ∀ value ∈ found, post value := by
  unfold get?
  split
  · exact Avoids.ok (by simp)
  · exact ((link.get_avoids_misaligned views).mono fun _ _ holds => by simpa using holds).map

end DirectLink

namespace IndirectableLink

/-- The slot of an indirect link is checked before it is read. -/
theorem target_avoids_misaligned (link : IndirectableLink) (memory : Memory) :
    Avoids Fault.IsMisaligned (link.target memory) anything := by
  unfold target
  split
  · exact fun misaligned => misaligned
  split
  · refine (Address.offset_avoids_misaligned _ _).bind fun slot _ _ => ?_
    split
    case isTrue aligned =>
        have pointer := memory.readPointer_avoids_misaligned (Address.isAligned_iff.mp aligned)
          (Nat.dvd_zero 8)
        refine pointer.bind fun stored _ _ => ?_
        cases stored with
        | some target => exact Avoids.pure trivial
        | none => exact fun misaligned => misaligned
    case isFalse => exact fun misaligned => misaligned
  · exact (Address.offset_avoids_misaligned _ _).anyway

end IndirectableLink

/-! ## Records at aligned addresses -/

/-- Whether the address is one at which descriptors may stand. -/
def Address.AtDescriptor (address : Address) : Prop :=
  4 ∣ address.bits.toNat

/-- The descriptor and each of its records stand where numbers of four bytes may stand. -/
def FieldDescriptor.IsAligned (descriptor : FieldDescriptor) (memory : Memory) : Prop :=
  descriptor.address.AtDescriptor ∧
    ∀ size, descriptor.recordSize memory = .ok size → 4 ∣ size

def StructType.IsAligned (type : StructType) : Prop :=
  8 ∣ type.handle.address.bits.toNat ∧ type.descriptor.address.AtDescriptor

def ClassType.IsAligned (type : ClassType) : Prop :=
  8 ∣ type.handle.address.bits.toNat ∧
    ∀ descriptor ∈ type.descriptor, descriptor.address.AtDescriptor

/-- The record of the view stands at a multiple of its alignment. Handles and addresses have no
    record yet: the first check of them is that of their alignment. -/
def View.IsAligned (memory : Memory) : View → Prop
  | .address _ | .handle _ => True
  | .structType type => type.IsAligned
  | .classType type => type.IsAligned
  | .reflected (.ofStruct type) => type.IsAligned
  | .reflected (.ofClass type) => type.IsAligned
  | .context record => record.address.AtDescriptor
  | .typeContext type => type.address.AtDescriptor
  | .structDescriptor descriptor => descriptor.address.AtDescriptor
  | .classDescriptor descriptor => descriptor.address.AtDescriptor
  | .fields descriptor => descriptor.IsAligned memory
  | .cursor left => left.descriptor.IsAligned memory ∧ left.front ≤ left.back ∧
      ∃ count, left.descriptor.fieldCount memory = .ok count ∧ left.back ≤ count
  | .slice run => run.scalar.size ∣ run.start.bits.toNat

theorem Context.aligned_of_check {address : Address} {context : Context}
    (accepted : Context.check address = .ok context) : context.address.AtDescriptor := by
  unfold Context.check at accepted
  split at accepted
  case isTrue aligned =>
      cases accepted
      exact Address.isAligned_iff.mp aligned
  case isFalse => cases accepted

theorem TypeHandle.kindWord_avoids_misaligned (handle : TypeHandle) (memory : Memory) :
    Avoids (Failure.Stops Fault.IsMisaligned) (handle.checkKindWord memory) fun _ =>
      8 ∣ handle.address.bits.toNat := by
  unfold checkKindWord
  split
  case isTrue aligned =>
      have multiple := Address.isAligned_iff.mp aligned
      have read := memory.read_avoids_misaligned .word multiple
      exact (Avoids.lift read).bind fun _ _ _ => Avoids.pure multiple
  case isFalse => exact Avoids.thrown _

theorem TypeHandle.shape_avoids_misaligned (handle : TypeHandle) (memory : Memory)
    (expected : TypeKind) :
    Avoids (Failure.Stops Fault.IsMisaligned) (handle.checkShape memory expected) fun _ =>
      8 ∣ handle.address.bits.toNat := by
  unfold checkShape checkTypeKind
  refine Avoids.bind (?_ : Avoids _ _ fun _ => 8 ∣ handle.address.bits.toNat) ?_
  · refine (handle.kindWord_avoids_misaligned memory).bind fun raw _ aligned => ?_
    split
    · exact Avoids.pure aligned
    · exact Avoids.thrown _
  · intro found _ aligned
    split
    · exact Avoids.pure aligned
    · exact Avoids.thrown _

namespace Context

variable {context : Context} (memory : Memory) (aligned : context.address.AtDescriptor)

include aligned

theorem flags_avoids_misaligned : Avoids Fault.IsMisaligned (context.flags memory) anything :=
  (memory.readU32_avoids_misaligned aligned (by decide)).mapped

/-- The context that a parent link leads to is aligned, through a slot or not. -/
theorem parent_avoids_misaligned :
    Avoids Fault.IsMisaligned (context.parent memory) fun parent =>
      ∀ outer ∈ parent, outer.address.AtDescriptor := by
  refine Avoids.bind (?_ : Avoids _ (context.parentLink memory) anything) fun link _ _ => ?_
  · refine (Address.add_avoids_misaligned (by decide) aligned (by decide)).bind fun _ _ moved => ?_
    exact (memory.read_avoids_misaligned .i32 moved).mapped.mapped
  · unfold IndirectableLink.get?
    split
    · exact Avoids.ok (by simp)
    refine Avoids.map ((link.target_avoids_misaligned memory).bind fun target _ _ => ?_)
    unfold Context.ofTarget
    split
    case isTrue placed =>
        rintro outer ⟨rfl⟩
        exact Address.isAligned_iff.mp placed
    case isFalse => exact fun misaligned => misaligned

theorem name_avoids_misaligned : Avoids Fault.IsMisaligned (context.name memory) anything := by
  refine (flags_avoids_misaligned memory aligned).mapped.bind fun kind _ _ => ?_
  split
  · refine (DirectLink.readAt_avoids_misaligned memory aligned (by decide)).bind fun link _ _ => ?_
    exact (link.get?_avoids_misaligned memory.cString_avoids_misaligned).anyway
  · exact Avoids.pure trivial

theorem check_avoids_misaligned (expected : ContextKind) :
    Avoids (Failure.Stops Fault.IsMisaligned) (TypeContext.check context memory expected)
      fun found => found.address.AtDescriptor := by
  unfold TypeContext.check
  refine (Avoids.lift (flags_avoids_misaligned memory aligned).mapped).bind fun kind _ _ => ?_
  split
  · exact Avoids.pure aligned
  · exact Avoids.thrown _

end Context

theorem StructDescriptor.check_avoids_misaligned {context : Context} (memory : Memory)
    (aligned : context.address.AtDescriptor) :
    Avoids (Failure.Stops Fault.IsMisaligned) (StructDescriptor.check context memory)
      fun found => found.address.AtDescriptor := by
  refine Avoids.map ?_
  exact context.check_avoids_misaligned memory aligned .structType

theorem ClassDescriptor.check_avoids_misaligned {context : Context} (memory : Memory)
    (aligned : context.address.AtDescriptor) :
    Avoids (Failure.Stops Fault.IsMisaligned) (ClassDescriptor.check context memory)
      fun found => found.address.AtDescriptor := by
  refine Avoids.map ?_
  exact context.check_avoids_misaligned memory aligned .classType

/-! ## Metadata and fields -/

theorem StructType.check_avoids_misaligned (handle : TypeHandle) (memory : Memory) :
    Avoids (Failure.Stops Fault.IsMisaligned) (StructType.check handle memory) IsAligned := by
  unfold StructType.check
  refine (handle.shape_avoids_misaligned memory .structType).bind fun _ _ aligned => ?_
  have pointer := memory.readPointer_avoids_misaligned aligned
    (by decide : 8 ∣ Format.StructMetadata.descriptor)
  refine (Avoids.lift pointer).bind fun stored _ _ => ?_
  cases stored with
  | none => exact Avoids.thrown _
  | some address =>
      refine (Avoids.liftCheck fun _ => Context.aligned_of_check).bind fun context _ placed => ?_
      have descriptor := StructDescriptor.check_avoids_misaligned memory placed
      exact descriptor.bind fun _ _ found => Avoids.pure ⟨aligned, found⟩

theorem ClassType.check_avoids_misaligned (handle : TypeHandle) (memory : Memory) :
    Avoids (Failure.Stops Fault.IsMisaligned) (ClassType.check handle memory) IsAligned := by
  unfold ClassType.check
  refine (handle.shape_avoids_misaligned memory .classType).bind fun _ _ aligned => ?_
  have pointer := memory.readPointer_avoids_misaligned aligned
    (by decide : 8 ∣ Format.ClassMetadata.descriptor)
  refine (Avoids.lift pointer).bind fun stored _ _ => ?_
  cases stored with
  | none => exact Avoids.pure ⟨aligned, by simp⟩
  | some address =>
      refine (Avoids.liftCheck fun _ => Context.aligned_of_check).bind fun context _ placed => ?_
      have descriptor := ClassDescriptor.check_avoids_misaligned memory placed
      refine descriptor.bind fun descriptor _ found => Avoids.pure ⟨aligned, ?_⟩
      rintro _ ⟨rfl⟩
      exact found

theorem ClassType.checkSuperclass_avoids_misaligned {type : ClassType} (memory : Memory)
    (aligned : type.IsAligned) :
    Avoids (Failure.Stops Fault.IsMisaligned) (type.checkSuperclass memory) fun superclass =>
      ∀ found ∈ superclass, found.IsAligned := by
  unfold ClassType.checkSuperclass
  have pointer := memory.readPointer_avoids_misaligned aligned.1
    (by decide : 8 ∣ Format.ClassMetadata.superclass)
  refine (Avoids.lift pointer).bind fun stored _ _ => ?_
  cases stored with
  | none => exact Avoids.pure (by simp)
  | some address =>
      refine Avoids.map ((check_avoids_misaligned ⟨address⟩ memory).mono fun type _ checked => ?_)
      rintro _ ⟨rfl⟩
      exact checked

/-- The offset vector starts a whole number of words behind the metadata. -/
theorem StructType.fieldOffsets_avoids_misaligned {type : StructType} (memory : Memory)
    (aligned : type.IsAligned) :
    Avoids Fault.IsMisaligned (type.fieldOffsets memory) fun vector =>
      ∀ run ∈ vector, run.scalar.size ∣ run.start.bits.toNat := by
  unfold StructType.fieldOffsets
  have locator := memory.readU32_avoids_misaligned aligned.2
    (by decide : 4 ∣ Format.StructDescriptor.offsetVectorLocator)
  have count := memory.readU32_avoids_misaligned aligned.2
    (by decide : 4 ∣ Format.StructDescriptor.fieldCount)
  refine Avoids.bind locator.mapped fun locator _ _ => ?_
  split
  · exact Avoids.pure (by simp)
  have words : 8 ∣ locator * Format.wordSize := Nat.dvd_mul_left ..
  have start := Address.add_avoids_misaligned (by decide) aligned.1 words
  refine start.bind fun start _ placed => Avoids.bind count.mapped fun count _ _ => ?_
  have multiple : Scalar.u32.size ∣ start.bits.toNat := Nat.dvd_trans (by decide) placed
  unfold Slice.of
  rw [if_pos (Address.isAligned_iff.mpr multiple)]
  rintro _ ⟨rfl⟩
  exact multiple

namespace FieldDescriptor

/-- Records of an accepted size are a multiple of four bytes apart. -/
theorem dvd_of_isRecordSize {size : UInt16} (accepted : isRecordSize size = true) :
    4 ∣ size.toNat := by
  simp only [isRecordSize, Bool.and_eq_true, decide_eq_true_eq, beq_iff_eq] at accepted
  exact Nat.dvd_of_mod_eq_zero accepted.2

theorem check_avoids_misaligned (memory : Memory) (address : Address) :
    Avoids (Failure.Stops Fault.IsMisaligned) (check memory address) fun found =>
      found.IsAligned memory := by
  unfold check
  split
  case isFalse => exact Avoids.thrown _
  case isTrue placed =>
      have aligned : address.AtDescriptor := Address.isAligned_iff.mp placed
      have read := memory.readU16_avoids_misaligned (Nat.dvd_trans (by decide) aligned)
        (by decide : 2 ∣ Format.FieldDescriptor.recordSize)
      refine Avoids.bind (Avoids.lift (read.mono fun size given _ => given)) fun size _ given => ?_
      split
      case isFalse => exact Avoids.thrown _
      case isTrue accepted =>
          refine Avoids.pure ⟨aligned, fun declared same => ?_⟩
          have : declared = size.toNat := by
            simpa [recordSize, given, Functor.map, Except.map] using same.symm
          exact this ▸ dvd_of_isRecordSize accepted

variable {descriptor : FieldDescriptor} (memory : Memory) (aligned : descriptor.IsAligned memory)

include aligned

theorem header_avoids_misaligned {position : Nat} (multiple : 2 ∣ position) :
    Avoids Fault.IsMisaligned (memory.readU16 descriptor.address position) anything :=
  memory.readU16_avoids_misaligned (Nat.dvd_trans (by decide) aligned.1) multiple

theorem encodedName_avoids_misaligned {position : Nat} (multiple : 4 ∣ position) :
    Avoids Fault.IsMisaligned (descriptor.encodedName memory position) anything := by
  have link := DirectLink.readAt_avoids_misaligned memory aligned.1 multiple
  refine link.bind fun link _ _ => ?_
  exact (link.get?_avoids_misaligned (EncodedName.read_avoids_misaligned memory)).anyway

/-- Each record stands at a multiple of four, as its size keeps the alignment of the header. -/
theorem readRecord_avoids_misaligned (index : Nat) :
    Avoids Fault.IsMisaligned (descriptor.readRecord memory index) anything := by
  have size : Avoids Fault.IsMisaligned (descriptor.recordSize memory) anything :=
    (header_avoids_misaligned memory aligned (by decide)).mapped
  refine size.bind fun size declared _ => ?_
  have multiple : 4 ∣ Format.FieldDescriptor.headerSize + index * size :=
    Nat.dvd_add (by decide) (Nat.dvd_mul_left_of_dvd (aligned.2 size declared) index)
  refine (Address.add_avoids_misaligned (by decide) aligned.1 multiple).bind fun base _ placed => ?_
  refine (memory.readU32_avoids_misaligned placed (by decide)).bind fun flags _ _ => ?_
  refine (DirectLink.readAt_avoids_misaligned memory placed (by decide)).bind fun type _ _ => ?_
  refine (DirectLink.readAt_avoids_misaligned memory placed (by decide)).bind fun name _ _ => ?_
  have typeName := type.get?_avoids_misaligned (EncodedName.read_avoids_misaligned memory)
  refine typeName.bind fun _ _ _ => ?_
  refine (name.get_avoids_misaligned memory.cString_avoids_misaligned).bind fun _ _ _ => ?_
  exact Avoids.pure trivial

end FieldDescriptor

/-! ## All views -/

/-- Aligned views are safe from misaligned reads, in any memory. -/
theorem View.aligned_safe (memory : Memory) :
    SafeViews Fault.IsMisaligned memory (View.IsAligned memory) where
  malformed _ misaligned := misaligned
  endlessChain misaligned := misaligned
  addressHandle _ _ := trivial
  addressContext _ _ _ accepted := Context.aligned_of_check accepted
  addressFields address _ := FieldDescriptor.check_avoids_misaligned memory address
  kindWord handle _ := (handle.kindWord_avoids_misaligned memory).anyway
  checkStruct handle _ := StructType.check_avoids_misaligned handle memory
  checkClass handle _ := ClassType.check_avoids_misaligned handle memory
  structHandle _ _ := trivial
  structDescriptor _ aligned := aligned.2
  fieldOffsets _ aligned := StructType.fieldOffsets_avoids_misaligned memory aligned
  classHandle _ _ := trivial
  classDescriptor _ aligned := aligned.2
  checkSuperclass _ aligned := ClassType.checkSuperclass_avoids_misaligned memory aligned
  classWord _ aligned _ multiple _ :=
    memory.readU32_avoids_misaligned (Nat.dvd_trans (by decide) aligned.1) multiple
  instanceAlignmentMask _ aligned :=
    memory.readU16_avoids_misaligned (Nat.dvd_trans (by decide) aligned.1) (by decide)
  reflectedStruct _ := Iff.rfl
  reflectedClass _ := Iff.rfl
  flags _ aligned := Context.flags_avoids_misaligned memory aligned
  parent _ aligned := Context.parent_avoids_misaligned memory aligned
  name _ aligned := Context.name_avoids_misaligned memory aligned
  contextType context aligned := by
    refine (context.flags_avoids_misaligned memory aligned).mapped.bind fun kind _ _ => ?_
    refine Avoids.pure ?_
    split
    · rintro _ ⟨rfl⟩
      exact aligned
    · simp
  contextStruct _ aligned := StructDescriptor.check_avoids_misaligned memory aligned
  contextClass _ aligned := ClassDescriptor.check_avoids_misaligned memory aligned
  typeContext _ aligned := aligned
  typeName _ aligned := by
    refine (DirectLink.readAt_avoids_misaligned memory aligned (by decide)).bind fun link _ _ => ?_
    exact link.get_avoids_misaligned memory.cString_avoids_misaligned
  accessFunction _ aligned := by
    refine (DirectLink.readAt_avoids_misaligned memory aligned (by decide)).bind fun link _ _ => ?_
    exact (link.get?_avoids_misaligned fun _ => Avoids.ok trivial).anyway
  checkFields type aligned := by
    have link := DirectLink.readAt_avoids_misaligned memory aligned
      (by decide : 4 ∣ Format.Context.fields)
    refine (Avoids.lift link).bind fun link _ _ => ?_
    have views (target : Address) : Avoids Fault.IsMisaligned (.ok target) anything := trivial
    refine (Avoids.lift (link.get?_avoids_misaligned views)).bind fun found _ _ => ?_
    cases found with
    | none => exact Avoids.pure (by simp)
    | some address =>
        refine Avoids.map ((FieldDescriptor.check_avoids_misaligned memory address).mono ?_)
        rintro descriptor _ checked _ ⟨rfl⟩
        exact checked
  structDescriptorType _ aligned := aligned
  structDescriptorWord _ aligned _ multiple _ := memory.readU32_avoids_misaligned aligned multiple
  classDescriptorType _ aligned := aligned
  classDescriptorWord _ aligned _ multiple _ := memory.readU32_avoids_misaligned aligned multiple
  superclassType _ aligned := by
    refine (DirectLink.readAt_avoids_misaligned memory aligned (by decide)).bind fun link _ _ => ?_
    exact (link.get?_avoids_misaligned (EncodedName.read_avoids_misaligned memory)).anyway
  fieldsKind _ aligned :=
    (FieldDescriptor.header_avoids_misaligned memory aligned (by decide)).mapped
  fieldsName _ aligned _ multiple _ :=
    FieldDescriptor.encodedName_avoids_misaligned memory aligned multiple
  recordSize _ aligned :=
    (FieldDescriptor.header_avoids_misaligned memory aligned (by decide)).mapped
  fieldCount _ aligned := (memory.readU32_avoids_misaligned aligned.1 (by decide)).mapped
  record _ aligned _ index _ _ :=
    FieldDescriptor.readRecord_avoids_misaligned memory aligned index
  cursor _ := Iff.rfl
  element _ _ _ _ := (memory.bytes_avoids_misaligned _ _).mapped

/-- Whatever memory holds, and whatever address reflection starts at: no accessor of any view that
    it reaches stops at a misaligned read, and every run of numbers that is handed out starts at a
    multiple of their size. -/
theorem reachable_reads_aligned (memory : Memory) (address : Address) {view : View}
    (reached : Reachable memory (.address address) view) :
    (∀ answer fault, Access memory view answer → answer = .error fault → ¬ fault.IsMisaligned) ∧
      ∀ slice, view = .slice slice → slice.start.isAligned slice.scalar.size = true := by
  have safe := View.aligned_safe memory
  have start : View.IsAligned memory (.address address) := trivial
  have aligned := safe.reachable start reached
  refine ⟨fun answer fault accessed stopped => ?_, fun slice same => ?_⟩
  · exact (safe.access aligned accessed).error_of stopped
  · subst same
    exact Address.isAligned_iff.mpr aligned

/-- The metadata of a struct, followed by the start of its descriptor. -/
def loneStruct : Memory :=
  (Memory.zeroed 0x1000 64).store 0x1000
    #[0x00, 0x02, 0, 0, 0, 0, 0, 0, 0x10, 0x10, 0, 0, 0, 0, 0, 0, 0x51]

/-- The handle of the struct gives its metadata, that its descriptor and that its context. -/
theorem reachable_reads_aligned_loneStruct :
    Reachable loneStruct (.address ⟨0x1000, by decide⟩) (.typeContext ⟨⟨⟨0x1010, by decide⟩⟩⟩) ∧
      (∀ answer fault, Access loneStruct (.typeContext ⟨⟨⟨0x1010, by decide⟩⟩⟩) answer →
        answer = .error fault → ¬ fault.IsMisaligned) ∧
      ∀ slice, View.typeContext ⟨⟨⟨0x1010, by decide⟩⟩⟩ = .slice slice →
        slice.start.isAligned slice.scalar.size = true := by
  have handle : Reachable loneStruct (.address ⟨0x1000, by decide⟩)
      (.handle ⟨⟨0x1000, by decide⟩⟩) :=
    .access .start (.addressHandle _) (List.mem_cons_self ..)
  have type : Reachable loneStruct (.address ⟨0x1000, by decide⟩)
      (.structType ⟨⟨⟨0x1000, by decide⟩⟩, ⟨⟨⟨⟨0x1010, by decide⟩⟩⟩⟩⟩) :=
    .access handle (.handleCheckStruct _) (List.mem_cons_self ..)
  have descriptor := Reachable.access type (.structParts _)
    (List.mem_cons_of_mem _ (List.mem_cons_self ..))
  have context := Reachable.access descriptor (.structDescriptorType _) (List.mem_cons_self ..)
  exact ⟨context, reachable_reads_aligned loneStruct _ context⟩

end TypeReflection
