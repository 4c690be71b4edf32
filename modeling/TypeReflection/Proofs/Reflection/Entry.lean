import TypeReflection.Proofs.Image.History
import TypeReflection.Proofs.Reflection.Metadata

/-! # Reading finished images

Every entry of a builder's history can be read back from the finished image, whatever was emitted
before and behind it.
-/

namespace TypeReflection

namespace Entry

/-- The kind of the context. -/
def kind : Entry → ContextKind
  | .module _ _ => .module
  | .extension _ _ => .extension
  | .structType _ _ _ => .structType
  | .classType _ _ _ => .classType

/-- The name of the context as it is read back. -/
def name? : Entry → Option (List UInt8)
  | .module name _ => some (readBack name)
  | .extension _ _ => none
  | .structType definition _ _ => some (readBack definition.nominal.name)
  | .classType definition _ _ => some (readBack definition.nominal.name)

/-- What is read of the metadata and the descriptor of a type. -/
def ShowsType (memory : Memory) (base : Address) : Entry → Prop
  | .structType definition metadata place => definition.Shows memory base metadata place
  | .classType definition metadata place => definition.Shows memory base metadata place
  | .module _ _ | .extension _ _ => True

/-- What is read of the records of an entry. -/
structure Shows (entry : Entry) (memory : Memory) (base : Address) : Prop where
  context_shows : (⟨base.past entry.place⟩ : Context).Shows memory entry.kind
    (entry.parent?.map fun symbol => ⟨base.past symbol.offset⟩) entry.name?
  type_shows : entry.ShowsType memory base

namespace Shows

variable {memory : Memory} {base : Address} {metadata place : Nat}

theorem structType {definition : StructDefinition}
    (shows : (Entry.structType definition metadata place).Shows memory base) :
    definition.Shows memory base metadata place :=
  shows.type_shows

theorem classType {definition : ClassDefinition}
    (shows : (Entry.classType definition metadata place).Shows memory base) :
    definition.Shows memory base metadata place :=
  shows.type_shows

end Shows

end Entry

namespace Emits

variable {image : UInt32} {size : Nat} {entry : Entry} {emission : Emission}
  (emits : Emits image size entry emission)

include emits

/-- Symbols stand for aligned places. -/
theorem aligned : ∀ symbol ∈ entry.symbols image, 4 ∣ symbol.offset := by
  cases emits with
  | module emitted => exact List.forall_mem_singleton.mpr (dvd_alignUp ..)
  | extension emitted => exact List.forall_mem_singleton.mpr (dvd_alignUp ..)
  | structType _ emitted =>
      obtain ⟨_, _, _, parts⟩ := StructDefinition.emit_eq_ok emitted
      have metadata : 8 ∣ _ := parts.metadata_eq ▸ dvd_alignUp ..
      have descriptor : 4 ∣ _ := parts.descriptor_eq ▸ dvd_alignUp ..
      exact List.forall_mem_cons.mpr ⟨Nat.dvd_trans (by decide) metadata,
        List.forall_mem_singleton.mpr descriptor⟩
  | classType _ emitted =>
      obtain ⟨_, _, _, _, _, parts⟩ := ClassDefinition.emit_eq_ok emitted
      have metadata : 8 ∣ _ :=
        parts.metadata_eq ▸ Nat.dvd_add (dvd_alignUp ..) (by decide)
      have descriptor : 4 ∣ _ := parts.descriptor_eq ▸ dvd_alignUp ..
      exact List.forall_mem_cons.mpr ⟨Nat.dvd_trans (by decide) metadata,
        List.forall_mem_singleton.mpr descriptor⟩

/-- Where the emitted bytes stand, relocated, the entry can be read back. -/
theorem shows {base : Address} (word : 8 ∣ base.bits.toNat)
    (front : ∀ symbol ∈ entry.mentioned, 4 ∣ symbol.offset ∧ symbol.offset < size) :
    ∃ final, Relocates base.bits size emission.bytes emission.relocations final ∧
      ∀ memory : Memory, memory.Holds (base.bits.toNat + size) final →
        entry.Shows memory base := by
  have start := le_alignUp size (by decide : 0 < Format.descriptorAlignment)
  cases emits with
  | module emitted =>
      have plain : emission.relocations = [] := by
        obtain ⟨_, _, rfl⟩ := emitModule_eq_ok emitted
        rfl
      refine ⟨emission.bytes, plain ▸ .plain .., fun memory holds => ⟨?_, trivial⟩⟩
      exact Context.shows_module emitted word holds
  | @extension parent _ emitted =>
      have plain : emission.relocations = [] := by
        obtain ⟨_, _, _, _, rfl⟩ := emitExtension_eq_ok emitted
        rfl
      obtain ⟨multiple, before⟩ := front parent (by simp [Entry.mentioned, Entry.parent?])
      refine ⟨emission.bytes, plain ▸ .plain .., fun memory holds => ⟨?_, trivial⟩⟩
      exact Context.shows_extension emitted word holds multiple before
  | @structType _ _ definition type defined emitted =>
      obtain ⟨parent, name, fields, parts⟩ := StructDefinition.emit_eq_ok emitted
      refine ⟨_, parts.relocates base.bits, fun memory holds => ?_⟩
      have fits := StructDefinition.fits_ofSettings defined
      obtain ⟨context, shown⟩ := parts.shows (parts.stands holds) fits word (by
        intro found member
        obtain ⟨multiple, before⟩ := front found.context (by
          simp [Entry.mentioned, Entry.parent?, Option.mem_def.mp member])
        exact ⟨multiple, by rw [parts.descriptor_eq]; omega⟩)
      refine ⟨?_, shown⟩
      simpa [Entry.parent?, Entry.place, Entry.kind, Entry.name?, Function.comp_def] using context
  | @classType _ _ definition type defined emitted =>
      obtain ⟨superclass, parent, name, superclassType, fields, parts⟩ :=
        ClassDefinition.emit_eq_ok emitted
      refine ⟨_, parts.relocates base.bits, fun memory holds => ?_⟩
      have fits := ClassDefinition.fits_ofSettings defined
      have known := ClassDefinition.superclassPosition_eq_ok parts.superclass_eq
      obtain ⟨context, shown⟩ := parts.shows (parts.stands holds) fits word (by
        intro found member
        obtain ⟨multiple, before⟩ := front found.context (by
          simp [Entry.mentioned, Entry.parent?, Option.mem_def.mp member])
        exact ⟨multiple, by rw [parts.descriptor_eq]; omega⟩) (by
        intro offset member
        obtain ⟨_, before⟩ := front ⟨image, offset, .classMetadata⟩ (by
          simp [Entry.mentioned, Entry.superclass?, known, Option.mem_def.mp member])
        rw [parts.descriptor_eq]
        exact Nat.lt_of_lt_of_le before start)
      refine ⟨?_, shown⟩
      simpa [Entry.parent?, Entry.place, Entry.kind, Entry.name?, Function.comp_def] using context

end Emits

namespace Run

variable {image : UInt32} {entries : List Entry} {builder : Builder}

theorem aligned (run : Run image entries builder) :
    ∀ symbol ∈ issuedSymbols image entries, 4 ∣ symbol.offset := by
  induction run using keeps with
  | empty => exact List.forall_mem_nil _
  | step entries builder entry emission _ _ emits _ ih =>
      exact List.forall_mem_append.mpr ⟨emits.aligned, ih⟩

/-- Where the bytes of a builder stand, relocated, all its entries can be read back. -/
theorem shows (run : Run image entries builder) {base : Address} (word : 8 ∣ base.bits.toNat) :
    ∃ final, Relocates base.bits 0 builder.bytes builder.relocations final ∧
      ∀ memory : Memory, memory.Holds base.bits.toNat final →
        ∀ entry ∈ entries, entry.Shows memory base := by
  induction run using keeps with
  | empty => exact ⟨[], .plain 0 [], fun _ _ => List.forall_mem_nil _⟩
  | step entries builder entry emission run _ emits own ih =>
      obtain ⟨before, first, shown⟩ := ih
      have front : ∀ symbol ∈ entry.mentioned,
          4 ∣ symbol.offset ∧ symbol.offset < builder.bytes.length := fun symbol member =>
        ⟨run.aligned symbol (own symbol member), run.inside symbol (own symbol member)⟩
      obtain ⟨behind, second, shows⟩ := emits.shows word front
      -- the bytes so far are kept, and with them what earlier entries show
      refine ⟨before ++ behind, first.append (second.of_eq (Nat.zero_add _).symm), ?_⟩
      intro memory holds
      obtain ⟨left, right⟩ := Memory.holds_append.mp holds
      rw [first.length] at right
      exact List.forall_mem_cons.mpr ⟨shows memory right, shown memory left⟩

end Run

/-! ## Images in memory -/

namespace Image

variable {image : Image} {bytes : List UInt8}

/-- The byte at a distance from the base. -/
theorem byte?_eq (stores : image.storage.Stores bytes) (address : UInt64) :
    image.memory.byte? address = bytes[(address - image.base.bits).toNat]? :=
  stores.get? _

theorem holds_of_stores (stores : image.storage.Stores bytes)
    (fits : image.base.bits.toNat + bytes.length ≤ UInt64.size) :
    image.memory.Holds image.base.bits.toNat bytes where
  fits := fits
  stored index inside := by
    have small : index < UInt64.size := by omega
    have place : UInt64.ofNat (image.base.bits.toNat + index) - image.base.bits
        = UInt64.ofNat index := by
      rw [UInt64.ofNat_add, UInt64.ofNat_toNat, UInt64.add_comm, UInt64.add_sub_cancel]
    rw [byte?_eq stores, place, UInt64.toNat_ofNat_of_lt' small, List.getElem?_eq_getElem inside]

/-- Nothing else is mapped. -/
theorem mapped_iff (stores : image.storage.Stores bytes) (address : UInt64)
    (fits : image.base.bits.toNat + bytes.length ≤ UInt64.size) :
    (image.memory.byte? address).isSome ↔ image.base.bits.toNat ≤ address.toNat ∧
      address.toNat < image.base.bits.toNat + bytes.length := by
  have whole : UInt64.size = 2 ^ 64 := rfl
  have first := image.base.bits.toNat_lt
  have second := address.toNat_lt
  rw [byte?_eq stores, isSome_getElem?, UInt64.toNat_sub]
  omega

end Image

/-- A finished image in memory: exactly its bytes are mapped, and all entries can be read back. -/
structure Image.Presents (image : Image) (entries : List Entry) (size : Nat) : Prop where
  mapped_iff : ∀ address, (image.memory.byte? address).isSome ↔
    image.base.bits.toNat ≤ address.toNat ∧ address.toNat < image.base.bits.toNat + size
  maps : image.memory.Maps image.base.bits.toNat size
  entries_show : ∀ entry ∈ entries, entry.Shows image.memory image.base

theorem Run.presents {image : UInt32} {entries : List Entry} {builder : Builder}
    (run : Run image entries builder) {base : Address} {finished : Image}
    (aligned : base.isAligned Format.imageAlignment = true)
    (fits : base.bits.toNat + builder.bytes.length ≤ UInt64.size)
    (found : builder.finish? base = some finished) :
    finished.id = image ∧ finished.base = base ∧
      finished.Presents entries builder.bytes.length := by
  have word : 8 ∣ base.bits.toNat :=
    Nat.dvd_trans (by decide) (Address.isAligned_iff.mp aligned)
  obtain ⟨final, relocates, shows⟩ := run.shows word
  obtain ⟨storage, given, stores⟩ := Builder.finish?_of_relocates relocates
  cases Option.some.inj (found.symm.trans given)
  rw [← relocates.length] at fits ⊢
  have holds : (⟨builder.image, base, storage⟩ : Image).memory.Holds base.bits.toNat final :=
    Image.holds_of_stores stores fits
  exact ⟨run.image_eq, rfl, fun address => Image.mapped_iff stores address fits,
    ⟨final, rfl, holds⟩, shows _ holds⟩

end TypeReflection
