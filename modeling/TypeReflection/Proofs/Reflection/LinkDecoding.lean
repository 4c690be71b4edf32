import TypeReflection.Proofs.Reflection.Ancestry
import TypeReflection.Proofs.Reflection.Stored

/-! # Links decode to what was encoded

A distance that fits into 32 bits leads from one position of an image to the other, wherever the
image lies. The links that are emitted are such distances. None of them is read as absent, none that
is direct as one through a slot, and a slot holds the address that a direct link would lead to.
-/

namespace TypeReflection

/-! ## One link -/

/-- The distance between two positions is a signed number of 32 bits. -/
def FitsLink (anchor target : Nat) : Prop :=
  -0x80000000 ≤ (target : Int) - anchor ∧ (target : Int) - anchor < 0x80000000

/-- How the link from one position to another is encoded, and what it is decoded to. -/
structure LinkDecodes (anchor target : Nat) : Prop where
  /-- Distances that do not fit are refused, and no others are. -/
  refuses : linkOffset anchor target = .error (.offsetTooLarge ((target : Int) - anchor)) ↔
    ¬ FitsLink anchor target
  /-- What is stored leads from the one place to the other, if neither lies behind the end of the
      address space. -/
  decodes : FitsLink anchor target → ∃ offset, linkOffset anchor target = .ok offset ∧
    ∀ (memory : Memory) (base place goal : Address),
      base.isAligned Format.imageAlignment = true →
      place.bits.toNat = base.bits.toNat + anchor → goal.bits.toNat = base.bits.toNat + target →
      memory.Holds place.bits.toNat (storedOffset offset) →
      ∃ link, DirectLink.read memory place = .ok link ∧ link.isAbsent = false ∧
        link.target = .ok goal
  /-- Between aligned positions the link is not read as one through a slot either. -/
  unmarked : 4 ∣ target → ∀ offset, linkOffset anchor target = .ok offset →
    ∀ (memory : Memory) (base place goal : Address),
      base.isAligned Format.imageAlignment = true →
      place.bits.toNat = base.bits.toNat + anchor → goal.bits.toNat = base.bits.toNat + target →
      memory.Holds place.bits.toNat (storedOffset offset) →
      ∃ link, IndirectableLink.read memory place = .ok link ∧ link.isAbsent = false ∧
        link.isIndirect = false ∧ link.target memory = .ok goal

theorem isIndirect_eq_false {anchor target : Nat} {offset : Int32} {place : Address}
    (linked : linkOffset anchor target = .ok offset) (even : 2 ∣ (target : Int) - anchor) :
    (⟨place, offset⟩ : IndirectableLink).isIndirect = false := by
  rw [← toInt_of_linkOffset linked] at even
  rw [IndirectableLink.isIndirect, and_one_of_even even]
  rfl

theorem isIndirect_or_one (place : Address) (offset : Int32) :
    (⟨place, offset ||| 1⟩ : IndirectableLink).isIndirect = true := by
  rw [IndirectableLink.isIndirect, or_one_and_one]
  rfl

theorem linkDecodes {anchor target : Nat} (aligned : 4 ∣ anchor) (apart : anchor ≠ target) :
    LinkDecodes anchor target := by
  have places : ∀ {base place goal : Address}, base.isAligned Format.imageAlignment = true →
      place.bits.toNat = base.bits.toNat + anchor → goal.bits.toNat = base.bits.toNat + target →
      4 ∣ place.bits.toNat ∧ base.bits.toNat + anchor < UInt64.size ∧
        base.bits.toNat + target < UInt64.size ∧ place = base.past anchor ∧
        goal = base.past target := by
    intro base place goal multiple placed found
    have whole : 16 ∣ base.bits.toNat := Address.isAligned_iff.mp multiple
    have first : base.bits.toNat + anchor < UInt64.size := placed ▸ place.bits.toNat_lt
    have second : base.bits.toNat + target < UInt64.size := found ▸ goal.bits.toNat_lt
    refine ⟨by omega, first, second, Address.ext_toNat ?_, Address.ext_toNat ?_⟩
    · rw [placed, Address.toNat_past first]
    · rw [found, Address.toNat_past second]
  constructor
  case refuses =>
      unfold linkOffset FitsLink
      dsimp only
      split
      case isTrue fits => exact ⟨nofun, fun large => absurd fits large⟩
      case isFalse large => exact ⟨fun _ => large, fun _ => rfl⟩
  case decodes =>
      intro fits
      refine ⟨_, if_pos fits, fun memory base place goal multiple placed found holds => ?_⟩
      obtain ⟨four, first, second, rfl, rfl⟩ := places multiple placed found
      have leads := DirectLink.leads_of_linkOffset (if_pos fits) apart first second
      cases leads with
      | present present target =>
          refine ⟨_, ?_, present, target⟩
          rw [DirectLink.read, holds.readOffset four, map_ok]
  case unmarked =>
      intro even offset linked memory base place goal multiple placed found holds
      obtain ⟨four, first, second, rfl, rfl⟩ := places multiple placed found
      have leads := IndirectableLink.leads_direct linked apart first second memory (by omega)
      cases leads with
      | present present target =>
          exact ⟨_, holds.indirectableLink four, present, isIndirect_eq_false linked (by omega),
            target⟩

/-! ## Links that are present -/

/-- A link stands at the position, and no reader takes it for an absent one. -/
structure Memory.LinkPresent (memory : Memory) (position : Nat) : Prop where
  stored : ∃ offset, isAbsentOffset offset = false ∧ memory.Holds position (storedOffset offset)
  read : ∀ place : Address, place.bits.toNat = position →
    ∀ link, DirectLink.read memory place = .ok link → link.isAbsent = false
  readEither : ∀ place : Address, place.bits.toNat = position →
    ∀ link, IndirectableLink.read memory place = .ok link → link.isAbsent = false

/-- An offset that can be read is the one that is stored, aligned or not. -/
theorem Memory.Holds.offset_eq {memory : Memory} {place : Address} {offset found : Int32}
    (holds : memory.Holds place.bits.toNat (storedOffset offset))
    (given : memory.readOffset place = .ok found) : found = offset := by
  by_cases aligned : 4 ∣ place.bits.toNat
  · rw [holds.readOffset aligned] at given
    exact (Except.ok.inj given).symm
  · have misaligned : ¬ place.isAligned Scalar.i32.size = true :=
      fun multiple => aligned (Address.isAligned_iff.mp multiple)
    rw [Memory.readOffset, Memory.read, if_neg misaligned] at given
    cases given

theorem Memory.Holds.linkPresent {memory : Memory} {position : Nat} {offset : Int32}
    (holds : memory.Holds position (storedOffset offset))
    (present : isAbsentOffset offset = false) : memory.LinkPresent position := by
  constructor
  case stored => exact ⟨offset, present, holds⟩
  case read =>
      rintro place rfl link given
      obtain ⟨found, read, rfl⟩ := map_eq_ok.mp given
      rw [holds.offset_eq read]
      exact present
  case readEither =>
      rintro place rfl link given
      obtain ⟨found, read, rfl⟩ := map_eq_ok.mp given
      rw [holds.offset_eq read]
      exact present

namespace Attachment

variable {memory : Memory} {anchor position start : Nat} {attachment : Attachment}
  (holds : memory.Holds start attachment.link)

include holds

theorem linkPresent_of_ofString {string : List UInt8} (apart : anchor ≠ position)
    (given : ofString anchor position string = .ok attachment) : memory.LinkPresent start := by
  obtain ⟨offset, linked, rfl⟩ := ofString_eq_ok.mp given
  exact Memory.Holds.linkPresent holds (not_isAbsentOffset linked apart)

theorem linkPresent_of_ofEncodedName {name : Option (List UInt8)} (apart : anchor ≠ position)
    (some : name.isSome = true) (given : ofEncodedName anchor position name = .ok attachment) :
    memory.LinkPresent start := by
  rcases ofEncodedName_eq_ok.mp given with ⟨rfl, -⟩ | ⟨bytes, rfl, -, given⟩
  · cases some
  · exact linkPresent_of_ofString holds apart given

theorem LinksParent.linkPresent {image : UInt32} {reference : ParentReference}
    (links : LinksParent image anchor position (some reference) attachment)
    (apart : anchor ≠ reference.context.offset) : memory.LinkPresent start := by
  cases links with
  | direct linked => exact Memory.Holds.linkPresent holds (not_isAbsentOffset linked apart)
  | indirect => exact Memory.Holds.linkPresent holds (not_isAbsentOffset_or_one _)

end Attachment

/-! ## Links of field descriptors -/

/-- The positions of the links in the field descriptor of a definition. -/
inductive NominalDefinition.HasFieldLink (definition : NominalDefinition)
    (superclassName : Option (List UInt8)) : Nat → Prop where
  | typeName (given : definition.encodedName.isSome = true) :
      HasFieldLink definition superclassName Format.FieldDescriptor.typeName
  | superclass (given : superclassName.isSome = true) :
      HasFieldLink definition superclassName Format.FieldDescriptor.superclass
  | recordType {index : Nat} (inside : index < definition.fields.length)
      (given : definition.fields[index].typeName.isSome = true) :
      HasFieldLink definition superclassName (Format.FieldDescriptor.headerSize
        + index * definition.recordStride + Format.FieldRecord.typeName)
  | recordName {index : Nat} (inside : index < definition.fields.length) :
      HasFieldLink definition superclassName (Format.FieldDescriptor.headerSize
        + index * definition.recordStride + Format.FieldRecord.name)

section FieldLinks

variable {memory : Memory} {start position : Nat}

theorem EmittedRecords.linksPresent {stride record pool : Nat} {fields : List FieldDefinition}
    {emitted : EmittedRecords} (wide : Format.FieldRecord.size ≤ stride)
    (apart : record + fields.length * stride ≤ pool)
    (given : ofFields stride record pool fields = .ok emitted)
    (records : memory.Holds start emitted.records) :
    ∀ index (inside : index < fields.length),
      (fields[index].typeName.isSome = true →
        memory.LinkPresent (start + index * stride + Format.FieldRecord.typeName)) ∧
      memory.LinkPresent (start + index * stride + Format.FieldRecord.name) := by
  induction fields generalizing record pool emitted start with
  | nil => exact fun index inside => absurd inside (Nat.not_lt_zero index)
  | cons field fields ih =>
      obtain ⟨typeName, name, rest, first, second, third, rfl⟩ := ofFields_cons_eq_ok given
      have typeLink := Attachment.length_link_of_ofEncodedName first
      have nameLink := Attachment.length_link_of_ofString second
      simp only [Memory.holds_append, List.length_append, length_littleEndian, length_zeros,
        typeLink, nameLink] at records
      obtain ⟨⟨⟨⟨_, types⟩, texts⟩, _⟩, others⟩ := records
      rw [List.length_cons, Nat.succ_mul] at apart
      have placed : Format.FieldRecord.typeName = 4 ∧ Format.FieldRecord.name = 8 ∧
          Format.FieldRecord.size = 12 := by decide
      intro index inside
      cases index with
      | zero =>
          rw [Nat.zero_mul]
          refine ⟨fun some => ?_, ?_⟩
          · exact Attachment.linkPresent_of_ofEncodedName (types.of_eq (by omega)) (by omega) some
              first
          · exact Attachment.linkPresent_of_ofString (texts.of_eq (by omega)) (by omega) second
      | succ index =>
          have behind : memory.Holds (start + stride) rest.records := others.of_eq (by omega)
          have next := ih (by omega) third behind index (Nat.lt_of_succ_lt_succ inside)
          rw [Nat.succ_mul, Nat.add_comm (index * stride), ← Nat.add_assoc]
          exact next

theorem EmitsFields.linksPresent {definition : NominalDefinition} {kind : FieldDescriptorKind}
    {superclassName : Option (List UInt8)} {descriptor : List UInt8}
    {typeName superclass : Attachment} {fields : EmittedRecords}
    (emits : EmitsFields definition kind superclassName position descriptor typeName superclass
      fields)
    (holds : memory.Holds start descriptor) :
    ∀ inner, definition.HasFieldLink superclassName inner → memory.LinkPresent (start + inner) := by
  have typeLink := Attachment.length_link_of_ofEncodedName emits.type_eq
  have superclassLink := Attachment.length_link_of_ofEncodedName emits.superclass_eq
  rw [emits.bytes_eq] at holds
  simp only [Memory.holds_append, List.length_append, length_littleEndian, typeLink,
    superclassLink] at holds
  obtain ⟨⟨⟨⟨⟨⟨⟨⟨type, parent⟩, _⟩, _⟩, _⟩, records⟩, _⟩, _⟩, _⟩ := holds
  have pool : definition.pool position
      = position + 16 + definition.fields.length * definition.recordStride := rfl
  have placed : Format.FieldDescriptor.typeName = 0 ∧ Format.FieldDescriptor.superclass = 4 ∧
      Format.FieldDescriptor.headerSize = 16 := by decide
  have each := EmittedRecords.linksPresent definition.le_recordStride (by omega) emits.fields_eq
    records
  intro inner has
  cases has with
  | typeName some =>
      exact Attachment.linkPresent_of_ofEncodedName (type.of_eq (by omega)) (by omega) some
        emits.type_eq
  | superclass some =>
      exact Attachment.linkPresent_of_ofEncodedName (parent.of_eq (by omega)) (by omega) some
        emits.superclass_eq
  | @recordType index inside some =>
      have present := (each index inside).1 some
      rw [placed.2.2, ← Nat.add_assoc, ← Nat.add_assoc]
      exact present
  | @recordName index inside =>
      have present := (each index inside).2
      rw [placed.2.2, ← Nat.add_assoc, ← Nat.add_assoc]
      exact present

end FieldLinks

/-! ## Links of types -/

/-- The links of the descriptor of a type stand in memory, and what they lead to behind them. -/
structure NominalDefinition.LinksStand (definition : NominalDefinition) (image : UInt32)
    (memory : Memory) (base : Address) (kind : FieldDescriptorKind)
    (superclassName : Option (List UInt8)) (record : Nat) (parent name fields : Attachment)
    (parentPlace namePlace fieldsPlace : Nat) : Prop where
  parent_links : Attachment.LinksParent image (record + Format.Context.parent) parentPlace
    definition.parent parent
  parentLink : memory.Holds (base.bits.toNat + (record + Format.Context.parent)) parent.link
  slot : memory.Holds (base.bits.toNat + parentPlace)
    (Attachment.filledParent base.bits parentPlace definition.parent)
  name_eq : Attachment.ofString (record + Format.Context.name) namePlace
    (utf8Bytes definition.name) = .ok name
  nameLink : memory.Holds (base.bits.toNat + (record + Format.Context.name)) name.link
  name_behind : record + Format.Context.typeSize ≤ namePlace
  fields_links : LinksFields definition kind superclassName (record + Format.Context.fields)
    fieldsPlace fields
  fieldsLink : memory.Holds (base.bits.toNat + (record + Format.Context.fields)) fields.link
  fieldBytes : memory.Holds (base.bits.toNat + fieldsPlace) fields.bytes
  fields_behind : record + Format.Context.typeSize ≤ fieldsPlace

section Types

variable {image : UInt32} {size : Nat} {memory : Memory} {base : Address} {type : EmittedType}
  {parent name superclassType fields : Attachment}

theorem StructDefinition.Emits.linksStand {definition : StructDefinition}
    (emits : definition.Emits image size type parent name fields)
    (stands : definition.Stands memory base type parent name fields) :
    definition.nominal.LinksStand image memory base .structType none type.descriptor parent name
      fields (type.descriptor + Format.StructDescriptor.size)
      (type.descriptor + Format.StructDescriptor.size + parent.bytes.length)
      (type.descriptor + Format.StructDescriptor.size + parent.bytes.length
        + name.bytes.length) := by
  obtain ⟨_, parentLink, nameLink, _, fieldsLink⟩ :=
    holds_typeHeader stands.header emits.parent_links emits.name_eq
  have placed : Format.StructDescriptor.size = 28 ∧ Format.Context.typeSize = 20 := by decide
  exact ⟨emits.parent_links, parentLink, stands.slot, emits.name_eq, nameLink, by omega,
    emits.fields_links, fieldsLink, stands.fieldBytes, by omega⟩

theorem ClassDefinition.Emits.linksStand {definition : ClassDefinition} {superclass : Option Nat}
    (emits : definition.Emits image size type superclass parent name superclassType fields)
    (stands : definition.Stands memory base type superclass parent name superclassType fields) :
    definition.nominal.LinksStand image memory base .classType
      (definition.superclass.map Prod.snd) type.descriptor parent name fields
      (type.descriptor + Format.ClassDescriptor.size)
      (type.descriptor + Format.ClassDescriptor.size + parent.bytes.length)
      (type.descriptor + Format.ClassDescriptor.size + parent.bytes.length + name.bytes.length
        + superclassType.bytes.length) := by
  obtain ⟨_, parentLink, nameLink, _, fieldsLink⟩ :=
    holds_typeHeader stands.header emits.parent_links emits.name_eq
  have placed : Format.ClassDescriptor.size = 44 ∧ Format.Context.typeSize = 20 := by decide
  exact ⟨emits.parent_links, parentLink, stands.slot, emits.name_eq, nameLink, by omega,
    emits.fields_links, fieldsLink, stands.fieldBytes, by omega⟩

namespace NominalDefinition.LinksStand

variable {definition : NominalDefinition} {kind : FieldDescriptorKind}
  {superclassName : Option (List UInt8)} {record parentPlace namePlace fieldsPlace : Nat}
  (stands : definition.LinksStand image memory base kind superclassName record parent name fields
    parentPlace namePlace fieldsPlace)

include stands

theorem name_present : memory.LinkPresent (base.bits.toNat + (record + Format.Context.name)) := by
  have behind := stands.name_behind
  have placed : Format.Context.name = 8 ∧ Format.Context.typeSize = 20 := by decide
  exact Attachment.linkPresent_of_ofString stands.nameLink (by omega) stands.name_eq

/-- The field descriptor stands where its link leads, with links of its own that are present. -/
theorem fields_present (present : definition.hasFieldDescriptor = true)
    (aligned : 4 ∣ base.bits.toNat + record) :
    memory.LinkPresent (base.bits.toNat + (record + Format.Context.fields)) ∧
      ∃ link start, DirectLink.readAt memory (base.past record) Format.Context.fields = .ok link ∧
        link.target = .ok start ∧ ∀ inner, definition.HasFieldLink superclassName inner →
          memory.LinkPresent (start.bits.toNat + inner) := by
  obtain ⟨-, -, -, -, -, -, links, link, bytes, behind⟩ := stands
  have placed : Format.Context.fields = 16 ∧ Format.Context.typeSize = 20 := by decide
  cases links with
  | absent without => cases present.symm.trans without
  | @present descriptor offset _ emitted linked =>
      obtain ⟨_, _, _, emits⟩ := NominalDefinition.emitFieldDescriptor_eq_ok emitted
      have room := add_length_padding fieldsPlace (by decide : 0 < Format.descriptorAlignment)
      have past := le_alignUp fieldsPlace (by decide : 0 < Format.descriptorAlignment)
      have stored := (Memory.holds_append.mp bytes).2
      rw [Nat.add_assoc, room] at stored
      have nonempty : 0 < descriptor.length := by
        rw [emits.bytes_eq]
        simp only [List.length_append, length_littleEndian]
        omega
      have inside := stored.inside nonempty
      have leads := DirectLink.leads_of_linkOffset linked (Nat.ne_of_lt (by omega))
        (link.inside (by simp)) inside
      cases leads with
      | present some target =>
          refine ⟨Memory.Holds.linkPresent link some, _, _,
            Memory.Holds.recordLink link (by omega), target, ?_⟩
          rw [Address.toNat_past inside]
          exact emits.linksPresent stored

end NominalDefinition.LinksStand

end Types

/-! ## Links of entries -/

namespace Entry

/-- How the entry refers to the context around it. -/
def reference? : Entry → Option ParentReference
  | .module _ _ => none
  | .extension parent _ => some (.direct parent)
  | .structType definition _ _ => definition.nominal.parent
  | .classType definition _ _ => definition.nominal.parent

theorem parent?_eq (entry : Entry) :
    entry.parent? = entry.reference?.map ParentReference.context := by
  cases entry <;> rfl

/-- What the definitions of structs and classes have in common. -/
def nominal? : Entry → Option NominalDefinition
  | .module _ _ | .extension _ _ => none
  | .structType definition _ _ => some definition.nominal
  | .classType definition _ _ => some definition.nominal

/-- The encoded name of the superclass. -/
def superclassName? : Entry → Option (List UInt8)
  | .module _ _ | .extension _ _ | .structType _ _ _ => none
  | .classType definition _ _ => definition.superclass.map Prod.snd

/-- The positions of the links in the context descriptor of an entry. -/
inductive HasLink (entry : Entry) : Nat → Prop where
  | parent (given : entry.reference?.isSome = true) : HasLink entry Format.Context.parent
  | name (given : entry.name?.isSome = true) : HasLink entry Format.Context.name
  | fields {nominal : NominalDefinition} (known : entry.nominal? = some nominal)
      (given : nominal.hasFieldDescriptor = true) : HasLink entry Format.Context.fields
  | superclassType (given : entry.superclassName?.isSome = true) :
      HasLink entry Format.ClassDescriptor.superclassType

namespace Stands

variable {entry : Entry} {image : UInt32} {memory : Memory} {base : Address} {size : Nat}
  {emission : Emission} {final : List UInt8}
  (stands : entry.Stands image memory base size emission final)

include stands

theorem place_eq : entry.place = alignUp size Format.descriptorAlignment := by
  cases stands.emits with
  | module => rfl
  | extension => rfl
  | structType _ emitted =>
      obtain ⟨_, _, _, parts⟩ := StructDefinition.emit_eq_ok emitted
      exact parts.descriptor_eq
  | classType _ emitted =>
      obtain ⟨_, _, _, _, _, parts⟩ := ClassDefinition.emit_eq_ok emitted
      exact parts.descriptor_eq

/-- The descriptor is aligned, and the context around it stands in front of it. -/
theorem parent_before : 4 ∣ entry.place ∧ ∀ reference ∈ entry.reference?,
    4 ∣ reference.context.offset ∧ reference.context.offset < entry.place := by
  have start := le_alignUp size (by decide : 0 < Format.descriptorAlignment)
  have placed := stands.place_eq
  refine ⟨placed ▸ dvd_alignUp .., fun reference member => ?_⟩
  obtain ⟨multiple, before⟩ := stands.front reference.context (by
    simp [mentioned, parent?_eq, Option.mem_def.mp member])
  exact ⟨multiple, by omega⟩

theorem links {definition : NominalDefinition} (known : entry.nominal? = some definition) :
    ∃ kind parent name fields parentPlace namePlace fieldsPlace,
      definition.LinksStand image memory base kind entry.superclassName? entry.place parent name
        fields parentPlace namePlace fieldsPlace := by
  cases entry with
  | module => cases known
  | extension => cases known
  | structType =>
      cases known
      obtain ⟨_, _, _, _, rfl, rfl, parts, standing⟩ := stands.structParts
      exact ⟨_, _, _, _, _, _, _, parts.linksStand standing⟩
  | classType =>
      cases known
      obtain ⟨_, _, _, _, _, _, rfl, rfl, parts, standing, _⟩ := stands.classParts
      exact ⟨_, _, _, _, _, _, _, parts.linksStand standing⟩

/-- The parent link stands in memory, and the slot behind it if it has one. -/
theorem parentLink {reference : ParentReference} (given : entry.reference? = some reference) :
    ∃ attachment position,
      Attachment.LinksParent image (entry.place + Format.Context.parent) position (some reference)
        attachment ∧
      memory.Holds (base.bits.toNat + (entry.place + Format.Context.parent)) attachment.link ∧
      memory.Holds (base.bits.toNat + position)
        (Attachment.filledParent base.bits position (some reference)) := by
  cases entry with
  | module => cases given
  | extension parent place =>
      cases given
      obtain ⟨target, offset, rfl, linked, link⟩ := stands.extensionParts
      have fits := link.fits
      exact ⟨_, place, .direct linked, link, Memory.holds_nil (by omega)⟩
  | structType definition metadata place =>
      obtain ⟨_, parent, _, _, position, _, _, standing⟩ := stands.links rfl
      have same : definition.nominal.parent = some reference := given
      refine ⟨parent, position, same ▸ standing.parent_links, standing.parentLink, ?_⟩
      exact same ▸ standing.slot
  | classType definition metadata place =>
      obtain ⟨_, parent, _, _, position, _, _, standing⟩ := stands.links rfl
      have same : definition.nominal.parent = some reference := given
      refine ⟨parent, position, same ▸ standing.parent_links, standing.parentLink, ?_⟩
      exact same ▸ standing.slot

/-- No link of a context descriptor is read as absent. -/
theorem linksPresent (word : 4 ∣ base.bits.toNat) :
    ∀ position, entry.HasLink position →
      memory.LinkPresent (base.bits.toNat + (entry.place + position)) := by
  obtain ⟨aligned, before⟩ := stands.parent_before
  intro position has
  cases has with
  | parent given =>
      obtain ⟨reference, known⟩ := Option.isSome_iff_exists.mp given
      obtain ⟨attachment, _, links, link, _⟩ := stands.parentLink known
      have front := (before reference known).2
      exact links.linkPresent link (by omega)
  | fields known given =>
      obtain ⟨_, _, _, _, _, _, _, standing⟩ := stands.links known
      exact (standing.fields_present given (by omega)).1
  | name given =>
      cases entry with
      | extension => cases given
      | module name place =>
          obtain ⟨offset, linked, link⟩ := stands.moduleParts
          have placed : Format.Context.name = 8 ∧ Format.Context.moduleSize = 12 := by decide
          exact link.linkPresent (not_isAbsentOffset linked (by omega))
      | structType =>
          obtain ⟨_, _, _, _, _, _, _, standing⟩ := stands.links rfl
          exact standing.name_present
      | classType =>
          obtain ⟨_, _, _, _, _, _, _, standing⟩ := stands.links rfl
          exact standing.name_present
  | superclassType given =>
      cases entry with
      | module => cases given
      | extension => cases given
      | structType => cases given
      | classType =>
          obtain ⟨_, _, _, _, _, _, rfl, rfl, parts, standing, _⟩ := stands.classParts
          have placed : Format.ClassDescriptor.superclassType = 20 ∧
              Format.ClassDescriptor.size = 44 := by decide
          exact Attachment.linkPresent_of_ofEncodedName standing.superclassLink (by omega) given
            parts.superclassType_eq

end Stands

end Entry

/-! ## Parents -/

/-- A parent link is encoded as the definition asks for: directly, or through an aligned slot that
    points to the context. -/
inductive IndirectableLink.Encodes (link : IndirectableLink) (memory : Memory) (goal : Address) :
    ParentReference → Prop where
  | direct {context : Symbol} (unmarked : link.isIndirect = false)
      (same : (⟨link.anchor, link.offset⟩ : DirectLink).target = .ok goal) :
      Encodes link memory goal (.direct context)
  | indirect {context : Symbol} {slot : Address} (marked : link.isIndirect = true)
      (found : link.slot = .ok slot) (aligned : slot.isAligned Format.wordSize = true)
      (points : memory.readPointer slot 0 = .ok (some goal)) :
      Encodes link memory goal (.indirect context)

section Parents

variable {image : UInt32} {memory : Memory} {base : Address} {record position : Nat}
  {reference : ParentReference} {attachment : Attachment}

theorem Context.parentLink_of_holds {offset : Int32}
    (link : memory.Holds (base.bits.toNat + (record + Format.Context.parent))
      (storedOffset offset))
    (aligned : 4 ∣ base.bits.toNat + record) :
    (⟨base.past record⟩ : Context).parentLink memory
      = .ok ⟨base.past (record + Format.Context.parent), offset⟩ := by
  obtain ⟨same, moved⟩ := link.past (by simp)
  have four : 4 ∣ Format.Context.parent := by decide
  have inside := link.inside (by simp)
  have placed := Address.toNat_past inside
  refine bind_eq_ok.mpr ⟨_, Address.add_eq_past (same ▸ inside), ?_⟩
  rw [moved]
  exact Memory.Holds.indirectableLink (placed ▸ link) (by omega)

theorem Attachment.LinksParent.decodes
    (links : LinksParent image (record + Format.Context.parent) position (some reference)
      attachment)
    (link : memory.Holds (base.bits.toNat + (record + Format.Context.parent)) attachment.link)
    (slot : memory.Holds (base.bits.toNat + position)
      (filledParent base.bits position (some reference)))
    (word : 8 ∣ base.bits.toNat) (aligned : 4 ∣ record)
    (before : 4 ∣ reference.context.offset ∧ reference.context.offset < record) :
    ∃ found, (⟨base.past record⟩ : Context).parentLink memory = .ok found ∧
      found.isAbsent = false ∧
      found.target memory = .ok (base.past reference.context.offset) ∧
      found.Encodes memory (base.past reference.context.offset) reference := by
  have first := link.inside (by rw [links.length_link]; decide)
  have four : 4 ∣ Format.Context.parent := by decide
  cases links with
  | @direct target offset linked =>
      obtain ⟨multiple, front⟩ : 4 ∣ target ∧ target < record := before
      have leads := IndirectableLink.leads_direct linked (by omega) first (by omega) memory
        (by omega)
      have plain := DirectLink.leads_of_linkOffset linked (by omega) first
        (show base.bits.toNat + target < UInt64.size by omega)
      cases leads with
      | present present target =>
          cases plain with
          | present _ same =>
              exact ⟨_, Context.parentLink_of_holds link (by omega), present, target,
                .direct (isIndirect_eq_false linked (by omega)) same⟩
  | @indirect target offset linked =>
      obtain ⟨multiple, front⟩ : 4 ∣ target ∧ target < record := before
      have second : base.bits.toNat + target < UInt64.size := by omega
      have room := add_length_padding position (by decide : 0 < Format.wordSize)
      have eight : 8 ∣ alignUp position Format.wordSize := dvd_alignUp ..
      have stored := (Memory.holds_append.mp slot).2
      rw [Nat.add_assoc, room] at stored
      have inside := stored.inside (by simp [Format.wordSize])
      have even : 2 ∣ (alignUp position Format.wordSize : Int)
          - (record + Format.Context.parent : Nat) := by omega
      have leads := IndirectableLink.leads_indirect linked even first second stored (by omega)
      have found : (⟨base.past (record + Format.Context.parent), offset ||| 1⟩ :
          IndirectableLink).slot = .ok (base.past (alignUp position Format.wordSize)) := by
        rw [IndirectableLink.slot, or_one_and_not_one (toInt_of_linkOffset linked ▸ even)]
        exact offset_of_linkOffset linked first inside
      have whole : 8 ∣ (base.past (alignUp position Format.wordSize)).bits.toNat := by
        rw [Address.toNat_past inside]
        exact Nat.dvd_add word eight
      rw [← Address.toNat_past inside] at stored
      have points := stored.readSlot whole
      rw [Address.ofBits?_eq_past second] at points
      cases leads with
      | present present target =>
          exact ⟨_, Context.parentLink_of_holds link (by omega), present, target,
            .indirect (isIndirect_or_one _ _) found (Address.isAligned_iff.mpr whole) points⟩

end Parents

/-! ## Finished images -/

/-- The parent link of a context decodes to the context at the symbol that was given. -/
structure Image.ParentDecodes (image : Image) (context : Context) (reference : ParentReference)
    (link : IndirectableLink) (goal : Address) : Prop where
  read : context.parentLink image.memory = .ok link
  present : link.isAbsent = false
  lands : image.context reference.context = .ok ⟨goal⟩
  target : link.target image.memory = .ok goal
  encoded : link.Encodes image.memory goal reference
  /-- Any direct link to the same symbol leads there too. -/
  as_direct : ∀ (anchor : Nat) (place : Address) (offset : Int32),
    place.bits.toNat = image.base.bits.toNat + anchor → anchor ≠ reference.context.offset →
    linkOffset anchor reference.context.offset = .ok offset →
    (⟨place, offset⟩ : DirectLink).target = .ok goal

/-- The links of an entry decode to what was encoded. -/
structure Image.LinksDecode (image : Image) (entry : Entry) : Prop where
  present : ∀ position, entry.HasLink position →
    image.memory.LinkPresent (image.base.bits.toNat + (entry.place + position))
  fields_present : ∀ definition ∈ entry.nominal?, definition.hasFieldDescriptor = true →
    ∃ link start,
      DirectLink.readAt image.memory (image.base.past entry.place) Format.Context.fields
        = .ok link ∧
      link.target = .ok start ∧
      ∀ inner, definition.HasFieldLink entry.superclassName? inner →
        image.memory.LinkPresent (start.bits.toNat + inner)
  parent : ∀ reference ∈ entry.reference?, ∃ link goal,
    image.ParentDecodes (entry.context image.base) reference link goal

/-- A link between two places decodes to the second wherever they lie, and is refused if they lie
    too far apart. In finished images no link is read as absent, and parent links lead to the
    contexts that were given, whether they are direct or not. -/
theorem Run.links_decode {image : UInt32} {entries : List Entry} {builder : Builder}
    (run : Run image entries builder) (base : Address)
    (aligned : base.isAligned Format.imageAlignment = true)
    (fits : base.bits.toNat + builder.bytes.length ≤ UInt64.size) :
    (∀ anchor target, 4 ∣ anchor → anchor ≠ target → LinkDecodes anchor target) ∧
      ∃ finished, builder.finish? base = some finished ∧ finished.id = image ∧
        finished.base = base ∧ ∀ entry ∈ entries, finished.LinksDecode entry := by
  refine ⟨fun anchor target multiple apart => linkDecodes multiple apart, ?_⟩
  obtain ⟨finished, found, _⟩ := run.finish? fits
  have standing := run.stands_finished fits found
  obtain ⟨rfl, rfl, presents⟩ := run.presents aligned fits found
  refine ⟨finished, found, rfl, rfl, fun entry member => ?_⟩
  have word : 16 ∣ finished.base.bits.toNat := Address.isAligned_iff.mp aligned
  obtain ⟨size, emission, final, stands⟩ := standing entry member
  obtain ⟨multiple, before⟩ := stands.parent_before
  constructor
  case present => exact stands.linksPresent (by omega)
  case fields_present =>
      intro definition known given
      obtain ⟨_, _, _, _, _, _, _, links⟩ := stands.links known
      exact (links.fields_present given (by omega)).2
  case parent =>
      intro reference known
      obtain ⟨attachment, position, links, link, slot⟩ := stands.parentLink known
      obtain ⟨read, parentLink, present, target, encoded⟩ :=
        links.decodes link slot (by omega) multiple (before reference known)
      have symbol : reference.context ∈ entry.parent? := by
        rw [Entry.parent?_eq, Option.mem_def.mp known]
        rfl
      obtain ⟨outer, earlier, same⟩ := (run.references entry member).1 _ symbol
      have lands := presents.context_eq run earlier
      have inside := presents.inside run _
        (mem_issuedSymbols.mpr ⟨outer, earlier, outer.contextSymbol_mem finished.id⟩)
      rw [← same] at lands inside
      have placed : outer.place = reference.context.offset := (congrArg Symbol.offset same).symm
      rw [Entry.context, placed] at lands
      refine ⟨read, _, parentLink, present, lands, target, encoded, ?_⟩
      intro anchor place offset start apart linked
      have first : finished.base.bits.toNat + anchor < UInt64.size := start ▸ place.bits.toNat_lt
      obtain rfl : place = finished.base.past anchor :=
        Address.ext_toNat (start.trans (Address.toNat_past first).symm)
      cases DirectLink.leads_of_linkOffset linked apart first inside with
      | present _ target => exact target

/-- The class in the program reaches the module through a slot, the subclass directly. -/
theorem Run.links_decode_zoo : Run 0 zooEntries.reverse zooResult.1 ∧
    (⟨0x10000, by decide⟩ : Address).isAligned Format.imageAlignment = true ∧
      0x10000 + zooResult.1.bytes.length ≤ UInt64.size ∧
      ∃ (finished : Image) (through direct : IndirectableLink) (zoo : Address),
        zooResult.1.finish? ⟨0x10000, by decide⟩ = some finished ∧
        finished.context ⟨0, 0, .context⟩ = .ok ⟨zoo⟩ ∧
        through.Encodes finished.memory zoo (.indirect ⟨0, 0, .context⟩) ∧
        direct.Encodes finished.memory zoo (.direct ⟨0, 0, .context⟩) ∧
        through.target finished.memory = direct.target finished.memory := by
  have aligned : (⟨0x10000, by decide⟩ : Address).isAligned Format.imageAlignment = true := by
    decide
  have fits : 0x10000 + zooResult.1.bytes.length ≤ UInt64.size := by decide +kernel
  obtain ⟨_, finished, found, _, _, decode⟩ :=
    run_zoo.links_decode ⟨0x10000, by decide⟩ aligned fits
  obtain ⟨animal, first, slot⟩ : ∃ entry ∈ zooEntries.reverse,
      entry.reference? = some (.indirect ⟨0, 0, .context⟩) := by decide +kernel
  obtain ⟨cat, second, plain⟩ : ∃ entry ∈ zooEntries.reverse,
      entry.reference? = some (.direct ⟨0, 0, .context⟩) := by decide +kernel
  obtain ⟨through, zoo, above⟩ := (decode animal first).parent _ slot
  obtain ⟨direct, other, beside⟩ := (decode cat second).parent _ plain
  obtain rfl : zoo = other := by
    have same := above.lands.symm.trans beside.lands
    simpa using same
  exact ⟨run_zoo, aligned, fits, finished, through, direct, zoo, found, above.lands, above.encoded,
    beside.encoded, above.target.trans beside.target.symm⟩

end TypeReflection
