import TypeReflection.Context.Type
import TypeReflection.Proofs.Reflection.Field

/-! # Reading emitted contexts

Modules, extensions and types show their kind, their parent and their name; types also show their
field descriptor.
-/

namespace TypeReflection

variable {memory : Memory} {base : Address} {image : UInt32} {record : Nat}

/-- What is read of a context. -/
structure Context.Shows (context : Context) (memory : Memory) (kind : ContextKind)
    (parent : Option Context) (name : Option (List UInt8)) : Prop where
  check_eq : Context.check context.address = .ok context
  kind_eq : context.kind memory = .ok kind
  parent_eq : context.parent memory = .ok parent
  name_eq : context.name memory = .ok name

/-- What is read of the part that the descriptors of all types share. -/
structure TypeContext.Shows (type : TypeContext) (memory : Memory) (definition : NominalDefinition)
    (kind : FieldDescriptorKind) (superclassName : Option (List UInt8)) : Prop where
  name_eq : type.name memory = .ok (readBack definition.name)
  accessFunction_eq : type.accessFunction memory = .ok none
  fields_eq : (definition.hasFieldDescriptor = false ∧ type.checkFields memory = .ok none) ∨
    ∃ descriptor : FieldDescriptor, definition.hasFieldDescriptor = true ∧
      descriptor.Shows memory definition kind superclassName ∧
      type.checkFields memory = some <$> FieldDescriptor.check memory descriptor.address

/-- Emitted flags are decoded to the kind that they were made of. -/
def ContextKind.IsStored (kind : ContextKind) : Prop :=
  ContextFlags.kind ⟨(ContextFlags.ofKind kind).bits ||| ContextFlags.uniqueMask⟩ = kind

theorem Context.kind_of_holds {kind : ContextKind}
    (flags : memory.Holds (base.bits.toNat + (record + Format.Context.flags)) (emittedFlags kind))
    (aligned : 4 ∣ base.bits.toNat + record) (stored : kind.IsStored) :
    (⟨base.past record⟩ : Context).kind memory = .ok kind := by
  have number : memory.readU32 (base.past record) Format.Context.flags = .ok _ :=
    Memory.Holds.recordU32 flags aligned
  rw [UInt32.ofNat_toNat] at number
  rw [Context.kind, Context.flags, number, map_ok, map_ok, stored]

theorem Context.check_past (inside : base.bits.toNat + record < UInt64.size)
    (aligned : 4 ∣ base.bits.toNat + record) :
    Context.check (base.past record) = .ok ⟨base.past record⟩ := by
  refine if_pos (Address.isAligned_iff.mpr ?_)
  rw [Address.toNat_past inside]
  exact aligned

/-- The name of a context stands behind a link, if contexts of the kind have names. -/
theorem Context.name_of_read {context : Context} {kind : ContextKind} {link : DirectLink}
    {name : Option (List UInt8)} (known : context.kind memory = .ok kind)
    (named : kind.hasName = true) (read : context.nameLink memory = .ok link)
    (text : link.get? memory.cString = .ok name) : context.name memory = .ok name := by
  refine bind_eq_ok.mpr ⟨kind, known, ?_⟩
  rw [if_pos named]
  exact bind_eq_ok.mpr ⟨link, read, text⟩

theorem Context.shows_module {size : Nat} {name : String} {emission : Emission}
    (emitted : emitModule size name = .ok emission) (word : 8 ∣ base.bits.toNat)
    (holds : memory.Holds (base.bits.toNat + size) emission.bytes) :
    (⟨base.past (alignUp size Format.descriptorAlignment)⟩ : Context).Shows memory .module none
      (some (readBack name)) := by
  obtain ⟨offset, linked, rfl⟩ := emitModule_eq_ok emitted
  have four : 4 ∣ alignUp size Format.descriptorAlignment := dvd_alignUp ..
  have start := add_length_padding size (by decide : 0 < Format.descriptorAlignment)
  have placed : Format.Context.flags = 0 ∧ Format.Context.parent = 4 ∧ Format.Context.name = 8 ∧
      Format.Context.moduleSize = 12 := by decide
  have flagsLength : (emittedFlags .module).length = 4 := length_littleEndian ..
  have absentLength : Attachment.absent.link.length = 4 := length_storedOffset _
  simp only [Memory.holds_append, List.length_append, flagsLength, absentLength,
    length_storedOffset] at holds
  obtain ⟨⟨⟨⟨_, flags⟩, parent⟩, link⟩, text⟩ := holds
  have known : (⟨base.past (alignUp size Format.descriptorAlignment)⟩ : Context).kind memory
      = .ok .module :=
    Context.kind_of_holds (flags.of_eq (by omega)) (by omega) rfl
  have nowhere : Attachment.LinksParent 0
      (alignUp size Format.descriptorAlignment + Format.Context.parent) 0 none .absent := .none
  have attached : Attachment.ofString
      (alignUp size Format.descriptorAlignment + Format.Context.name)
      (alignUp size Format.descriptorAlignment + Format.Context.moduleSize) (utf8Bytes name)
        = .ok ⟨storedOffset offset, utf8Bytes name ++ [0], []⟩ :=
    Attachment.ofString_eq_ok.mpr ⟨offset, linked, rfl⟩
  have first := flags.inside (by simp [flagsLength])
  constructor
  case check_eq => exact Context.check_past (by omega) (by omega)
  case kind_eq => exact known
  case parent_eq =>
      exact nowhere.parent (parent.of_eq (by omega)) (Memory.holds_nil (by omega)) word four
        (by simp)
  case name_eq =>
      have link : memory.Holds (base.bits.toNat + (alignUp size Format.descriptorAlignment
          + Format.Context.name)) (storedOffset offset) := link.of_eq (by omega)
      have text := Memory.holds_append.mpr text
      obtain ⟨found, read, _, named⟩ := Attachment.name_read link (text.of_eq (by omega))
        (by omega) (by omega) attached
      exact Context.name_of_read known (by decide) read named

theorem Context.shows_extension {size : Nat} {parent : Symbol} {emission : Emission}
    (emitted : emitExtension image size parent = .ok emission) (word : 8 ∣ base.bits.toNat)
    (holds : memory.Holds (base.bits.toNat + size) emission.bytes)
    (multiple : 4 ∣ parent.offset) (front : parent.offset < size) :
    (⟨base.past (alignUp size Format.descriptorAlignment)⟩ : Context).Shows memory .extension
      (some ⟨base.past parent.offset⟩) none := by
  obtain ⟨target, offset, rfl, linked, rfl⟩ := emitExtension_eq_ok emitted
  have four : 4 ∣ alignUp size Format.descriptorAlignment := dvd_alignUp ..
  have start := add_length_padding size (by decide : 0 < Format.descriptorAlignment)
  have placed : Format.Context.flags = 0 ∧ Format.Context.parent = 4 := by decide
  have flagsLength : (emittedFlags .extension).length = 4 := length_littleEndian ..
  simp only [Memory.holds_append, List.length_append, flagsLength, length_storedOffset] at holds
  obtain ⟨⟨⟨_, flags⟩, link⟩, _⟩ := holds
  have known : (⟨base.past (alignUp size Format.descriptorAlignment)⟩ : Context).kind memory
      = .ok .extension :=
    Context.kind_of_holds (flags.of_eq (by omega)) (by omega) rfl
  have direct : Attachment.LinksParent image
      (alignUp size Format.descriptorAlignment + Format.Context.parent) 0
      (some (.direct ⟨image, target, .context⟩)) ⟨storedOffset offset, [], []⟩ := .direct linked
  have first := flags.inside (by simp [flagsLength])
  constructor
  case check_eq => exact Context.check_past (by omega) (by omega)
  case kind_eq => exact known
  case parent_eq =>
      refine direct.parent (link.of_eq (by omega)) (Memory.holds_nil (by omega)) word four ?_
      rintro _ ⟨rfl⟩
      exact ⟨multiple, by dsimp only [ParentReference.context] at front ⊢; omega⟩
  case name_eq =>
      exact bind_eq_ok.mpr ⟨_, known, rfl⟩

/-! ## Types -/

/-- The field descriptor is the one that the link leads to. -/
theorem TypeContext.checkFields_eq {type : TypeContext} {link : DirectLink}
    {target : Option Address}
    (read : DirectLink.readAt memory type.address Format.Context.fields = .ok link)
    (leads : link.Leads target) :
    type.checkFields memory = target.mapM (FieldDescriptor.check memory) := by
  have followed : link.get? .ok = .ok target := by
    rw [leads.get?]
    cases target <;> rfl
  rw [TypeContext.checkFields, read]
  change (liftM (link.get? .ok) >>= _ : Except Failure _) = _
  rw [followed]
  cases target <;> rfl

section

variable {kind : ContextKind} {definition : NominalDefinition} {fieldsKind : FieldDescriptorKind}
  {superclassName : Option (List UInt8)} {parent name fields : Attachment}
  {parentPlace namePlace fieldsPlace : Nat}
  (header : memory.Holds (base.bits.toNat + record) (emittedTypeHeader kind parent name fields))
  (parent_links : Attachment.LinksParent image (record + Format.Context.parent) parentPlace
    definition.parent parent)
  (name_eq : Attachment.ofString (record + Format.Context.name) namePlace
    (utf8Bytes definition.name) = .ok name)
  (fields_links : LinksFields definition fieldsKind superclassName
    (record + Format.Context.fields) fieldsPlace fields)
  (text : memory.Holds (base.bits.toNat + namePlace) name.bytes)
  (word : 8 ∣ base.bits.toNat) (aligned : 4 ∣ record)
  (named : record + Format.Context.typeSize ≤ namePlace)

include header parent_links name_eq

/-- The links of a type descriptor stand where the format says. -/
theorem holds_typeHeader :
    memory.Holds (base.bits.toNat + (record + Format.Context.flags)) (emittedFlags kind) ∧
      memory.Holds (base.bits.toNat + (record + Format.Context.parent)) parent.link ∧
      memory.Holds (base.bits.toNat + (record + Format.Context.name)) name.link ∧
      memory.Holds (base.bits.toNat + (record + Format.Context.accessFunction))
        Attachment.absent.link ∧
      memory.Holds (base.bits.toNat + (record + Format.Context.fields)) fields.link := by
  have flagsLength : (emittedFlags kind).length = 4 := length_littleEndian ..
  have absentLength : Attachment.absent.link.length = 4 := length_storedOffset _
  have parentLength := parent_links.length_link
  have nameLength := Attachment.length_link_of_ofString name_eq
  simp only [emittedTypeHeader, Memory.holds_append, List.length_append, flagsLength,
    absentLength, parentLength, nameLength] at header
  obtain ⟨⟨⟨⟨first, second⟩, third⟩, fourth⟩, fifth⟩ := header
  have placed : Format.Context.name = 8 ∧ Format.Context.accessFunction = 12 ∧
      Format.Context.fields = 16 := by decide
  exact ⟨first, second, third.of_eq (by omega), fourth.of_eq (by omega), fifth.of_eq (by omega)⟩

include text word aligned named

theorem Context.shows_type (stored : kind.IsStored) (isType : kind.isType = true)
    (slot : memory.Holds (base.bits.toNat + parentPlace)
      (Attachment.filledParent base.bits parentPlace definition.parent))
    (front : ∀ found ∈ definition.parent, 4 ∣ found.context.offset ∧
      found.context.offset < record) :
    (⟨base.past record⟩ : Context).Shows memory kind
      (definition.parent.map fun found => ⟨base.past found.context.offset⟩)
      (some (readBack definition.name)) := by
  obtain ⟨flags, parentLink, nameLink, _, _⟩ :=
    holds_typeHeader header parent_links name_eq
  have known := Context.kind_of_holds flags (by omega) stored
  have placed : Format.Context.name = 8 ∧ Format.Context.typeSize = 20 := by decide
  constructor
  case check_eq => exact Context.check_past (flags.inside (by simp [emittedFlags])) (by omega)
  case kind_eq => exact known
  case parent_eq => exact parent_links.parent parentLink slot word aligned front
  case name_eq =>
      obtain ⟨found, read, _, shown⟩ := Attachment.name_read nameLink text (by omega) (by omega)
        name_eq
      exact Context.name_of_read known (by simp [ContextKind.hasName, isType]) read shown

include fields_links in
theorem TypeContext.shows (stored : FieldDescriptorKind.ofRaw fieldsKind.raw = fieldsKind)
    (bytes : memory.Holds (base.bits.toNat + fieldsPlace) fields.bytes)
    (behind : record + Format.Context.typeSize ≤ fieldsPlace) :
    (⟨⟨base.past record⟩⟩ : TypeContext).Shows memory definition fieldsKind superclassName := by
  obtain ⟨_, _, nameLink, accessLink, fieldsLink⟩ :=
    holds_typeHeader header parent_links name_eq
  have placed : Format.Context.name = 8 ∧ Format.Context.accessFunction = 12 ∧
      Format.Context.fields = 16 ∧ Format.Context.typeSize = 20 := by decide
  constructor
  case name_eq =>
      obtain ⟨found, read, shown, _⟩ := Attachment.name_read nameLink text (by omega) (by omega)
        name_eq
      exact bind_eq_ok.mpr ⟨found, read, shown⟩
  case accessFunction_eq =>
      obtain ⟨found, read, leads⟩ := Attachment.absent_leads accessLink (by omega) rfl
      exact bind_eq_ok.mpr ⟨found, read, leads.get? _⟩
  case fields_eq =>
      obtain ⟨found, read, none | ⟨descriptor, present, shown, leads⟩⟩ :=
        fields_links.shows stored fieldsLink bytes (by omega) (by omega) (by omega)
      · have given : (⟨⟨base.past record⟩⟩ : TypeContext).checkFields memory = _ :=
          TypeContext.checkFields_eq read none.2
        exact .inl ⟨none.1, given⟩
      · have given : (⟨⟨base.past record⟩⟩ : TypeContext).checkFields memory = _ :=
          TypeContext.checkFields_eq read leads
        rw [Option.mapM_some] at given
        exact .inr ⟨descriptor, present, shown, given⟩

end

end TypeReflection
