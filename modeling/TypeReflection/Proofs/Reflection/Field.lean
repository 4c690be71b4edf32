import TypeReflection.Field.Cursor
import TypeReflection.Proofs.Reflection.Link

/-! # Reading emitted field descriptors

Every field of a definition is read back from its record, as long as the declared size of the
records is one that readers accept.
-/

namespace TypeReflection

variable {memory : Memory} {base : Address}

/-- What is read of a field. -/
def FieldDefinition.record (field : FieldDefinition) : FieldRecord where
  flags := field.flags
  typeName := field.typeName.map fun bytes => ⟨EncodedName.cut bytes⟩
  name := readBack field.name

/-- The parts of the record can be read where it stands. -/
structure FieldRecord.StandsAt (record : FieldRecord) (memory : Memory) (address : Address) :
    Prop where
  flags_eq : memory.readU32 address Format.FieldRecord.flags = .ok record.flags.bits
  typeName_eq : ∃ link, DirectLink.readAt memory address Format.FieldRecord.typeName = .ok link ∧
    link.get? (EncodedName.read memory) = .ok record.typeName
  name_eq : ∃ link, DirectLink.readAt memory address Format.FieldRecord.name = .ok link ∧
    link.get memory.cString = .ok record.name

namespace EmittedRecords

variable {stride record pool : Nat} {emitted : EmittedRecords}

theorem ofFields_cons_eq_ok {field : FieldDefinition} {fields : List FieldDefinition}
    (given : ofFields stride record pool (field :: fields) = .ok emitted) :
    ∃ typeName name rest,
      Attachment.ofEncodedName (record + Format.FieldRecord.typeName) pool field.typeName
        = .ok typeName ∧
      Attachment.ofString (record + Format.FieldRecord.name) (pool + typeName.bytes.length)
        (utf8Bytes field.name) = .ok name ∧
      ofFields stride (record + stride) (pool + typeName.bytes.length + name.bytes.length) fields
        = .ok rest ∧
      emitted = ⟨littleEndian 4 field.flags.bits.toNat ++ typeName.link ++ name.link
          ++ zeros (stride - Format.FieldRecord.size) ++ rest.records,
        typeName.bytes ++ name.bytes ++ rest.names⟩ := by
  obtain ⟨typeName, first, others⟩ := bind_eq_ok.mp given
  obtain ⟨name, second, others⟩ := bind_eq_ok.mp others
  obtain ⟨rest, third, same⟩ := bind_eq_ok.mp others
  exact ⟨typeName, name, rest, first, second, third, (pure_eq_ok.mp same).symm⟩

theorem length_records {fields : List FieldDefinition} (wide : Format.FieldRecord.size ≤ stride)
    (given : ofFields stride record pool fields = .ok emitted) :
    emitted.records.length = fields.length * stride := by
  induction fields generalizing record pool emitted with
  | nil =>
      cases given
      simp
  | cons field fields ih =>
      obtain ⟨typeName, name, rest, first, second, third, rfl⟩ := ofFields_cons_eq_ok given
      have rest := ih third
      simp only [Format.FieldRecord.size] at wide ⊢
      simp only [List.length_append, length_littleEndian, length_zeros, rest,
        Attachment.length_link_of_ofEncodedName first, Attachment.length_link_of_ofString second,
        List.length_cons, Nat.succ_mul]
      omega

/-- Each record stands where its number says. -/
theorem stand {fields : List FieldDefinition} (wide : Format.FieldRecord.size ≤ stride)
    (multiple : 4 ∣ stride) (aligned : 4 ∣ base.bits.toNat + record)
    (apart : record + fields.length * stride ≤ pool)
    (given : ofFields stride record pool fields = .ok emitted)
    (records : memory.Holds (base.bits.toNat + record) emitted.records)
    (names : memory.Holds (base.bits.toNat + pool) emitted.names) :
    ∀ index (inside : index < fields.length),
      fields[index].record.StandsAt memory (base.past (record + index * stride)) := by
  induction fields generalizing record pool emitted with
  | nil => exact fun index inside => absurd inside (Nat.not_lt_zero index)
  | cons field fields ih =>
      obtain ⟨typeName, name, rest, first, second, third, rfl⟩ := ofFields_cons_eq_ok given
      have typeLink := Attachment.length_link_of_ofEncodedName first
      have nameLink := Attachment.length_link_of_ofString second
      simp only [Memory.holds_append, List.length_append, length_littleEndian, length_zeros,
        typeLink, nameLink] at records names
      obtain ⟨⟨⟨⟨flags, types⟩, texts⟩, _⟩, others⟩ := records
      obtain ⟨⟨typeBytes, nameBytes⟩, otherNames⟩ := names
      rw [List.length_cons, Nat.succ_mul] at apart
      have size : Format.FieldRecord.size = 12 := rfl
      have placed : Format.FieldRecord.flags = 0 ∧ Format.FieldRecord.typeName = 4 ∧
          Format.FieldRecord.name = 8 := ⟨rfl, rfl, rfl⟩
      intro index inside
      -- the other records are those of an emission that starts one stride further on
      cases index with
      | zero =>
          rw [Nat.zero_mul]
          have texts : memory.Holds (base.bits.toNat + (record + Format.FieldRecord.name))
            name.link := texts.of_eq (by omega)
          constructor
          · have number : memory.readU32 (base.past record) Format.FieldRecord.flags = .ok _ :=
              Memory.Holds.recordU32 (flags.of_eq (by omega)) (by omega)
            simpa [FieldDefinition.record] using number
          · exact Attachment.encodedName_read (types.of_eq (by omega)) typeBytes (by omega)
              (by omega) first
          · obtain ⟨link, read, found, _⟩ := Attachment.name_read texts
              (nameBytes.of_eq (by omega)) (by omega) (by omega) second
            exact ⟨link, read, found⟩
      | succ index =>
          have next := ih (by omega) (by omega) third (others.of_eq (by omega))
            (otherNames.of_eq (by omega)) index (Nat.lt_of_succ_lt_succ inside)
          rw [Nat.succ_mul, Nat.add_comm (index * stride), ← Nat.add_assoc]
          exact next

end EmittedRecords

/-- What is read of the field descriptor of a definition. -/
structure FieldDescriptor.Shows (descriptor : FieldDescriptor) (memory : Memory)
    (definition : NominalDefinition) (kind : FieldDescriptorKind)
    (superclassName : Option (List UInt8)) : Prop where
  kind_eq : descriptor.kind memory = .ok kind
  typeName_eq : descriptor.typeName memory
    = .ok (definition.encodedName.map fun bytes => ⟨EncodedName.cut bytes⟩)
  superclass_eq : descriptor.superclass memory
    = .ok (superclassName.map fun bytes => ⟨EncodedName.cut bytes⟩)
  recordSize_eq : descriptor.recordSize memory = .ok definition.recordSize.toNat
  fieldCount_eq : descriptor.fieldCount memory = .ok (definition.fields.length % UInt32.size)
  check_eq : FieldDescriptor.check memory descriptor.address =
    if FieldDescriptor.isRecordSize definition.recordSize then .ok descriptor
    else .error (.rejected (.invalidFieldRecordSize descriptor.address.bits definition.recordSize))
  record_eq : FieldDescriptor.isRecordSize definition.recordSize = true →
    ∀ index (inside : index < definition.fields.length),
      descriptor.readRecord memory index = .ok definition.fields[index].record

theorem NominalDefinition.le_recordStride (definition : NominalDefinition) :
    Format.FieldRecord.size ≤ definition.recordStride :=
  Nat.le_max_right ..

/-- Readers that accept the declared size find the records as far apart as they were emitted. -/
theorem NominalDefinition.recordStride_eq {definition : NominalDefinition}
    (accepted : FieldDescriptor.isRecordSize definition.recordSize = true) :
    definition.recordStride = definition.recordSize.toNat ∧ 4 ∣ definition.recordStride := by
  simp only [FieldDescriptor.isRecordSize, Bool.and_eq_true, decide_eq_true_eq,
    beq_iff_eq] at accepted
  have same : definition.recordStride = definition.recordSize.toNat := Nat.max_eq_left accepted.1
  exact ⟨same, same ▸ Nat.dvd_of_mod_eq_zero accepted.2⟩

theorem FieldRecord.StandsAt.read {record : FieldRecord} {descriptor : FieldDescriptor}
    {address : Address} {size index : Nat} (stands : record.StandsAt memory address)
    (sized : descriptor.recordSize memory = .ok size)
    (moved : descriptor.address.add (.ofNat (Format.FieldDescriptor.headerSize + index * size))
      = .ok address) : descriptor.readRecord memory index = .ok record := by
  obtain ⟨types, typeLink, typeName⟩ := stands.typeName_eq
  obtain ⟨names, nameLink, name⟩ := stands.name_eq
  refine bind_eq_ok.mpr ⟨size, sized, bind_eq_ok.mpr ⟨address, moved, ?_⟩⟩
  refine bind_eq_ok.mpr ⟨_, stands.flags_eq, bind_eq_ok.mpr ⟨types, typeLink, ?_⟩⟩
  refine bind_eq_ok.mpr ⟨names, nameLink, bind_eq_ok.mpr ⟨_, typeName, ?_⟩⟩
  exact bind_eq_ok.mpr ⟨_, name, rfl⟩

theorem EmitsFields.shows {definition : NominalDefinition} {kind : FieldDescriptorKind}
    {superclassName : Option (List UInt8)} {position : Nat} {descriptor : List UInt8}
    {typeName superclass : Attachment} {fields : EmittedRecords}
    (emits : EmitsFields definition kind superclassName position descriptor typeName superclass
      fields)
    (known : FieldDescriptorKind.ofRaw kind.raw = kind)
    (holds : memory.Holds (base.bits.toNat + position) descriptor)
    (aligned : 4 ∣ base.bits.toNat + position) :
    (⟨base.past position⟩ : FieldDescriptor).Shows memory definition kind superclassName := by
  have typeLink := Attachment.length_link_of_ofEncodedName emits.type_eq
  have superclassLink := Attachment.length_link_of_ofEncodedName emits.superclass_eq
  have wide := definition.le_recordStride
  have length := EmittedRecords.length_records wide emits.fields_eq
  rw [emits.bytes_eq] at holds
  simp only [Memory.holds_append, List.length_append, length_littleEndian, typeLink,
    superclassLink, length] at holds
  obtain ⟨⟨⟨⟨⟨⟨⟨⟨type, parent⟩, kindWord⟩, size⟩, count⟩, records⟩, typeBytes⟩, parentBytes⟩,
    names⟩ := holds
  have pool : definition.pool position
      = position + 16 + definition.fields.length * definition.recordStride := rfl
  have placed : Format.FieldDescriptor.typeName = 0 ∧ Format.FieldDescriptor.superclass = 4 ∧
      Format.FieldDescriptor.kind = 8 ∧ Format.FieldDescriptor.recordSize = 10 ∧
      Format.FieldDescriptor.fieldCount = 12 ∧ Format.FieldDescriptor.headerSize = 16 := by
    decide
  have sized : memory.readU16 (base.past position) Format.FieldDescriptor.recordSize = .ok _ :=
    Memory.Holds.recordU16 (size.of_eq (by omega)) (by omega)
  have counted : memory.readU32 (base.past position) Format.FieldDescriptor.fieldCount = .ok _ :=
    Memory.Holds.recordU32 (count.of_eq (by omega)) (by omega)
  have kinded : memory.readU16 (base.past position) Format.FieldDescriptor.kind = .ok _ :=
    Memory.Holds.recordU16 (kindWord.of_eq (by omega)) (by omega)
  rw [UInt16.ofNat_toNat] at sized kinded
  constructor
  case kind_eq => rw [FieldDescriptor.kind, kinded, map_ok, known]
  case typeName_eq =>
      exact bind_eq_ok.mpr (Attachment.encodedName_read (type.of_eq (by omega))
        (typeBytes.of_eq (by omega)) (by omega) (by omega) emits.type_eq)
  case superclass_eq =>
      exact bind_eq_ok.mpr (Attachment.encodedName_read (parent.of_eq (by omega))
        (parentBytes.of_eq (by omega)) (by omega) (by omega) emits.superclass_eq)
  case recordSize_eq => rw [FieldDescriptor.recordSize, sized, map_ok]
  case fieldCount_eq => rw [FieldDescriptor.fieldCount, counted, map_ok, UInt32.toNat_ofNat']
  case check_eq =>
      have whole : (base.past position).isAligned Format.descriptorAlignment = true := by
        rw [Address.isAligned_iff, Address.toNat_past (type.inside (by simp [typeLink]))]
        exact aligned
      rw [FieldDescriptor.check, if_pos whole, sized]
      rfl
  case record_eq =>
      intro accepted index inside
      obtain ⟨same, multiple⟩ := NominalDefinition.recordStride_eq accepted
      have stored : memory.Holds
          (base.bits.toNat + (position + Format.FieldDescriptor.headerSize)) fields.records :=
        records.of_eq (by omega)
      have fits := stored.fits
      have before := Nat.mul_le_mul_right definition.recordStride (Nat.succ_le_of_lt inside)
      rw [Nat.succ_mul, ← length] at before
      have stands := EmittedRecords.stand wide multiple (by omega) (by omega) emits.fields_eq
        stored (names.of_eq (by omega)) index inside
      have first : Format.FieldRecord.size = 12 := rfl
      have start := Address.toNat_past (show base.bits.toNat + position < UInt64.size by omega)
      refine stands.read (by rw [FieldDescriptor.recordSize, sized, map_ok]) ?_
      rw [← same, Address.add_eq_past (by rw [start]; omega), Address.past_past (by omega),
        Nat.add_assoc]

/-- The link of a type descriptor leads to the field descriptor, if there is one. -/
theorem LinksFields.shows {definition : NominalDefinition} {kind : FieldDescriptorKind}
    {superclassName : Option (List UInt8)} {record position place : Nat} {attachment : Attachment}
    (links : LinksFields definition kind superclassName (record + position) place attachment)
    (known : FieldDescriptorKind.ofRaw kind.raw = kind)
    (link : memory.Holds (base.bits.toNat + (record + position)) attachment.link)
    (bytes : memory.Holds (base.bits.toNat + place) attachment.bytes)
    (word : 4 ∣ base.bits.toNat) (aligned : 4 ∣ record + position)
    (apart : record + position < place) :
    ∃ found, DirectLink.readAt memory (base.past record) position = .ok found ∧
      ((definition.hasFieldDescriptor = false ∧ found.Leads none) ∨
        ∃ descriptor : FieldDescriptor, definition.hasFieldDescriptor = true ∧
          descriptor.Shows memory definition kind superclassName ∧
          found.Leads (some descriptor.address)) := by
  have anchor : 4 ∣ base.bits.toNat + (record + position) := Nat.dvd_add word aligned
  cases links with
  | absent none =>
      obtain ⟨found, read, leads⟩ := Attachment.absent_leads link anchor rfl
      exact ⟨found, read, .inl ⟨none, leads⟩⟩
  | @present descriptor offset present emitted linked =>
      obtain ⟨typeName, superclass, records, emits⟩ :=
        NominalDefinition.emitFieldDescriptor_eq_ok emitted
      have room := add_length_padding place (by decide : 0 < Format.descriptorAlignment)
      have multiple : 4 ∣ alignUp place Format.descriptorAlignment := dvd_alignUp ..
      have behind := le_alignUp place (by decide : 0 < Format.descriptorAlignment)
      have stored := (Memory.holds_append.mp bytes).2
      rw [Nat.add_assoc, room] at stored
      have shows := emits.shows known stored (Nat.dvd_add word multiple)
      have nonempty : 0 < descriptor.length := by
        rw [emits.bytes_eq]
        simp only [List.length_append, length_littleEndian]
        omega
      have leads := DirectLink.leads_of_linkOffset linked (Nat.ne_of_lt (by omega))
        (link.inside (by simp)) (stored.inside nonempty)
      exact ⟨_, Memory.Holds.recordLink link anchor, .inr ⟨_, present, shows, leads⟩⟩

end TypeReflection
