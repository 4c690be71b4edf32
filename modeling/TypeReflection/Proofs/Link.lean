import TypeReflection.Link
import TypeReflection.Image.Emission.Basic
import TypeReflection.Proofs.Memory

/-! # Links between known places

An offset measured between two places leads from the one to the other, wherever both of them lie.
Stored directly it is read as a direct link, marked with its low bit as one through a slot.
-/

namespace TypeReflection

theorem toInt_of_linkOffset {anchor target : Nat} {offset : Int32}
    (linked : linkOffset anchor target = .ok offset) :
    offset.toInt = (target : Int) - anchor := by
  dsimp only [linkOffset] at linked
  split at linked
  case isTrue fits =>
      cases linked
      exact Int32.toInt_ofInt_of_le fits.1 fits.2
  case isFalse => cases linked

theorem not_isAbsentOffset_of_ne {offset : Int32} (present : offset ≠ 0) :
    isAbsentOffset offset = false :=
  beq_eq_false_iff_ne.mpr present

theorem not_isAbsentOffset {anchor target : Nat} {offset : Int32}
    (linked : linkOffset anchor target = .ok offset) (apart : anchor ≠ target) :
    isAbsentOffset offset = false := by
  have away := toInt_of_linkOffset linked
  refine not_isAbsentOffset_of_ne ?_
  rintro rfl
  rw [Int32.toInt_zero] at away
  omega

theorem offset_of_linkOffset {base : Address} {anchor target : Nat} {offset : Int32}
    (linked : linkOffset anchor target = .ok offset)
    (first : base.bits.toNat + anchor < UInt64.size)
    (second : base.bits.toNat + target < UInt64.size) :
    (base.past anchor).offset offset.toInt64 = .ok (base.past target) := by
  refine Address.offset_eq ?_
  rw [Int32.toInt_toInt64, toInt_of_linkOffset linked, Address.toNat_past first,
    Address.toNat_past second]
  omega

/-! ## The mark of indirect links -/

theorem getLsbD_zero_of_even {offset : Int32} (even : 2 ∣ offset.toInt) :
    offset.toBitVec.getLsbD 0 = false := by
  have value : offset.toInt = offset.toBitVec.toInt := rfl
  rw [value, BitVec.toInt_eq_toNat_cond] at even
  rw [BitVec.getLsbD, Nat.testBit_zero]
  split at even
  · simp; omega
  · simp; omega

theorem and_one_of_even {offset : Int32} (even : 2 ∣ offset.toInt) : offset &&& 1 = 0 := by
  have low := getLsbD_zero_of_even even
  refine Int32.toBitVec_inj.mp (BitVec.eq_of_getLsbD_eq fun index inside => ?_)
  by_cases first : index = 0
  · subst first
    simpa using low
  · simp [first]

theorem or_one_and_one (offset : Int32) : (offset ||| 1) &&& 1 = 1 := by
  refine Int32.toBitVec_inj.mp (BitVec.eq_of_getLsbD_eq fun index inside => ?_)
  by_cases first : index = 0
  · subst first
    simp
  · simp [first]

theorem or_one_and_not_one {offset : Int32} (even : 2 ∣ offset.toInt) :
    (offset ||| 1) &&& ~~~1 = offset := by
  have low := getLsbD_zero_of_even even
  refine Int32.toBitVec_inj.mp (BitVec.eq_of_getLsbD_eq fun index inside => ?_)
  have mask : (~~~1 : Int32).toBitVec = ~~~1#32 := rfl
  rw [Int32.toBitVec_and, Int32.toBitVec_or, mask]
  simp only [BitVec.getLsbD_and, BitVec.getLsbD_or, BitVec.getLsbD_not]
  by_cases first : index = 0
  · subst first
    simpa using low
  · simp [first, inside]

theorem ne_of_marked {offset : Int32} (marked : offset &&& 1 ≠ 0) : offset ≠ 0 := by
  rintro rfl
  exact marked rfl

theorem not_isAbsentOffset_or_one (offset : Int32) : isAbsentOffset (offset ||| 1) = false := by
  refine not_isAbsentOffset_of_ne (ne_of_marked ?_)
  rw [or_one_and_one]
  decide

/-! ## Reading links -/

namespace Memory.Holds

variable {memory : Memory} {anchor : Address} {offset : Int32}

theorem readOffset (holds : memory.Holds anchor.bits.toNat (storedOffset offset))
    (aligned : 4 ∣ anchor.bits.toNat) : memory.readOffset anchor = .ok offset := by
  have number : memory.read .i32 anchor = .ok _ := holds.read (length_storedOffset _) aligned
  rw [Memory.readOffset, number, map_ok, storedOffset, ofLittleEndian_littleEndian]
  have whole : UInt32.ofNat (offset.toUInt32.toNat % capacity 4) = offset.toUInt32 :=
    UInt32.toNat_inj.mp (by simp [capacity])
  rw [whole, Int32.toInt32_toUInt32]

theorem directLink {record : Address} {position : Nat}
    (holds : memory.Holds (record.bits.toNat + position) (storedOffset offset))
    (aligned : 4 ∣ record.bits.toNat + position) :
    DirectLink.readAt memory record position = .ok ⟨record.past position, offset⟩ := by
  have fits := holds.fits
  rw [length_storedOffset] at fits
  have inside : record.bits.toNat + position < UInt64.size := by omega
  rw [← Address.toNat_past inside] at holds aligned
  refine bind_eq_ok.mpr ⟨_, Address.add_eq_past inside, ?_⟩
  rw [DirectLink.read, holds.readOffset aligned, map_ok]

theorem indirectableLink {anchor : Address}
    (holds : memory.Holds anchor.bits.toNat (storedOffset offset))
    (aligned : 4 ∣ anchor.bits.toNat) :
    IndirectableLink.read memory anchor = .ok ⟨anchor, offset⟩ := by
  rw [IndirectableLink.read, holds.readOffset aligned, map_ok]

theorem readPointer {address : Address} {position : Nat} {value : UInt64}
    (holds : memory.Holds (address.bits.toNat + position) (littleEndian 8 value.toNat))
    (aligned : 8 ∣ address.bits.toNat + position) :
    memory.readPointer address position = .ok (Address.ofBits? value) := by
  rw [Memory.readPointer, holds.readWord aligned, map_ok, UInt64.ofNat_toNat]

/-- A slot is read where it stands. -/
theorem readSlot {slot : Address} {value : UInt64}
    (holds : memory.Holds slot.bits.toNat (littleEndian 8 value.toNat))
    (aligned : 8 ∣ slot.bits.toNat) :
    memory.readPointer slot 0 = .ok (Address.ofBits? value) := by
  refine holds.of_eq (Nat.add_zero _).symm |>.readPointer ?_
  rwa [Nat.add_zero]

end Memory.Holds

namespace IndirectableLink

variable {link : IndirectableLink} {memory : Memory} {slot : Address}

theorem target_of_unmarked (present : link.offset ≠ 0) (unmarked : link.offset &&& 1 = 0) :
    link.target memory = link.anchor.offset link.offset.toInt64 := by
  simp [target, isAbsent, isIndirect, not_isAbsentOffset_of_ne present, unmarked]

theorem target_of_slot_error {fault : Fault} (marked : link.offset &&& 1 ≠ 0)
    (stopped : link.slot = .error fault) : link.target memory = .error fault := by
  rw [target, isAbsent, not_isAbsentOffset_of_ne (ne_of_marked marked), isIndirect,
    bne_iff_ne.mpr marked, stopped]
  rfl

theorem target_of_misaligned_slot (marked : link.offset &&& 1 ≠ 0) (found : link.slot = .ok slot)
    (misaligned : ¬8 ∣ slot.bits.toNat) : link.target memory = .error (.misalignedSlot slot) := by
  have unplaced : ¬slot.isAligned Format.wordSize = true :=
    fun whole => misaligned (Address.isAligned_iff.mp whole)
  rw [target, isAbsent, not_isAbsentOffset_of_ne (ne_of_marked marked), isIndirect,
    bne_iff_ne.mpr marked, found]
  exact if_neg unplaced

theorem target_of_slot {pointer : Option Address} (marked : link.offset &&& 1 ≠ 0)
    (found : link.slot = .ok slot) (aligned : 8 ∣ slot.bits.toNat)
    (read : memory.readPointer slot 0 = .ok pointer) :
    link.target memory = pointer.elim (.error (.nullSlot slot)) .ok := by
  have placed : slot.isAligned Format.wordSize = true := Address.isAligned_iff.mpr aligned
  rw [target, isAbsent, not_isAbsentOffset_of_ne (ne_of_marked marked), isIndirect,
    bne_iff_ne.mpr marked, found]
  refine (if_pos placed).trans ?_
  rw [read]
  cases pointer <;> rfl

end IndirectableLink

/-- The direct link leads to `target`, or nowhere. -/
inductive DirectLink.Leads (link : DirectLink) : (target : Option Address) → Prop where
  | absent : link.isAbsent = true → Leads link none
  | present {target : Address} : link.isAbsent = false → link.target = .ok target →
      Leads link (some target)

namespace DirectLink.Leads

variable {α : Type} {link : DirectLink}

theorem get? {target : Option Address} (leads : link.Leads target)
    (view : Address → Except Fault α) : link.get? view = target.mapM view := by
  cases leads with
  | absent absent =>
      rw [DirectLink.get?, if_pos absent]
      rfl
  | present present leads =>
      rw [DirectLink.get?, present, DirectLink.get, leads]
      rfl

theorem get {target : Address} (leads : link.Leads (some target))
    (view : Address → Except Fault α) : link.get view = view target := by
  cases leads with
  | present _ leads =>
      rw [DirectLink.get, leads]
      rfl

end DirectLink.Leads

/-- The link, which may be indirect, leads to `target`, or nowhere. -/
inductive IndirectableLink.Leads (link : IndirectableLink) (memory : Memory) :
    (target : Option Address) → Prop where
  | absent : link.isAbsent = true → Leads link memory none
  | present {target : Address} : link.isAbsent = false → link.target memory = .ok target →
      Leads link memory (some target)

theorem IndirectableLink.Leads.get? {α : Type} {link : IndirectableLink} {memory : Memory}
    {target : Option Address} (leads : link.Leads memory target)
    (view : Address → Except Fault α) : link.get? memory view = target.mapM view := by
  cases leads with
  | absent absent =>
      rw [IndirectableLink.get?, if_pos absent]
      rfl
  | present present leads =>
      rw [IndirectableLink.get?, present, IndirectableLink.get, leads]
      rfl

section

variable {base : Address} {anchor target : Nat} {offset : Int32}

section

variable (linked : linkOffset anchor target = .ok offset) (apart : anchor ≠ target)
  (first : base.bits.toNat + anchor < UInt64.size)
  (second : base.bits.toNat + target < UInt64.size)

include linked apart first second

theorem DirectLink.leads_of_linkOffset :
    (⟨base.past anchor, offset⟩ : DirectLink).Leads (some (base.past target)) := by
  have present : (⟨base.past anchor, offset⟩ : DirectLink).isAbsent = false :=
    not_isAbsentOffset linked apart
  refine .present present ?_
  rw [DirectLink.target, present]
  exact offset_of_linkOffset linked first second

/-- Between places that are a multiple of two apart, the low bit of a direct link is not set. -/
theorem IndirectableLink.leads_direct (memory : Memory) (even : 2 ∣ (target : Int) - anchor) :
    (⟨base.past anchor, offset⟩ : IndirectableLink).Leads memory (some (base.past target)) := by
  have present : (⟨base.past anchor, offset⟩ : IndirectableLink).isAbsent = false :=
    not_isAbsentOffset linked apart
  rw [← toInt_of_linkOffset linked] at even
  refine .present present ?_
  rw [target_of_unmarked (ne_of_beq_false present) (and_one_of_even even)]
  exact offset_of_linkOffset linked first second

end

/-- A link that is marked as indirect leads where its slot points. -/
theorem IndirectableLink.leads_indirect {memory : Memory} {slot : Nat}
    (linked : linkOffset anchor slot = .ok offset) (even : 2 ∣ (slot : Int) - anchor)
    (first : base.bits.toNat + anchor < UInt64.size)
    (second : base.bits.toNat + target < UInt64.size)
    (holds : memory.Holds (base.bits.toNat + slot)
      (littleEndian 8 (base.bits + .ofNat target).toNat))
    (aligned : 8 ∣ base.bits.toNat + slot) :
    (⟨base.past anchor, offset ||| 1⟩ : IndirectableLink).Leads memory
      (some (base.past target)) := by
  have fits := holds.fits
  rw [length_littleEndian] at fits
  have inside : base.bits.toNat + slot < UInt64.size := by omega
  rw [← toInt_of_linkOffset linked] at even
  have present : (⟨base.past anchor, offset ||| 1⟩ : IndirectableLink).isAbsent = false :=
    not_isAbsentOffset_or_one offset
  have marked : (offset ||| 1) &&& 1 ≠ 0 := by
    rw [or_one_and_one]
    decide
  have leads : (⟨base.past anchor, offset ||| 1⟩ : IndirectableLink).slot
      = .ok (base.past slot) := by
    rw [IndirectableLink.slot, or_one_and_not_one even]
    exact offset_of_linkOffset linked first inside
  rw [← Address.toNat_past inside] at holds aligned
  have pointer : memory.readPointer (base.past slot) 0 = .ok (some (base.past target)) := by
    rw [holds.readSlot aligned, Address.ofBits?_eq_past second]
  exact .present present (target_of_slot marked leads aligned pointer)

end

end TypeReflection
