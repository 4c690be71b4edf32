import TypeReflection.Context.Basic
import TypeReflection.Proofs.EncodedName
import TypeReflection.Proofs.Image.Emission
import TypeReflection.Proofs.Link

/-! # Reading emitted links

The bytes at both ends of an emitted link are enough to follow it. Strings and encoded names are
read up to where they end; a parent link leads to the enclosing context, through its slot if it has
one.
-/

namespace TypeReflection

/-- A name as it is read back: up to its first zero byte. -/
def readBack (name : String) : List UInt8 :=
  (utf8Bytes name).takeWhile (· ≠ 0)

variable {memory : Memory} {base : Address} {record position place : Nat}

namespace Memory.Holds

theorem recordLink {offset : Int32}
    (holds : memory.Holds (base.bits.toNat + (record + position)) (storedOffset offset))
    (aligned : 4 ∣ base.bits.toNat + (record + position)) :
    DirectLink.readAt memory (base.past record) position
      = .ok ⟨base.past (record + position), offset⟩ := by
  obtain ⟨same, moved⟩ := holds.past (by simp)
  rw [← moved]
  exact Holds.directLink (same ▸ holds) (same ▸ aligned)

theorem recordPointer {value : UInt64}
    (holds : memory.Holds (base.bits.toNat + (record + position)) (littleEndian 8 value.toNat))
    (aligned : 8 ∣ base.bits.toNat + (record + position)) :
    memory.readPointer (base.past record) position = .ok (Address.ofBits? value) := by
  have same := (holds.past (by simp)).1
  exact Holds.readPointer (same ▸ holds) (same ▸ aligned)

end Memory.Holds

namespace Context

/-- A link to an aligned place is one to a context. -/
theorem ofTarget_past {target : Nat} (inside : base.bits.toNat + target < UInt64.size)
    (aligned : 4 ∣ base.bits.toNat + target) :
    ofTarget (base.past target) = .ok ⟨base.past target⟩ := by
  refine if_pos (Address.isAligned_iff.mpr ?_)
  rw [Address.toNat_past inside]
  exact aligned

theorem parent_of_stored {context : Context} {offset : Int32}
    (link : memory.Holds (context.address.bits.toNat + Format.Context.parent)
      (storedOffset offset))
    (aligned : 4 ∣ context.address.bits.toNat) :
    context.parent memory
      = (⟨context.address.past Format.Context.parent, offset⟩ : IndirectableLink).get? memory
        ofTarget := by
  have inside := link.inside (by simp)
  have anchor : 4 ∣ (context.address.past Format.Context.parent).bits.toNat := by
    rw [Address.toNat_past inside]
    exact Nat.dvd_add aligned (by decide)
  rw [← Address.toNat_past inside] at link
  rw [parent, parentLink, Address.add_eq_past inside]
  exact congrArg (· >>= _) (link.indirectableLink anchor)

theorem parent_of_holds {offset : Int32}
    (link : memory.Holds (base.bits.toNat + (record + Format.Context.parent))
      (storedOffset offset))
    (aligned : 4 ∣ base.bits.toNat + record) :
    (⟨base.past record⟩ : Context).parent memory
      = (⟨base.past (record + Format.Context.parent), offset⟩ : IndirectableLink).get? memory
        ofTarget := by
  obtain ⟨same, moved⟩ := link.past (by simp)
  have inside := link.inside (by simp)
  have placed := Address.toNat_past (show base.bits.toNat + record < UInt64.size by omega)
  rw [← moved]
  exact parent_of_stored (same ▸ link) (placed ▸ aligned)

end Context

namespace Attachment

variable {attachment : Attachment}

section

variable (link : memory.Holds (base.bits.toNat + (record + position)) attachment.link)
  (bytes : memory.Holds (base.bits.toNat + place) attachment.bytes)
  (aligned : 4 ∣ base.bits.toNat + (record + position))

include link aligned

theorem absent_leads (given : attachment = absent) :
    ∃ found, DirectLink.readAt memory (base.past record) position = .ok found ∧
      found.Leads none := by
  subst given
  exact ⟨_, Memory.Holds.recordLink link aligned, .absent rfl⟩

include bytes

theorem string_leads {string : List UInt8} (apart : record + position < place)
    (given : ofString (record + position) place string = .ok attachment) :
    ∃ found, DirectLink.readAt memory (base.past record) position = .ok found ∧
      found.Leads (some (base.past place)) ∧
      memory.Holds (base.past place).bits.toNat (string ++ [0]) := by
  obtain ⟨offset, linked, rfl⟩ := ofString_eq_ok.mp given
  have first := link.inside (by simp)
  have second := bytes.inside (by simp)
  refine ⟨_, Memory.Holds.recordLink link aligned, ?_, ?_⟩
  · exact DirectLink.leads_of_linkOffset linked (Nat.ne_of_lt apart) first second
  · rw [Address.toNat_past second]
    exact bytes

theorem name_read {name : String} (apart : record + position < place)
    (given : ofString (record + position) place (utf8Bytes name) = .ok attachment) :
    ∃ found, DirectLink.readAt memory (base.past record) position = .ok found ∧
      found.get memory.cString = .ok (readBack name) ∧
      found.get? memory.cString = .ok (some (readBack name)) := by
  obtain ⟨found, read, leads, stored⟩ := string_leads link bytes aligned apart given
  refine ⟨found, read, ?_, ?_⟩
  · rw [leads.get, stored.cString, readBack]
  · rw [leads.get?, Option.mapM_some, stored.cString]
    rfl

theorem encodedName_read {name : Option (List UInt8)} (apart : record + position < place)
    (given : ofEncodedName (record + position) place name = .ok attachment) :
    ∃ found, DirectLink.readAt memory (base.past record) position = .ok found ∧
      found.get? (EncodedName.read memory)
        = .ok (name.map fun bytes => ⟨EncodedName.cut bytes⟩) := by
  rcases ofEncodedName_eq_ok.mp given with ⟨rfl, none⟩ | ⟨string, rfl, whole, given⟩
  · obtain ⟨found, read, leads⟩ := absent_leads link aligned none
    refine ⟨found, read, ?_⟩
    rw [leads.get?]
    rfl
  · obtain ⟨found, read, leads, stored⟩ := string_leads link bytes aligned apart given
    refine ⟨found, read, ?_⟩
    rw [leads.get?, Option.mapM_some, EncodedName.read_of_holds stored whole]
    rfl

end

/-! ## Parents -/

namespace LinksParent

variable {image : UInt32} {reference : Option ParentReference}

/-- The parent link of a record leads to the enclosing context, which stands in front of it. -/
theorem parent
    (links : LinksParent image (record + Format.Context.parent) place reference attachment)
    (link : memory.Holds (base.bits.toNat + (record + Format.Context.parent)) attachment.link)
    (slot : memory.Holds (base.bits.toNat + place) (filledParent base.bits place reference))
    (word : 8 ∣ base.bits.toNat) (aligned : 4 ∣ record)
    (front : ∀ found ∈ reference, 4 ∣ found.context.offset ∧ found.context.offset < record) :
    (⟨base.past record⟩ : Context).parent memory
      = .ok (reference.map fun found => ⟨base.past found.context.offset⟩) := by
  have first := link.inside (by rw [links.length_link]; decide)
  have four : 4 ∣ Format.Context.parent := by decide
  have views : ∀ target : Nat, 4 ∣ target → target < record →
      Context.ofTarget (base.past target) = .ok ⟨base.past target⟩ :=
    fun target multiple before => Context.ofTarget_past (by omega) (by omega)
  cases links with
  | none =>
      rw [Context.parent_of_holds link (by omega), (IndirectableLink.Leads.absent rfl).get?]
      rfl
  | @direct target offset linked =>
      obtain ⟨multiple, before⟩ : 4 ∣ target ∧ target < record := front _ rfl
      have leads := IndirectableLink.leads_direct linked (by omega) first (by omega) memory
        (by omega)
      rw [Context.parent_of_holds link (by omega), leads.get?, Option.mapM_some,
        views target multiple before]
      rfl
  | @indirect target offset linked =>
      obtain ⟨multiple, before⟩ : 4 ∣ target ∧ target < record := front _ rfl
      have room := add_length_padding place (by decide : 0 < Format.wordSize)
      have eight : 8 ∣ alignUp place Format.wordSize := dvd_alignUp ..
      have stored := (Memory.holds_append.mp slot).2
      rw [Nat.add_assoc, room] at stored
      have leads := IndirectableLink.leads_indirect linked (by omega) first
        (show base.bits.toNat + target < UInt64.size by omega) stored (by omega)
      rw [Context.parent_of_holds link (by omega), leads.get?, Option.mapM_some,
        views target multiple before]
      rfl

end LinksParent

end Attachment

end TypeReflection
