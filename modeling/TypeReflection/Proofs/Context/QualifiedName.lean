import Mathlib.Data.List.TakeWhile
import TypeReflection.Proofs.Metadata.Acceptance
import TypeReflection.Proofs.Reflection.Link
import TypeReflection.Proofs.Traversal

/-! # Qualified names

The bytes of the contexts on a chain decide what the qualified name of its first one is: the names
that are stored and present, outermost first. Where a link of the chain is broken there is none.
-/

namespace TypeReflection

/-- Adding an offset to an address gave null. -/
def Fault.IsWrap : Fault → Prop
  | .wrappedToNull _ _ => True
  | _ => False

namespace Context

/-! ## What is stored -/

/-- The offset at a position of the header. -/
def Stores (memory : Memory) (context : Context) (position : Nat) (offset : Int32) : Prop :=
  memory.Holds (context.address.bits.toNat + position) (storedOffset offset)

instance (memory : Memory) (context : Context) (position : Nat) (offset : Int32) :
    Decidable (context.Stores memory position offset) :=
  inferInstanceAs (Decidable (Memory.Holds ..))

/-- Where an offset leads that is stored at a position of the header, modulo 2^64. -/
def reach (context : Context) (position : Nat) (offset : Int32) : UInt64 :=
  context.address.bits + .ofNat position + offset.toInt64.toUInt64

/-- The parent link leads to the target: directly, or with its low bit set through an aligned slot
    that holds the address. -/
inductive LinksTo (memory : Memory) (inner : Context) (target : Address) : Prop where
  | direct {offset : Int32} (stored : inner.Stores memory Format.Context.parent offset)
      (present : offset ≠ 0) (unmarked : offset &&& 1 = 0)
      (placed : target.bits = inner.reach Format.Context.parent offset)
  | slot {offset : Int32} {slot : Address}
      (stored : inner.Stores memory Format.Context.parent offset) (marked : offset &&& 1 ≠ 0)
      (placed : slot.bits = inner.reach Format.Context.parent (offset &&& ~~~1))
      (aligned : 8 ∣ slot.bits.toNat)
      (holds : memory.Holds slot.bits.toNat (littleEndian 8 target.bits.toNat))

/-- The contexts from one outwards, up to another that is not among them. -/
inductive Within (memory : Memory) : Context → List Context → Context → Prop where
  | here {context : Context} : Within memory context [] context
  | step {inner outer last : Context} {before : List Context}
      (linked : inner.LinksTo memory outer.address) (aligned : 4 ∣ outer.address.bits.toNat)
      (within : Within memory outer before last) : Within memory inner (inner :: before) last

/-- The parent link is present and leads to no context. -/
inductive Breaks (memory : Memory) (inner : Context) : Fault → Prop where
  | null {offset : Int32} (stored : inner.Stores memory Format.Context.parent offset)
      (present : offset ≠ 0) (unmarked : offset &&& 1 = 0)
      (wraps : inner.reach Format.Context.parent offset = 0) :
      Breaks memory inner
        (.wrappedToNull (inner.address.past Format.Context.parent) offset.toInt64)
  | slotAtNull {offset : Int32} (stored : inner.Stores memory Format.Context.parent offset)
      (marked : offset &&& 1 ≠ 0)
      (wraps : inner.reach Format.Context.parent (offset &&& ~~~1) = 0) :
      Breaks memory inner
        (.wrappedToNull (inner.address.past Format.Context.parent) (offset &&& ~~~1).toInt64)
  | misalignedSlot {offset : Int32} {slot : Address}
      (stored : inner.Stores memory Format.Context.parent offset) (marked : offset &&& 1 ≠ 0)
      (placed : slot.bits = inner.reach Format.Context.parent (offset &&& ~~~1))
      (misaligned : ¬8 ∣ slot.bits.toNat) : Breaks memory inner (.misalignedSlot slot)
  | nullSlot {offset : Int32} {slot : Address}
      (stored : inner.Stores memory Format.Context.parent offset) (marked : offset &&& 1 ≠ 0)
      (placed : slot.bits = inner.reach Format.Context.parent (offset &&& ~~~1))
      (aligned : 8 ∣ slot.bits.toNat)
      (holds : memory.Holds slot.bits.toNat (littleEndian 8 0)) :
      Breaks memory inner (.nullSlot slot)
  | misaligned {target : Address} (linked : inner.LinksTo memory target)
      (misaligned : ¬4 ∣ target.bits.toNat) : Breaks memory inner (.misalignedContext target)

/-- The kind is one of those that store a name: modules, protocols and nominal types. -/
def StoresName (memory : Memory) (context : Context) : Prop :=
  let raw := memory.contextKindAt context.address.bits.toNat
  raw = 0 ∨ raw = 3 ∨ 16 ≤ raw ∧ raw ≤ 31

instance (memory : Memory) (context : Context) : Decidable (context.StoresName memory) :=
  inferInstanceAs (Decidable (_ ∨ _))

/-- The flags are stored, and where the kind calls for it a link to the name, which leads to a whole
    string unless it is absent or leads to null. -/
structure Legible (memory : Memory) (context : Context) : Prop where
  flags : memory.Maps context.address.bits.toNat 4
  name : context.StoresName memory →
    ∃ offset, context.Stores memory Format.Context.name offset ∧
      (offset ≠ 0 → ∀ place : Address, place.bits = context.reach Format.Context.name offset →
        ∃ name, 0 ∉ name ∧ memory.Holds place.bits.toNat (name ++ [0]))

/-- The name that the context adds to the qualified name, if it adds one. -/
inductive Named (memory : Memory) (context : Context) : Option (List UInt8) → Prop where
  | other (kind : ¬context.StoresName memory) : Named memory context none
  | absent (kind : context.StoresName memory)
      (stored : context.Stores memory Format.Context.name 0) : Named memory context none
  | present {offset : Int32} {place : Address} {name : List UInt8}
      (kind : context.StoresName memory)
      (stored : context.Stores memory Format.Context.name offset) (present : offset ≠ 0)
      (placed : place.bits = context.reach Format.Context.name offset) (whole : 0 ∉ name)
      (holds : memory.Holds place.bits.toNat (name ++ [0])) : Named memory context (some name)

/-- The link to the name is present and leads to null. -/
structure NameWraps (memory : Memory) (context : Context) : Prop where
  kind : context.StoresName memory
  link : ∃ offset, context.Stores memory Format.Context.name offset ∧ offset ≠ 0 ∧
    context.reach Format.Context.name offset = 0

variable {memory : Memory} {context inner outer last : Context} {before : List Context}
  {position : Nat} {offset : Int32} {fault : Fault}

/-! ## Links of a header -/

theorem Stores.bits_past (stored : context.Stores memory position offset) :
    (context.address.past position).bits = context.address.bits + .ofNat position :=
  Address.bits_of_ofBits? (Address.ofBits?_eq_past (Memory.Holds.inside stored (by simp)))

theorem Stores.offset_of_reach {reached : Int32} {target : Address}
    (stored : context.Stores memory position offset)
    (placed : target.bits = context.reach position reached) :
    (context.address.past position).offset reached.toInt64 = .ok target := by
  apply Address.offset_of_bits
  rw [placed, reach, stored.bits_past]

theorem Stores.slot {slot : Address} (stored : context.Stores memory position offset)
    (placed : slot.bits = context.reach position (offset &&& ~~~1)) :
    (⟨context.address.past position, offset⟩ : IndirectableLink).slot = .ok slot :=
  stored.offset_of_reach placed

theorem Stores.offset_of_null {reached : Int32} (stored : context.Stores memory position offset)
    (wraps : context.reach position reached = 0) :
    (context.address.past position).offset reached.toInt64
      = .error (.wrappedToNull (context.address.past position) reached.toInt64) := by
  apply Address.offset_of_null
  rw [stored.bits_past]
  exact wraps

theorem parent_of_absent (stored : inner.Stores memory Format.Context.parent 0)
    (aligned : 4 ∣ inner.address.bits.toNat) : inner.parent memory = .ok none := by
  rw [parent_of_stored stored aligned]
  rfl

theorem parent_of_target_error (stored : inner.Stores memory Format.Context.parent offset)
    (present : offset ≠ 0) (aligned : 4 ∣ inner.address.bits.toNat)
    (stopped : (⟨inner.address.past Format.Context.parent, offset⟩ : IndirectableLink).target
      memory = .error fault) : inner.parent memory = .error fault := by
  rw [parent_of_stored stored aligned, IndirectableLink.get?, IndirectableLink.isAbsent,
    not_isAbsentOffset_of_ne present, IndirectableLink.get, stopped]
  rfl

theorem LinksTo.leads {target : Address} (linked : inner.LinksTo memory target) :
    ∃ offset, inner.Stores memory Format.Context.parent offset ∧
      (⟨inner.address.past Format.Context.parent, offset⟩ : IndirectableLink).Leads memory
        (some target) := by
  cases linked with
  | @direct offset stored present unmarked placed =>
      refine ⟨offset, stored, .present (not_isAbsentOffset_of_ne present) ?_⟩
      rw [IndirectableLink.target_of_unmarked present unmarked]
      exact stored.offset_of_reach placed
  | @slot offset slot stored marked placed aligned holds =>
      have pointer : memory.readPointer slot 0 = .ok (some target) := by
        rw [holds.readSlot aligned, Address.ofBits?_bits]
      refine ⟨offset, stored, .present (not_isAbsentOffset_of_ne (ne_of_marked marked)) ?_⟩
      exact IndirectableLink.target_of_slot marked (stored.slot placed) aligned pointer

theorem parent_of_linksTo {target : Address} (linked : inner.LinksTo memory target)
    (aligned : 4 ∣ inner.address.bits.toNat) :
    inner.parent memory = some <$> ofTarget target := by
  obtain ⟨offset, stored, leads⟩ := linked.leads
  rw [parent_of_stored stored aligned, leads.get?]
  rfl

theorem Breaks.parent (breaks : inner.Breaks memory fault)
    (aligned : 4 ∣ inner.address.bits.toNat) : inner.parent memory = .error fault := by
  cases breaks with
  | null stored present unmarked wraps =>
      refine parent_of_target_error stored present aligned ?_
      rw [IndirectableLink.target_of_unmarked present unmarked]
      exact stored.offset_of_null wraps
  | slotAtNull stored marked wraps =>
      refine parent_of_target_error stored (ne_of_marked marked) aligned ?_
      exact IndirectableLink.target_of_slot_error marked (stored.offset_of_null wraps)
  | misalignedSlot stored marked placed misaligned =>
      refine parent_of_target_error stored (ne_of_marked marked) aligned ?_
      exact IndirectableLink.target_of_misaligned_slot marked (stored.slot placed) misaligned
  | @nullSlot offset slot stored marked placed slotAligned holds =>
      have null : (0 : UInt64).toNat = 0 := rfl
      rw [← null] at holds
      have pointer : memory.readPointer slot 0 = .ok none := holds.readSlot slotAligned
      refine parent_of_target_error stored (ne_of_marked marked) aligned ?_
      exact IndirectableLink.target_of_slot marked (stored.slot placed) slotAligned pointer
  | @misaligned target linked misaligned =>
      have unplaced : ¬target.isAligned Format.descriptorAlignment = true :=
        fun whole => misaligned (Address.isAligned_iff.mp whole)
      rw [parent_of_linksTo linked aligned, ofTarget, if_neg unplaced]
      rfl

/-! ## Chains -/

theorem Within.path (within : context.Within memory before last)
    (aligned : 4 ∣ context.address.bits.toNat) :
    Walk.Path (fun inner => inner.parent memory) context before last := by
  induction within with
  | here => exact .here
  | @step inner outer last before linked outerAligned within ih =>
      have whole : outer.address.isAligned Format.descriptorAlignment = true :=
        Address.isAligned_iff.mpr outerAligned
      refine .step ?_ (ih outerAligned)
      rw [parent_of_linksTo linked aligned, ofTarget, if_pos whole, map_ok]

theorem Within.aligned {member : Context} (within : context.Within memory before last)
    (aligned : 4 ∣ context.address.bits.toNat) (among : member ∈ before ++ [last]) :
    4 ∣ member.address.bits.toNat := by
  induction within with
  | here =>
      obtain rfl := List.mem_singleton.mp among
      exact aligned
  | step linked outerAligned within ih =>
      rcases List.mem_cons.mp among with rfl | later
      · exact aligned
      · exact ih outerAligned later

/-- There are no more contexts on a chain than there are addresses. -/
theorem length_lt (path : Walk.Path (fun inner => inner.parent memory) context before last)
    (stops : Walk.Stops (fun inner => inner.parent memory) last) :
    before.length < UInt64.size := by
  refine path.length_lt stops (fun inner => inner.address.bits.toNat_lt) ?_
  intro one other same
  obtain ⟨address⟩ := one
  obtain ⟨address'⟩ := other
  exact congrArg Context.mk (Address.ext_toNat same)

/-! ## Names -/

theorem hasName_ofRaw :
    ∀ raw < 32, (ContextKind.ofRaw (.ofNat raw)).hasName = true
      ↔ raw = 0 ∨ raw = 3 ∨ 16 ≤ raw ∧ raw ≤ 31 := by
  decide

theorem hasName_iff :
    (ContextKind.ofRaw (.ofNat (memory.contextKindAt context.address.bits.toNat))).hasName = true
      ↔ context.StoresName memory :=
  hasName_ofRaw _ (Nat.mod_lt _ (by decide))

section

variable (flags : memory.Maps context.address.bits.toNat 4)
  (aligned : 4 ∣ context.address.bits.toNat)

include flags aligned

theorem name_of_other (kind : ¬context.StoresName memory) : context.name memory = .ok none := by
  rw [name, bind_of_ok (Context.kind_eq flags aligned), if_neg fun has => kind (hasName_iff.mp has)]
  rfl

theorem name_of_stored (kind : context.StoresName memory)
    (stored : context.Stores memory Format.Context.name offset) :
    context.name memory
      = (⟨context.address.past Format.Context.name, offset⟩ : DirectLink).get?
        memory.cString := by
  have placed : 4 ∣ context.address.bits.toNat + Format.Context.name :=
    Nat.dvd_add aligned (by decide)
  rw [name, bind_of_ok (Context.kind_eq flags aligned), if_pos (hasName_iff.mpr kind), nameLink,
    bind_of_ok (Memory.Holds.directLink stored placed)]

theorem Named.name {found : Option (List UInt8)} (named : context.Named memory found) :
    context.name memory = .ok found := by
  cases named with
  | other kind => exact name_of_other flags aligned kind
  | absent kind stored =>
      rw [name_of_stored flags aligned kind stored]
      rfl
  | @present offset place name kind stored present placed whole holds =>
      have leads : (⟨context.address.past Format.Context.name, offset⟩ : DirectLink).Leads
          (some place) := by
        refine .present (not_isAbsentOffset_of_ne present) ?_
        rw [DirectLink.target, DirectLink.isAbsent, not_isAbsentOffset_of_ne present]
        exact stored.offset_of_reach placed
      have uncut : name.takeWhile (· ≠ 0) = name := by
        rw [List.takeWhile_eq_self_iff]
        intro byte member
        simpa using ne_of_mem_of_not_mem member whole
      rw [name_of_stored flags aligned kind stored, leads.get?, Option.mapM_some, holds.cString,
        uncut]
      rfl

theorem NameWraps.name (wraps : context.NameWraps memory) :
    ∃ fault, fault.IsWrap ∧ context.name memory = .error fault := by
  obtain ⟨offset, stored, present, null⟩ := wraps.link
  have stopped := stored.offset_of_null null
  refine ⟨.wrappedToNull (context.address.past Format.Context.name) offset.toInt64, trivial, ?_⟩
  rw [name_of_stored flags aligned wraps.kind stored, DirectLink.get?, DirectLink.isAbsent,
    not_isAbsentOffset_of_ne present, DirectLink.get, DirectLink.target, DirectLink.isAbsent,
    not_isAbsentOffset_of_ne present, stopped]
  rfl

end

/-- A legible context adds a name, adds none, or its link to the name leads to null. -/
theorem Legible.named_or_wraps (legible : context.Legible memory) :
    (∃ found, context.Named memory found) ∨ context.NameWraps memory := by
  by_cases kind : context.StoresName memory
  · obtain ⟨offset, stored, whole⟩ := legible.name kind
    by_cases present : offset = 0
    · subst present
      exact .inl ⟨none, .absent kind stored⟩
    · by_cases null : context.reach Format.Context.name offset = 0
      · exact .inr ⟨kind, offset, stored, present, null⟩
      · obtain ⟨name, unbroken, holds⟩ := whole present ⟨_, null⟩ rfl
        exact .inl ⟨some name, .present kind stored present rfl unbroken holds⟩
  · exact .inl ⟨none, .other kind⟩

/-! ## Qualified names -/

/-- The names that are present, outermost first and joined by dots. -/
def dotted (names : List (Option (List UInt8))) : String :=
  ".".intercalate (names.reverse.filterMap (·.map utf8Lossy))

/-- The qualified name is made of the names on the chain that are present, and there is none exactly
    where the link to a name leads to null. -/
structure Spelled (memory : Memory) (context : Context) (chain : List Context) : Prop where
  stops : (∃ fault, context.qualifiedName memory = .error fault)
    ↔ ∃ member ∈ chain, member.NameWraps memory
  wraps : ∀ fault, context.qualifiedName memory = .error fault → fault.IsWrap
  named : (¬∃ member ∈ chain, member.NameWraps memory) →
    ∃ names, List.Forall₂ (fun member name => member.Named memory name) chain names ∧
      context.qualifiedName memory = .ok (dotted names)

/-- There is no qualified name, for the fault behind the contexts in front or for the link to one of
    their names. -/
structure Stuck (memory : Memory) (context : Context) (before : List Context) (fault : Fault) :
    Prop where
  stops : ∃ stop, context.qualifiedName memory = .error stop
  located : (∀ member ∈ before, member.Legible memory) →
    ∀ stop, context.qualifiedName memory = .error stop → stop = fault ∨ stop.IsWrap

theorem dotted_eq (names : List (Option (List UInt8))) :
    ".".intercalate ((names.filterMap id).reverse.map utf8Lossy) = dotted names := by
  rw [dotted, List.filterMap_reverse, List.map_reverse, List.map_filterMap]
  rfl

section

variable (path : Walk.Path (fun inner => inner.parent memory) context before last)

include path

theorem qualifiedName_of_end (ends : last.parent memory = .ok none) :
    context.qualifiedName memory
      = (before ++ [last]).mapM (fun member => member.name memory) >>= fun names =>
        .ok (dotted names) := by
  have enough := length_lt path (Walk.stops_of_end ends)
  rw [qualifiedName, namesOutward, path.wholeResult_of_end ends enough]
  simp only [dotted_eq]
  rfl

theorem qualifiedName_of_break (breaks : last.parent memory = .error fault) :
    context.qualifiedName memory
      = before.mapM (fun member => member.name memory) >>= fun _ => .error fault := by
  have enough := length_lt path (Walk.stops_of_break breaks)
  rw [qualifiedName, namesOutward, path.wholeResult_of_break breaks enough]
  cases before.mapM fun member => member.name memory <;> rfl

end

section

variable {chain : List Context}
  (aligned : ∀ member ∈ chain, 4 ∣ member.address.bits.toNat)
  (legible : ∀ member ∈ chain, member.Legible memory)

include aligned legible

/-- Reading the names of legible contexts stops at a link that leads to null only. -/
theorem nameWraps_of_error
    (stopped : chain.mapM (fun member => member.name memory) = .error fault) :
    (∃ member ∈ chain, member.NameWraps memory) ∧ fault.IsWrap := by
  obtain ⟨member, among, failed⟩ := exists_error_of_mapM stopped
  have flags := (legible member among).flags
  rcases (legible member among).named_or_wraps with ⟨found, named⟩ | wraps
  · rw [named.name flags (aligned member among)] at failed
    cases failed
  · obtain ⟨found, isWrap, given⟩ := wraps.name flags (aligned member among)
    cases given.symm.trans failed
    exact ⟨⟨member, among, wraps⟩, isWrap⟩

theorem exists_names (none : ¬∃ member ∈ chain, member.NameWraps memory) :
    ∃ names, List.Forall₂ (fun member name => member.Named memory name) chain names ∧
      chain.mapM (fun member => member.name memory) = .ok names := by
  have each : ∀ member ∈ chain, ∃ found, member.Named memory found := by
    intro member among
    refine (legible member among).named_or_wraps.resolve_right fun wraps => ?_
    exact none ⟨member, among, wraps⟩
  choose! nameOf named using each
  refine ⟨chain.map nameOf, ?_, mapM_eq_ok ?_⟩
  · rw [List.forall₂_map_right_iff, List.forall₂_same]
    exact named
  · intro member among
    exact (named member among).name (legible member among).flags (aligned member among)

theorem spelled (read : context.qualifiedName memory
      = chain.mapM (fun member => member.name memory) >>= fun names => .ok (dotted names)) :
    context.Spelled memory chain where
  stops := by
    constructor
    · rintro ⟨fault, stopped⟩
      cases names : chain.mapM fun member => member.name memory with
      | error first => exact (nameWraps_of_error aligned legible names).1
      | ok names =>
          rw [read, names] at stopped
          cases stopped
    · rintro ⟨member, among, wraps⟩
      obtain ⟨_, -, failed⟩ := wraps.name (legible member among).flags (aligned member among)
      obtain ⟨first, stopped⟩ :=
        exists_mapM_eq_error (f := fun inner : Context => inner.name memory) among failed
      exact ⟨first, by rw [read, stopped]; rfl⟩
  wraps fault stopped := by
    cases names : chain.mapM fun member => member.name memory with
    | error first =>
        rw [read, names] at stopped
        cases stopped
        exact (nameWraps_of_error aligned legible names).2
    | ok names =>
        rw [read, names] at stopped
        cases stopped
  named none := by
    obtain ⟨names, each, given⟩ := exists_names aligned legible none
    refine ⟨names, each, ?_⟩
    rw [read, given]
    rfl

end

theorem stuck (aligned : ∀ member ∈ before, 4 ∣ member.address.bits.toNat)
    (read : context.qualifiedName memory
      = before.mapM (fun member => member.name memory) >>= fun _ => .error fault) :
    context.Stuck memory before fault where
  stops := by
    rw [read]
    cases before.mapM fun member => member.name memory with
    | error first => exact ⟨first, rfl⟩
    | ok names => exact ⟨fault, rfl⟩
  located legible stop stopped := by
    cases names : before.mapM fun member => member.name memory with
    | error first =>
        rw [read, names] at stopped
        cases stopped
        exact .inr (nameWraps_of_error aligned legible names).2
    | ok names =>
        rw [read, names] at stopped
        cases stopped
        exact .inl rfl

/-- The qualified name of a context whose chain comes to an end is spelled out of the names on the
    chain; where the chain breaks there is none. -/
theorem qualifiedName_exact (aligned : 4 ∣ context.address.bits.toNat)
    (within : context.Within memory before last) :
    (last.Stores memory Format.Context.parent 0 →
      (∀ limit, context.ancestors memory limit
        = ⟨(before ++ [last]).take limit,
            if before.length < limit then .finished else .limited⟩) ∧
      ((∀ member ∈ before ++ [last], member.Legible memory) →
        context.Spelled memory (before ++ [last]))) ∧
    ∀ fault, last.Breaks memory fault → context.Stuck memory before fault := by
  have path := within.path aligned
  have allAligned : ∀ member ∈ before ++ [last], 4 ∣ member.address.bits.toNat :=
    fun member among => within.aligned aligned among
  have lastAligned := allAligned last (by simp)
  refine ⟨?_, ?_⟩
  · intro stored
    have ends := parent_of_absent stored lastAligned
    exact ⟨path.along_ok ends,
      fun legible => spelled allAligned legible (qualifiedName_of_end path ends)⟩
  · intro fault breaks
    refine stuck (fun member among => allAligned member (List.mem_append_left _ among)) ?_
    exact qualifiedName_of_break path (breaks.parent lastAligned)

/-- The struct `Pt` in an extension in the module `App`, its link to the extension going through a
    slot. Behind them an extension in a context whose slot holds null. -/
def nestedStruct : Memory :=
  Memory.store .empty 0x1000
    #[0, 0, 0, 0, 0, 0, 0, 0, 0x28, 0, 0, 0, 0, 0, 0, 0,
      1, 0, 0, 0, 0xEC, 0xFF, 0xFF, 0xFF,
      0x11, 0, 0, 0, 0x0D, 0, 0, 0, 0x14, 0, 0, 0, 0, 0, 0, 0,
      0x10, 0x10, 0, 0, 0, 0, 0, 0, 0x41, 0x70, 0x70, 0, 0x50, 0x74, 0, 0,
      2, 0, 0, 0, 0x05, 0, 0, 0, 0, 0, 0, 0, 0, 0, 0, 0,
      1, 0, 0, 0, 0xEC, 0xFF, 0xFF, 0xFF]

theorem nestedStruct_within : Within nestedStruct ⟨⟨0x1018, by decide⟩⟩
    [⟨⟨0x1018, by decide⟩⟩, ⟨⟨0x1010, by decide⟩⟩] ⟨⟨0x1000, by decide⟩⟩ := by
  have toExtension : LinksTo nestedStruct ⟨⟨0x1018, by decide⟩⟩ ⟨0x1010, by decide⟩ := by
    have stored : Stores nestedStruct ⟨⟨0x1018, by decide⟩⟩ Format.Context.parent 0x0D := by
      decide +kernel
    refine .slot stored (by decide) (show (⟨0x1028, by decide⟩ : Address).bits = _ by decide) ?_ ?_
    · decide
    · decide +kernel
  have toModule : LinksTo nestedStruct ⟨⟨0x1010, by decide⟩⟩ ⟨0x1000, by decide⟩ := by
    have stored : Stores nestedStruct ⟨⟨0x1010, by decide⟩⟩ Format.Context.parent (-0x14) := by
      decide +kernel
    exact .direct stored (by decide) (by decide) (by decide)
  exact .step toExtension (by decide) (.step toModule (by decide) .here)

theorem nestedStruct_legible : ∀ member ∈
    [⟨⟨0x1018, by decide⟩⟩, ⟨⟨0x1010, by decide⟩⟩, (⟨⟨0x1000, by decide⟩⟩ : Context)],
    member.Legible nestedStruct := by
  simp only [List.forall_mem_cons]
  refine ⟨?_, ?_, ?_, List.forall_mem_nil _⟩
  · refine ⟨⟨[0x11, 0, 0, 0], rfl, by decide +kernel⟩, fun kind => ⟨0x14, by decide +kernel, ?_⟩⟩
    intro present place placed
    refine ⟨[0x50, 0x74], by decide, ?_⟩
    rw [placed]
    decide +kernel
  · exact ⟨⟨[1, 0, 0, 0], rfl, by decide +kernel⟩, fun kind => absurd kind (by decide +kernel)⟩
  · refine ⟨⟨[0, 0, 0, 0], rfl, by decide +kernel⟩, fun kind => ⟨0x28, by decide +kernel, ?_⟩⟩
    intro present place placed
    refine ⟨[0x41, 0x70, 0x70], by decide, ?_⟩
    rw [placed]
    decide +kernel

theorem nestedStruct_breaks : Within nestedStruct ⟨⟨0x1048, by decide⟩⟩
      [⟨⟨0x1048, by decide⟩⟩] ⟨⟨0x1038, by decide⟩⟩ ∧
    Breaks nestedStruct ⟨⟨0x1038, by decide⟩⟩ (.nullSlot ⟨0x1040, by decide⟩) := by
  have toAnonymous : LinksTo nestedStruct ⟨⟨0x1048, by decide⟩⟩ ⟨0x1038, by decide⟩ := by
    have stored : Stores nestedStruct ⟨⟨0x1048, by decide⟩⟩ Format.Context.parent (-0x14) := by
      decide +kernel
    exact .direct stored (by decide) (by decide) (by decide)
  have stored : Stores nestedStruct ⟨⟨0x1038, by decide⟩⟩ Format.Context.parent 0x05 := by
    decide +kernel
  refine ⟨.step toAnonymous (by decide) .here, ?_⟩
  exact .nullSlot stored (by decide) (by decide) (by decide) (by decide +kernel)

/-- The extension adds nothing between the two names, and the null slot leaves none. -/
theorem qualifiedName_exact_nestedStruct :
    Spelled nestedStruct ⟨⟨0x1018, by decide⟩⟩
        [⟨⟨0x1018, by decide⟩⟩, ⟨⟨0x1010, by decide⟩⟩, ⟨⟨0x1000, by decide⟩⟩] ∧
      qualifiedName ⟨⟨0x1018, by decide⟩⟩ nestedStruct = .ok "App.Pt" ∧
      Stuck nestedStruct ⟨⟨0x1048, by decide⟩⟩ [⟨⟨0x1048, by decide⟩⟩]
        (.nullSlot ⟨0x1040, by decide⟩) := by
  have ends : Stores nestedStruct ⟨⟨0x1000, by decide⟩⟩ Format.Context.parent 0 := by
    decide +kernel
  have whole := ((qualifiedName_exact (by decide) nestedStruct_within).1 ends).2
  have broken := (qualifiedName_exact (by decide) nestedStruct_breaks.1).2 _ nestedStruct_breaks.2
  exact ⟨whole nestedStruct_legible, ok_of_toOption (by decide +kernel), broken⟩

end Context

end TypeReflection
