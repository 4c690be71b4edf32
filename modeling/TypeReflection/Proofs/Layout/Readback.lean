import TypeReflection.Proofs.Layout.Listing

/-! # What plain listings tell

Two layouts with one plain listing agree in everything that the listing shows, as long as their
texts are words that cannot be taken for marks. The lines are found at the line feeds and the parts
of a line at the spaces, whatever the widths of the columns are.
-/

namespace TypeReflection

/-! ## Flags -/

namespace FieldFlags

/-- Whether bit `index` is set. -/
def bit (bits : UInt32) (index : Nat) : Bool :=
  bits.toBitVec.getLsbD index

theorem bit_clear (entries : List (UInt32 × String)) (bits : UInt32) {index : Nat}
    (small : index < 32) :
    bit (entries.foldl (fun bits (mask, _) => bits &&& ~~~mask) bits) index
      = (bit bits index && entries.all fun (mask, _) => !bit mask index) := by
  induction entries generalizing bits with
  | nil => simp
  | cons entry entries ih =>
      rw [List.foldl_cons, ih, List.all_cons, ← Bool.and_assoc]
      simp [bit, small]

theorem bit_of_contains {flags : FieldFlags} {mask : UInt32} {index : Nat}
    (contained : flags.contains mask) (set : bit mask index) : bit flags.bits index := by
  rw [contains, beq_iff_eq] at contained
  rw [← contained, bit, UInt32.toBitVec_and, BitVec.getLsbD_and, Bool.and_eq_true] at set
  exact set.1

theorem ext_bit {flags other : FieldFlags}
    (same : ∀ index < 32, bit flags.bits index = bit other.bits index) : flags = other := by
  obtain ⟨bits⟩ := flags
  obtain ⟨bits'⟩ := other
  refine congrArg _ (UInt32.toBitVec_inj.mp (BitVec.eq_of_getLsbD_eq fun index small => ?_))
  exact same index small

/-- No named flag is listed as a numeral. -/
theorem named_ne_hex : ∀ entry ∈ named, ∀ number, entry.2 ≠ hex number := by
  intro entry member number same
  have heads : ∀ entry ∈ named, entry.2.toList.head? ≠ some '0' := by decide
  refine heads entry member ?_
  rw [same, hex, String.toList_append]
  rfl

/-- A named flag is set if its name is listed. -/
theorem name_mem_names_iff {flags : FieldFlags} {entry : UInt32 × String} (member : entry ∈ named) :
    entry.2 ∈ flags.names ↔ flags.contains entry.1 := by
  have distinct : ∀ entry ∈ named, ∀ other ∈ named, other.2 = entry.2 → other = entry := by decide
  rw [names, List.mem_append]
  constructor
  · rintro (listed | numeral)
    · obtain ⟨other, present, same⟩ := List.mem_map.mp listed
      obtain ⟨among, set⟩ := List.mem_filter.mp present
      rw [← distinct entry member other among same]
      exact set
    · split at numeral
      · cases numeral
      · exact absurd (List.mem_singleton.mp numeral) (named_ne_hex entry member _)
  · intro set
    exact .inl (List.mem_map_of_mem (List.mem_filter.mpr ⟨member, set⟩))

theorem present_eq (flags : FieldFlags) :
    flags.present = named.filter fun entry => entry.2 ∈ flags.names := by
  refine List.filter_congr fun entry member => ?_
  rw [Bool.eq_iff_iff, decide_eq_true_iff, name_mem_names_iff member]

theorem unnamed_eq {flags other : FieldFlags} (present : flags.present = other.present)
    (same : flags.names = other.names) : flags.unnamed = other.unnamed := by
  rw [names, names, present] at same
  have numerals := List.append_cancel_left same
  split at numerals
  · next none =>
      split at numerals
      · next none' => rw [none, none']
      · cases numerals
  · split at numerals
    · cases numerals
    · exact UInt32.toNat_inj.mp (hex_injective (List.cons.inj numerals).1)

/-- The names that are listed tell all bits of the flags. -/
theorem names_injective {flags other : FieldFlags} (same : flags.names = other.names) :
    flags = other := by
  have present : flags.present = other.present := by rw [present_eq, present_eq, same]
  refine ext_bit fun index small => ?_
  by_cases named : flags.present.all fun (mask, _) => !bit mask index
  · have rest : bit flags.unnamed index = bit other.unnamed index := by
      rw [unnamed_eq present same]
    rw [unnamed, unnamed, bit_clear _ _ small, bit_clear _ _ small, ← present, named,
      Bool.and_true, Bool.and_true] at rest
    exact rest
  · obtain ⟨⟨mask, name⟩, member, set⟩ : ∃ entry ∈ flags.present, bit entry.1 index := by
      simpa using named
    have contained := (List.mem_filter.mp member).2
    have contained' := (List.mem_filter.mp (present ▸ member)).2
    rw [bit_of_contains contained set, bit_of_contains contained' set]

end FieldFlags

/-! ## Parts of a line -/

/-- Whether an item is given, and which, is told from what is written for it or for its lack. -/
theorem eq_of_elim_eq {α β : Type} {missing : β} {write : α → β} {given given' : Option α}
    (injective : ∀ {item item' : α}, write item = write item' → item = item')
    (present : ∀ item ∈ given, write item ≠ missing)
    (present' : ∀ item ∈ given', write item ≠ missing)
    (same : given.elim missing write = given'.elim missing write) : given = given' := by
  cases given with
  | none =>
      cases given' with
      | none => rfl
      | some item => exact absurd same.symm (present' item rfl)
  | some item =>
      cases given' with
      | none => exact absurd same (present item rfl)
      | some item' => exact congrArg _ (injective same)

theorem filter_intercalate (keep : Char → Bool) (separator : List Char)
    (items : List (List Char)) : (separator.intercalate items).filter keep
      = (separator.filter keep).intercalate (items.map (List.filter keep)) := by
  induction items with
  | nil => rfl
  | cons item items ih =>
      by_cases last : items = []
      · subst last
        simp
      · have last' : items.map (List.filter keep) ≠ [] := by simpa using last
        rw [List.map_cons, List.intercalate_cons_of_ne_nil last,
          List.intercalate_cons_of_ne_nil last', List.filter_append, List.filter_append, ih]

/-- Names of flags are told from their enumeration. -/
theorem intercalate_names_injective {names other : List String} (some : names ≠ [])
    (some' : other ≠ []) (plain : ∀ name ∈ names, ∀ char ∈ name.toList, char.isAlphanum)
    (plain' : ∀ name ∈ other, ∀ char ∈ name.toList, char.isAlphanum)
    (same : ", ".intercalate names = ", ".intercalate other) : names = other := by
  -- without the spaces, the names are parted by commas alone
  have split {names : List String} (some : names ≠ [])
      (plain : ∀ name ∈ names, ∀ char ∈ name.toList, char.isAlphanum) :
      ((", ".intercalate names).toList.filter (· ≠ ' ')).splitOn ','
        = names.map String.toList := by
    have comma : ", ".toList.filter (· ≠ ' ') = [','] := by decide
    have unchanged : (names.map String.toList).map (List.filter (· ≠ ' '))
        = names.map String.toList := by
      rw [List.map_map]
      refine List.map_congr_left fun name member => ?_
      rw [Function.comp_apply, List.filter_eq_self]
      intro char letter
      have alphanum := plain name member char letter
      rw [decide_eq_true_iff]
      rintro rfl
      exact absurd alphanum (by decide)
    rw [String.toList_intercalate, filter_intercalate, comma, unchanged]
    refine List.splitOn_intercalate ',' ?_ (by simpa using some)
    intro item listed letter
    obtain ⟨name, member, rfl⟩ := List.mem_map.mp listed
    exact absurd (plain name member ',' letter) (by decide)
  refine (List.map_inj_right fun _ _ => String.toList_inj.mp).mp ?_
  rw [← split some plain, ← split some' plain', same]

namespace FieldLayout

variable {field other : FieldLayout}

theorem offset_of_offsetText (same : field.offsetText.toList = other.offsetText.toList) :
    field.offset = other.offset := by
  have signed (offset : UInt32) : '+' :: Nat.toDigits 10 offset.toNat ≠ ['-'] := fun same =>
    absurd (List.cons.inj same).1 (by decide)
  rw [toList_offsetText, toList_offsetText] at same
  refine eq_of_elim_eq (fun same => ?_) (fun offset _ => signed offset)
    (fun offset _ => signed offset) same
  exact UInt32.toNat_inj.mp (toDigits_ten_injective (List.cons.inj same).2)

theorem flags_of_flagsText (same : field.flagsText.toList = other.flagsText.toList) :
    field.flags = other.flags := by
  refine FieldFlags.names_injective ?_
  rw [flagsText, flagsText] at same
  split at same
  · next none =>
      split at same
      · next none' => rw [none, none']
      · simp at same
  · next some =>
      split at same
      · simp at same
      · next some' =>
          refine intercalate_names_injective some some' ?_ ?_ ?_
          · exact fun name => FieldFlags.isAlphanum_of_mem_names
          · exact fun name => FieldFlags.isAlphanum_of_mem_names
          · refine String.toList_inj.mp ?_
            simpa using same

/-- Nothing or a space stands behind the offset, and behind the encoded type name. -/
theorem endsWord_flagsText (field : FieldLayout) : EndsWord field.flagsText.toList := by
  rw [flagsText]
  split
  · intro char first
    cases first
  · intro char first
    simpa using first.symm

theorem endsWord_tail (field : FieldLayout) : EndsWord field.tail := by
  rw [tail, toList_typeText_plain]
  split
  · intro char first
    simpa using first.symm
  · exact field.endsWord_flagsText

/-- The flags are no encoded type name, since a bracket stands before them. -/
theorem flagsText_ne_typeName {typeName rest : List Char} (field : FieldLayout)
    (some : typeName ≠ []) (apart : typeName.head? ≠ Option.some '[') :
    field.flagsText.toList ≠ [' ', ' '] ++ (typeName ++ rest) := by
  obtain ⟨first, others, rfl⟩ := List.exists_cons_of_ne_nil some
  rw [flagsText]
  split
  · simp
  · intro same
    simp at same
    exact apart (congrArg _ same.1.symm)

/-- An encoded type name that is a word and does not begin with a bracket. -/
def NamesType (field : FieldLayout) : Prop :=
  ∀ typeName ∈ field.typeName, IsWord typeName.toList ∧ typeName.toList.head? ≠ some '['

theorem parts_of_tail (named : field.NamesType) (named' : other.NamesType)
    (same : field.tail = other.tail) :
    field.typeName = other.typeName ∧ field.flagsText.toList = other.flagsText.toList := by
  rw [tail, tail, toList_typeText_plain, toList_typeText_plain] at same
  cases given : field.typeName with
  | none =>
      cases given' : other.typeName with
      | none =>
          rw [given, given'] at same
          exact ⟨rfl, same⟩
      | some typeName =>
          rw [given, given', List.append_assoc] at same
          obtain ⟨word, apart⟩ := named' typeName given'
          exact absurd same (field.flagsText_ne_typeName word.1 apart)
  | some typeName =>
      obtain ⟨word, apart⟩ := named typeName given
      cases given' : other.typeName with
      | none =>
          rw [given, given', List.append_assoc] at same
          exact absurd same.symm (other.flagsText_ne_typeName word.1 apart)
      | some typeName' =>
          rw [given, given', List.append_assoc, List.append_assoc] at same
          obtain ⟨equal, flags⟩ := word_cancel word.2 (named' typeName' given').1.2
            field.endsWord_flagsText other.endsWord_flagsText (List.append_cancel_left same)
          exact ⟨congrArg _ (String.toList_inj.mp equal), flags⟩

end FieldLayout

/-! ## Lines -/

namespace TypeLayout

/-- The texts are words, and none of them can be taken for a mark or for a missing name. -/
structure IsUnambiguous (layout : TypeLayout) : Prop where
  texts : ∀ text ∈ layout.texts, text ≠ "" ∧ ' ' ∉ text.toList ∧ '\n' ∉ text.toList
  qualifiedName : layout.qualifiedName ≠ some "<unnamed>"
  typeName : ∀ field ∈ layout.fields, ∀ typeName ∈ field.typeName,
    typeName.toList.head? ≠ some '['

variable {layout other : TypeLayout}

theorem IsUnambiguous.isWord (clear : layout.IsUnambiguous) {text : String}
    (shown : text ∈ layout.texts) : IsWord text.toList :=
  ⟨fun empty => (clear.texts text shown).1 (String.toList_inj.mp empty), (clear.texts text shown).2.1⟩

theorem IsUnambiguous.avoids (clear : layout.IsUnambiguous) : layout.Avoids '\n' :=
  fun text shown => (clear.texts text shown).2.2

theorem IsUnambiguous.namesType (clear : layout.IsUnambiguous) {field : FieldLayout}
    (member : field ∈ layout.fields) : field.NamesType :=
  fun typeName given =>
    ⟨clear.isWord (typeName_mem_texts member given), clear.typeName field member typeName given⟩

theorem endsWord_replicate_gap (layout : TypeLayout) (field : FieldLayout) (rest : List Char) :
    EndsWord (List.replicate (layout.gap field) ' ' ++ rest) := by
  intro char first
  have positive : layout.gap field = layout.gap field - 1 + 1 := by
    rw [gap]
    omega
  rw [positive, List.replicate_succ, List.cons_append] at first
  exact (Option.some.inj first).symm

theorem field_of_row (clear : layout.IsUnambiguous) (clear' : other.IsUnambiguous)
    {field field' : FieldLayout} (member : field ∈ layout.fields) (member' : field' ∈ other.fields)
    (same : (layout.rowOf .plain field).toList = (other.rowOf .plain field').toList) :
    field = field' := by
  rw [toList_rowOf_plain, toList_rowOf_plain] at same
  have name := clear.isWord (fieldName_mem_texts member)
  have name' := clear'.isWord (fieldName_mem_texts member')
  obtain ⟨names, behind⟩ := word_cancel name.2 name'.2 (layout.endsWord_replicate_gap field _)
    (other.endsWord_replicate_gap field' _) (List.append_cancel_left same)
  obtain ⟨offsets, tails⟩ := spaced_word_cancel field.isWord_offsetText field'.isWord_offsetText
    field.endsWord_tail field'.endsWord_tail behind
  obtain ⟨typeNames, flags⟩ :=
    FieldLayout.parts_of_tail (clear.namesType member) (clear'.namesType member') tails
  rw [FieldLayout.mk.injEq]
  exact ⟨String.toList_inj.mp names, FieldLayout.offset_of_offsetText offsets, typeNames,
    FieldLayout.flags_of_flagsText flags⟩

/-- Items are told from what is written for them in order. -/
theorem eq_of_map_eq {α β : Type} {write write' : α → β} {items items' : List α}
    (each : ∀ item ∈ items, ∀ item' ∈ items', write item = write' item' → item = item')
    (same : items.map write = items'.map write') : items = items' := by
  induction items generalizing items' with
  | nil => exact (List.map_eq_nil_iff.mp same.symm).symm
  | cons item items ih =>
      cases items' with
      | nil => cases same
      | cons item' items' =>
          obtain ⟨first, rest⟩ := List.cons.inj same
          have equal := each item List.mem_cons_self item' List.mem_cons_self first
          have behind := ih (fun item member item' member' => each item
            (List.mem_cons_of_mem _ member) item' (List.mem_cons_of_mem _ member')) rest
          rw [equal, behind]

/-- What the line for the type has behind the name of the type. -/
def superclassText (layout : TypeLayout) : List Char :=
  layout.superclass.elim [] fun superclass => [' ', ':', ' '] ++ superclass.toList

theorem toList_headLine_plain : (layout.headLine .plain).toList = layout.kind.name.toList
    ++ (' ' :: ((layout.qualifiedName.getD "<unnamed>").toList ++ layout.superclassText)) := by
  cases given : layout.superclass <;> simp [headLine, superclassText, given]

theorem isWord_name (clear : layout.IsUnambiguous) :
    IsWord (layout.qualifiedName.getD "<unnamed>").toList := by
  cases given : layout.qualifiedName with
  | some name => exact clear.isWord (qualifiedName_mem_texts given)
  | none => exact ⟨by decide, by decide⟩

theorem endsWord_superclassText : EndsWord layout.superclassText := by
  rw [superclassText]
  cases layout.superclass with
  | none => exact nofun
  | some superclass => exact fun char first => (Option.some.inj first).symm

theorem kind_of_name {kind kind' : TypeKind} (same : kind.name.toList = kind'.name.toList) :
    kind = kind' := by
  cases kind <;> cases kind' <;> first | rfl | exact absurd same (by decide)

theorem superclass_of_text (same : layout.superclassText = other.superclassText) :
    layout.superclass = other.superclass := by
  rw [superclassText, superclassText] at same
  refine eq_of_elim_eq ?_ (fun _ _ => List.cons_ne_nil _ _) (fun _ _ => List.cons_ne_nil _ _) same
  intro superclass superclass' same
  have shown : [' ', ':', ' '] ++ superclass.toList = [' ', ':', ' '] ++ superclass'.toList := same
  exact String.toList_inj.mp (List.append_cancel_left shown)

theorem IsUnambiguous.name_ne (clear : layout.IsUnambiguous) :
    ∀ name ∈ layout.qualifiedName, name ≠ "<unnamed>" :=
  fun _ given missing => clear.qualifiedName (missing ▸ given)

theorem qualifiedName_of_shown (clear : layout.IsUnambiguous) (clear' : other.IsUnambiguous)
    (same : layout.qualifiedName.getD "<unnamed>" = other.qualifiedName.getD "<unnamed>") :
    layout.qualifiedName = other.qualifiedName := by
  have shown (name : Option String) : name.getD "<unnamed>" = name.elim "<unnamed>" id := by
    cases name <;> rfl
  rw [shown, shown] at same
  exact eq_of_elim_eq id clear.name_ne clear'.name_ne same

theorem names_of_headLine (clear : layout.IsUnambiguous) (clear' : other.IsUnambiguous)
    (same : (layout.headLine .plain).toList = (other.headLine .plain).toList) :
    layout.kind = other.kind ∧ layout.qualifiedName = other.qualifiedName ∧
      layout.superclass = other.superclass := by
  rw [toList_headLine_plain, toList_headLine_plain] at same
  have blank (rest : List Char) : EndsWord (' ' :: rest) := fun _ first =>
    (Option.some.inj first).symm
  have kind : ∀ kind : TypeKind, ' ' ∉ kind.name.toList := by
    intro kind
    cases kind <;> decide
  obtain ⟨kinds, behind⟩ := word_cancel (kind _) (kind _) (blank _) (blank _) same
  obtain ⟨names, superclasses⟩ := word_cancel (isWord_name clear).2 (isWord_name clear').2
    endsWord_superclassText endsWord_superclassText (List.cons.inj behind).2
  exact ⟨kind_of_name kinds, qualifiedName_of_shown clear clear' (String.toList_inj.mp names),
    superclass_of_text superclasses⟩

/-- What the second line has behind its label. -/
def countText (layout : TypeLayout) : List Char :=
  layout.fieldCount.elim "unsupported".toList (Nat.toDigits 10)

theorem toList_countLine_plain :
    (layout.countLine .plain).toList = "  field_count = ".toList ++ layout.countText := by
  cases given : layout.fieldCount with
  | some count =>
      rw [countLine, countText, given]
      show ("  field_count = " ++ count.repr).toList = _
      rw [String.toList_append, Nat.toList_repr, Option.elim_some]
  | none =>
      rw [countLine, countText, given, Palette.plain_paint_detail, String.toList_append,
        Option.elim_none]

theorem count_ne_unsupported (count : Nat) : Nat.toDigits 10 count ≠ "unsupported".toList := by
  intro same
  have letter : 'u' ∈ "unsupported".toList := by decide
  rw [← same] at letter
  have digit := Nat.isDigit_of_mem_toDigits (by decide) (by decide) letter
  exact absurd digit (by decide)

theorem fieldCount_of_countLine
    (same : (layout.countLine .plain).toList = (other.countLine .plain).toList) :
    layout.fieldCount = other.fieldCount := by
  rw [toList_countLine_plain, toList_countLine_plain] at same
  exact eq_of_elim_eq toDigits_ten_injective (fun count _ => count_ne_unsupported count)
    (fun count _ => count_ne_unsupported count) (List.append_cancel_left same)

/-- Two layouts with one plain listing agree in all that it shows. -/
theorem listing_injective {text : String} (clear : layout.IsUnambiguous)
    (clear' : other.IsUnambiguous) (written : layout.listing .plain = .ok text)
    (written' : other.listing .plain = .ok text) :
    layout.kind = other.kind ∧ layout.qualifiedName = other.qualifiedName ∧
      layout.superclass = other.superclass ∧ layout.fieldCount = other.fieldCount ∧
      layout.fields = other.fields := by
  have split := splitOn_listing clear.avoids written
  rw [splitOn_listing clear'.avoids written'] at split
  have lines := List.append_cancel_right split.symm
  obtain ⟨head, behind⟩ := List.cons.inj lines
  obtain ⟨count, rows⟩ := List.cons.inj behind
  rw [List.map_map, List.map_map] at rows
  obtain ⟨kind, qualifiedName, superclass⟩ := names_of_headLine clear clear' head
  have fields : layout.fields = other.fields :=
    eq_of_map_eq (fun field member field' member' => field_of_row clear clear' member member') rows
  exact ⟨kind, qualifiedName, superclass, fieldCount_of_countLine count, fields⟩

/-- A class whose name, which no listing shows, is given. -/
def hound (name : String) : TypeLayout :=
  ⟨.classType, some name, some "Zoo.Dog", none, some "Zoo.Animal",
    [⟨"näme", none, some "SS", ⟨0x80000006⟩⟩, ⟨"age", none, none, ⟨0⟩⟩]⟩

theorem hound_isUnambiguous (name : String) : (hound name).IsUnambiguous where
  texts := show ∀ text ∈ ["Zoo.Dog", "Zoo.Animal", "näme", "SS", "age"], _ by decide +kernel
  qualifiedName := fun same => absurd (Option.some.inj same) (by decide)
  typeName := by
    intro field member typeName given
    have shown : typeName = "SS" := by
      rcases List.mem_cons.mp member with rfl | rest
      · exact (Option.some.inj given).symm
      · rw [List.mem_singleton.mp rest] at given
        cases given
    rw [shown]
    decide

/-- The layouts differ in the name alone, and so they have one listing. -/
theorem listing_injective_hound : hound "Dog" ≠ hound "Hound" ∧
    (hound "Dog").IsUnambiguous ∧ (hound "Hound").IsUnambiguous ∧
    (∀ name, (hound name).listing .plain = .ok ("class Zoo.Dog : Zoo.Animal\n"
      ++ "  field_count = unsupported\n"
      ++ "  näme  -  SS  [var, artificial, 0x80000000]\n  age   -\n")) ∧
    (hound "Dog").kind = (hound "Hound").kind ∧
    (hound "Dog").qualifiedName = (hound "Hound").qualifiedName ∧
    (hound "Dog").superclass = (hound "Hound").superclass ∧
    (hound "Dog").fieldCount = (hound "Hound").fieldCount ∧
    (hound "Dog").fields = (hound "Hound").fields := by
  have written (name : String) : (hound name).listing .plain
      = .ok ("class Zoo.Dog : Zoo.Animal\n" ++ "  field_count = unsupported\n"
        ++ "  näme  -  SS  [var, artificial, 0x80000000]\n  age   -\n") := by
    show (hound "Dog").listing .plain = _
    exact ok_of_toOption (by decide +kernel)
  have clear := hound_isUnambiguous
  refine ⟨by decide +kernel, clear "Dog", clear "Hound", written, ?_⟩
  exact listing_injective (clear "Dog") (clear "Hound") (written "Dog") (written "Hound")

end TypeLayout

end TypeReflection
