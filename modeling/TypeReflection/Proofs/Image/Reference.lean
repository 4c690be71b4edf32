import TypeReflection.Proofs.Image.History

/-! # References between entries

A symbol belongs to the entry that it was issued for. Enclosing contexts and superclasses are
earlier entries, so that chains of them come to an end.
-/

namespace TypeReflection

theorem mem_issuedSymbols {image : UInt32} {entries : List Entry} {symbol : Symbol} :
    symbol ∈ issuedSymbols image entries ↔ ∃ entry ∈ entries, symbol ∈ entry.symbols image :=
  List.mem_flatMap

namespace Entry

variable {image : UInt32} {entry : Entry} {offset : Nat}

/-- The symbol of the context. -/
def contextSymbol (image : UInt32) (entry : Entry) : Symbol :=
  ⟨image, entry.place, .context⟩

theorem contextSymbol_mem (image : UInt32) (entry : Entry) :
    entry.contextSymbol image ∈ entry.symbols image := by
  cases entry <;> simp [contextSymbol, symbols, place]

theorem eq_contextSymbol_of_mem
    (issued : (⟨image, offset, .context⟩ : Symbol) ∈ entry.symbols image) :
    (⟨image, offset, .context⟩ : Symbol) = entry.contextSymbol image := by
  cases entry <;> simpa [contextSymbol, symbols, place] using issued

theorem eq_classType_of_mem
    (issued : (⟨image, offset, .classMetadata⟩ : Symbol) ∈ entry.symbols image) :
    ∃ definition place, entry = .classType definition offset place := by
  cases entry with
  | module name place => simp [symbols] at issued
  | extension parent place => simp [symbols] at issued
  | structType definition metadata place => simp [symbols] at issued
  | classType definition metadata place =>
      have same : offset = metadata := by simpa [symbols] using issued
      exact ⟨definition, place, same ▸ rfl⟩

end Entry

/-- Enclosing contexts are given by symbols of contexts. -/
theorem Emits.parent_role {image : UInt32} {size : Nat} {entry : Entry} {emission : Emission}
    (emits : Emits image size entry emission) :
    ∀ symbol ∈ entry.parent?, symbol = ⟨image, symbol.offset, .context⟩ := by
  have links : ∀ {anchor position : Nat} {reference : Option ParentReference}
      {attachment : Attachment},
      Attachment.LinksParent image anchor position reference attachment →
      ∀ symbol ∈ reference.map ParentReference.context,
        symbol = ⟨image, symbol.offset, .context⟩ := by
    intro _ _ _ _ links symbol member
    cases links with
    | none => cases member
    | direct =>
        cases member
        rfl
    | indirect =>
        cases member
        rfl
  cases emits with
  | module emitted => exact fun _ member => nomatch member
  | extension emitted =>
      obtain ⟨_, _, rfl, _, _⟩ := emitExtension_eq_ok emitted
      rintro _ ⟨⟩
      rfl
  | structType _ emitted =>
      obtain ⟨_, _, _, parts⟩ := StructDefinition.emit_eq_ok emitted
      exact links parts.parent_links
  | classType _ emitted =>
      obtain ⟨_, _, _, _, _, parts⟩ := ClassDefinition.emit_eq_ok emitted
      exact links parts.parent_links

/-- Superclasses are given by symbols of class metadata. -/
theorem Emits.superclass_role {image : UInt32} {size : Nat} {entry : Entry} {emission : Emission}
    (emits : Emits image size entry emission) :
    ∀ symbol ∈ entry.superclass?, symbol = ⟨image, symbol.offset, .classMetadata⟩ := by
  cases emits with
  | module emitted => exact fun _ member => nomatch member
  | extension emitted => exact fun _ member => nomatch member
  | structType _ emitted => exact fun _ member => nomatch member
  | classType _ emitted =>
      obtain ⟨superclass, _, _, _, _, parts⟩ := ClassDefinition.emit_eq_ok emitted
      have known := ClassDefinition.superclassPosition_eq_ok parts.superclass_eq
      intro symbol member
      rw [Entry.superclass?, known] at member
      obtain ⟨offset, _, rfl⟩ := Option.map_eq_some_iff.mp member
      rfl

namespace Run

variable {image : UInt32} {entries : List Entry} {builder : Builder}

/-- What a definition refers to was emitted too. -/
theorem references (run : Run image entries builder) : ∀ entry ∈ entries,
    (∀ symbol ∈ entry.parent?, ∃ outer ∈ entries, symbol = outer.contextSymbol image) ∧
      ∀ symbol ∈ entry.superclass?, ∃ definition metadata place,
        .classType definition metadata place ∈ entries ∧
          symbol = ⟨image, metadata, .classMetadata⟩ := by
  induction run using keeps with
  | empty => exact List.forall_mem_nil _
  | step entries builder entry emission _ _ emits own ih =>
      refine List.forall_mem_cons.mpr ⟨⟨fun symbol member => ?_, fun symbol member => ?_⟩, ?_⟩
      · have role := emits.parent_role symbol member
        have issued := own symbol (by simp [Entry.mentioned, Option.mem_def.mp member])
        obtain ⟨outer, earlier, found⟩ := mem_issuedSymbols.mp issued
        rw [role] at found ⊢
        exact ⟨outer, List.mem_cons_of_mem _ earlier, Entry.eq_contextSymbol_of_mem found⟩
      · have role := emits.superclass_role symbol member
        have issued := own symbol (by simp [Entry.mentioned, Option.mem_def.mp member])
        obtain ⟨above, earlier, found⟩ := mem_issuedSymbols.mp issued
        rw [role] at found ⊢
        obtain ⟨definition, place, rfl⟩ := Entry.eq_classType_of_mem found
        exact ⟨definition, _, place, List.mem_cons_of_mem _ earlier, rfl⟩
      · intro other earlier
        obtain ⟨parents, superclasses⟩ := ih other earlier
        refine ⟨fun symbol member => ?_, fun symbol member => ?_⟩
        · obtain ⟨outer, known, same⟩ := parents symbol member
          exact ⟨outer, List.mem_cons_of_mem _ known, same⟩
        · obtain ⟨definition, metadata, place, known, same⟩ := superclasses symbol member
          exact ⟨definition, metadata, place, List.mem_cons_of_mem _ known, same⟩

end Run

/-! ## Chains of enclosing contexts -/

/-- The entry that the symbol was issued for and the entries that enclose it, from the inside
    outwards. Entries are looked for from the last one back. -/
def enclosing (image : UInt32) : List Entry → Symbol → List Entry
  | [], _ => []
  | entry :: earlier, symbol =>
      if symbol ∈ entry.symbols image then
        match entry.parent? with
        | some parent => entry :: enclosing image earlier parent
        | none => [entry]
      else
        enclosing image earlier symbol

theorem length_enclosing_le (image : UInt32) (entries : List Entry) (symbol : Symbol) :
    (enclosing image entries symbol).length ≤ entries.length := by
  induction entries generalizing symbol with
  | nil => exact Nat.le_refl 0
  | cons entry earlier ih =>
      unfold enclosing
      split
      · split
        case h_1 parent _ => exact Nat.succ_le_succ (ih parent)
        case h_2 => simp
      · exact Nat.le_succ_of_le (ih symbol)

namespace Run

variable {image : UInt32} {entries : List Entry} {builder : Builder}

/-- Symbols are not issued again. -/
theorem fresh (run : Run image entries builder) {entry : Entry} {emission : Emission}
    (emits : Emits image builder.bytes.length entry emission) {symbol : Symbol}
    (issued : symbol ∈ issuedSymbols image entries) : symbol ∉ entry.symbols image := by
  intro again
  have before := run.inside symbol issued
  have behind := (emits.inside symbol again).1
  omega

/-- Each entry of a chain is followed by the chain of the context around it. -/
theorem enclosing_eq (run : Run image entries builder) :
    ∀ entry ∈ entries, ∀ symbol ∈ entry.symbols image,
      enclosing image entries symbol = entry ::
        match entry.parent? with
        | some parent => enclosing image entries parent
        | none => [] := by
  induction run using keeps with
  | empty => exact List.forall_mem_nil _
  | step entries builder entry emission run _ emits own ih =>
      -- chains of earlier entries are not affected by the last one
      have kept : ∀ symbol ∈ issuedSymbols image entries,
          enclosing image (entry :: entries) symbol = enclosing image entries symbol := by
        intro symbol issued
        rw [enclosing, if_neg (run.fresh emits issued)]
      refine List.forall_mem_cons.mpr ⟨fun symbol found => ?_, fun other member symbol found => ?_⟩
      · rw [enclosing, if_pos found]
        cases outer : entry.parent? with
        | none => rfl
        | some parent =>
            have issued := own parent (by simp [Entry.mentioned, outer])
            dsimp only
            rw [kept parent issued]
      · have issued := mem_issuedSymbols.mpr ⟨other, member, found⟩
        rw [kept symbol issued, ih other member symbol found]
        cases outer : other.parent? with
        | none => rfl
        | some parent =>
            obtain ⟨around, known, rfl⟩ := (run.references other member).1 parent outer
            have issued := mem_issuedSymbols.mpr ⟨around, known, around.contextSymbol_mem image⟩
            dsimp only
            rw [kept _ issued]

/-- There are no more entries than bytes. -/
theorem length_entries_le (run : Run image entries builder) :
    entries.length ≤ builder.bytes.length := by
  induction run using keeps with
  | empty => exact Nat.le_refl 0
  | step entries builder entry emission _ _ emits _ ih =>
      have placed := emits.inside _ (entry.contextSymbol_mem image)
      rw [List.length_cons, Builder.append, List.length_append]
      omega

end Run

/-! ## Chains of entries -/

/-- The entries from one on, each followed by the one that its link names. -/
inductive Entry.Chain (image : UInt32) (entries : List Entry) (link : Entry → Option Symbol) :
    Entry → List Entry → Prop where
  | last {entry : Entry} (ends : link entry = none) : Chain image entries link entry [entry]
  | step {entry named : Entry} {symbol : Symbol} {rest : List Entry}
      (given : link entry = some symbol) (member : named ∈ entries)
      (issued : symbol ∈ named.symbols image) (goesOn : Chain image entries link named rest) :
      Chain image entries link entry (entry :: rest)

theorem Entry.parent_mentioned (entry : Entry) :
    ∀ symbol ∈ entry.parent?, symbol ∈ entry.mentioned := by
  intro symbol given
  simp [mentioned, Option.mem_def.mp given]

theorem Entry.superclass_mentioned (entry : Entry) :
    ∀ symbol ∈ entry.superclass?, symbol ∈ entry.mentioned := by
  intro symbol given
  simp [mentioned, Option.mem_def.mp given]

theorem Entry.Chain.start_mem {image : UInt32} {entries : List Entry}
    {link : Entry → Option Symbol} {entry : Entry} {chain : List Entry}
    (linked : Entry.Chain image entries link entry chain) : entry ∈ chain := by
  cases linked with
  | last => exact List.mem_cons_self ..
  | step => exact List.mem_cons_self ..

theorem Entry.Chain.mono {image : UInt32} {entries more : List Entry}
    {link : Entry → Option Symbol} {entry : Entry} {chain : List Entry}
    (linked : Entry.Chain image entries link entry chain) (kept : ∀ other ∈ entries, other ∈ more) :
    Entry.Chain image more link entry chain := by
  induction linked with
  | last ends => exact .last ends
  | step given member issued _ ih => exact .step given (kept _ member) issued ih

namespace Run

variable {image : UInt32} {entries : List Entry} {builder : Builder}

/-- What a definition refers to was emitted earlier. -/
theorem mentioned_earlier (run : Run image entries builder) {later earlier : List Entry}
    {entry : Entry} (split : entries = later ++ entry :: earlier) :
    ∀ symbol ∈ entry.mentioned, symbol ∈ issuedSymbols image earlier := by
  induction run using keeps generalizing later with
  | empty => simp at split
  | step entries builder last emission _ _ _ own ih =>
      cases later with
      | nil =>
          cases split
          exact own
      | cons other later =>
          cases split
          exact ih rfl

/-- Every entry has a chain, which goes on among earlier entries only. -/
theorem chain (run : Run image entries builder) (link : Entry → Option Symbol)
    (mentioned : ∀ entry : Entry, ∀ symbol ∈ link entry, symbol ∈ entry.mentioned) :
    ∀ entry ∈ entries, ∃ chain, entry.Chain image entries link chain ∧ chain.Sublist entries := by
  induction run using keeps with
  | empty => exact List.forall_mem_nil _
  | step entries builder last emission _ _ _ own ih =>
      intro entry member
      have kept : ∀ other ∈ entries, other ∈ last :: entries :=
        fun other earlier => List.mem_cons_of_mem _ earlier
      rcases List.mem_cons.mp member with rfl | earlier
      · cases given : link entry with
        | none => exact ⟨[entry], .last given, (List.nil_sublist entries).cons_cons entry⟩
        | some symbol =>
            have issued := own symbol (mentioned entry symbol given)
            obtain ⟨named, known, found⟩ := mem_issuedSymbols.mp issued
            obtain ⟨rest, linked, inside⟩ := ih named known
            exact ⟨entry :: rest, .step given (kept named known) found (linked.mono kept),
              inside.cons_cons entry⟩
      · obtain ⟨chain, linked, inside⟩ := ih entry earlier
        exact ⟨chain, linked.mono kept, inside.cons last⟩

end Run

/-- The enclosing entries are the chain of parents. -/
theorem Entry.Chain.eq_enclosing {image : UInt32} {entries : List Entry} {builder : Builder}
    {entry : Entry} {chain : List Entry}
    (linked : Entry.Chain image entries Entry.parent? entry chain)
    (run : Run image entries builder) (member : entry ∈ entries) :
    enclosing image entries (entry.contextSymbol image) = chain := by
  induction linked with
  | @last entry ends =>
      rw [run.enclosing_eq entry member _ (entry.contextSymbol_mem image), ends]
  | @step entry named symbol rest given known issued _ ih =>
      obtain ⟨outer, _, rfl⟩ := (run.references entry member).1 symbol given
      have same := Entry.eq_contextSymbol_of_mem issued
      rw [run.enclosing_eq entry member _ (entry.contextSymbol_mem image), given]
      exact congrArg (entry :: ·) ((congrArg (enclosing image entries) same).trans (ih known))

end TypeReflection
