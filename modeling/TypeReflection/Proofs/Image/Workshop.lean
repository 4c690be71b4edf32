import TypeReflection.Image.Workshop
import TypeReflection.Proofs.Image.Reference

/-! # Symbols in a workshop

Builders of a workshop take turns, and symbols can be given to any of them and to any finished
image. As long as image numbers differ, a symbol is of use only to the builder that issued it and in
the image that this builder finished.
-/

namespace TypeReflection

/-! ## What a declaration refers to -/

/-- The enclosing context of a declaration whose settings can be made. -/
def Declaration.parent? : Declaration → Option Symbol
  | .module _ => none
  | .extension parent => some parent
  | .structType name settings => do
      let definition ← (StructDefinition.ofSettings name settings).toOption
      definition.nominal.parent.map ParentReference.context
  | .classType name settings => do
      let definition ← (ClassDefinition.ofSettings name settings).toOption
      definition.nominal.parent.map ParentReference.context

/-- The superclass of a declaration whose settings can be made. -/
def Declaration.superclass? : Declaration → Option Symbol
  | .classType name settings => do
      let definition ← (ClassDefinition.ofSettings name settings).toOption
      definition.superclass.map Prod.fst
  | .module _ | .extension _ | .structType _ _ => none

namespace Entry

variable {declaration : Declaration} {issued : Issued} {entry : Entry} {image : UInt32}

/-- An entry refers to what its declaration refers to. -/
theorem references_of (made : of? declaration issued = some entry) :
    entry.parent? = declaration.parent? ∧ entry.superclass? = declaration.superclass? := by
  cases declaration with
  | module | extension =>
      cases issued with
      | context =>
          cases made
          exact ⟨rfl, rfl⟩
      | type => cases made
  | structType | classType =>
      cases issued with
      | context => cases made
      | type =>
          obtain ⟨definition, defined, rfl⟩ := Option.map_eq_some_iff.mp made
          simp [parent?, superclass?, Declaration.parent?, Declaration.superclass?, defined]

theorem image_of_mem_symbols {symbol : Symbol} (issued : symbol ∈ entry.symbols image) :
    symbol.image = image := by
  cases entry with
  | module | extension =>
      rw [List.mem_singleton.mp issued]
  | structType | classType =>
      rcases List.mem_cons.mp issued with rfl | other
      · rfl
      · rw [List.mem_singleton.mp other]

end Entry

namespace Builder

variable {builder next : Builder} {declaration : Declaration} {issued : Issued}

/-- A declaration keeps the number of the image, and its symbols have that number. -/
theorem image_of_declare (declared : builder.declare declaration = .ok (next, issued)) :
    next.image = builder.image ∧ ∀ symbol ∈ issued.symbols, symbol.image = builder.image := by
  obtain ⟨entry, emission, _, _, rfl, symbols⟩ := declare_eq_ok declared
  refine ⟨rfl, fun symbol member => ?_⟩
  rw [symbols] at member
  exact Entry.image_of_mem_symbols member

/-- A declaration that can be emitted refers to contexts and classes of the same image. -/
theorem references_of_declare (declared : builder.declare declaration = .ok (next, issued)) :
    (∀ symbol ∈ declaration.parent?, symbol.image = builder.image ∧ symbol.role = .context) ∧
      ∀ symbol ∈ declaration.superclass?,
        symbol.image = builder.image ∧ symbol.role = .classMetadata := by
  obtain ⟨entry, emission, made, emits, _, _⟩ := declare_eq_ok declared
  obtain ⟨parent, superclass⟩ := Entry.references_of made
  rw [← parent, ← superclass]
  refine ⟨fun symbol member => ?_, fun symbol member => ?_⟩
  · rw [emits.parent_role symbol member]
    exact ⟨rfl, rfl⟩
  · rw [emits.superclass_role symbol member]
    exact ⟨rfl, rfl⟩

theorem id_of_finish? {base : Address} {image : Image}
    (finished : builder.finish? base = some image) : image.id = builder.image := by
  obtain ⟨_, _, same⟩ := Option.bind_eq_some_iff.mp finished
  cases same
  rfl

end Builder

/-! ## What an image makes of a symbol -/

theorem Symbol.exists_resolve_eq_ok {symbol : Symbol} {image : UInt32} {role : Role} :
    (∃ offset, symbol.resolve image role = .ok offset) ↔
      symbol.image = image ∧ symbol.role = role := by
  unfold resolve
  by_cases own : symbol.image = image
  · by_cases fits : symbol.role = role <;> simp [own, fits]
  · simp [own]

theorem Symbol.exists_resolveMetadata_eq_ok {symbol : Symbol} {image : UInt32} :
    (∃ offset, symbol.resolveMetadata image = .ok offset) ↔
      symbol.image = image ∧ symbol.role ≠ .context := by
  unfold resolveMetadata
  split
  case h_1 role | h_2 role => simp [exists_resolve_eq_ok, role]
  case h_3 role => simp [role]

namespace Image

variable {image : Image} {symbol : Symbol}

/-- A lookup is a misuse if the symbol does not resolve, and never for what comes after. -/
theorem misused_iff {α : Type} {resolved : Except SymbolError Nat}
    {rest : Nat → Except LookupError α}
    (harmless : ∀ offset error, rest offset ≠ .error (.misused error)) :
    (∃ error, (liftM resolved : Except LookupError Nat) >>= rest = .error (.misused error)) ↔
      ¬∃ offset, resolved = .ok offset := by
  cases resolved with
  | error error =>
      refine iff_of_true ⟨error, rfl⟩ ?_
      rintro ⟨_, impossible⟩
      cases impossible
  | ok offset =>
      refine iff_of_false ?_ (not_not_intro ⟨offset, rfl⟩)
      rintro ⟨error, misused⟩
      exact harmless offset error misused

theorem handle_misused_iff : (∃ error, image.handle symbol = .error (.misused error)) ↔
    ¬(symbol.image = image.id ∧ symbol.role ≠ .context) := by
  rw [← Symbol.exists_resolveMetadata_eq_ok]
  refine misused_iff fun offset error => ?_
  cases added : image.base.add (.ofNat offset) <;> nofun

theorem context_misused_iff : (∃ error, image.context symbol = .error (.misused error)) ↔
    ¬(symbol.image = image.id ∧ symbol.role = .context) := by
  rw [← Symbol.exists_resolve_eq_ok]
  refine misused_iff fun offset error => ?_
  cases image.base.add (.ofNat offset) with
  | error => nofun
  | ok address =>
      change (Context.check address).mapError _ ≠ _
      cases Context.check address <;> nofun

end Image

namespace Workshop

variable {workshop next : Workshop} {index : Nat}

/-! ## Steps -/

theorem lt_of_builder? {builder : Builder} (working : workshop.builder? index = some builder) :
    index < workshop.builders.length := by
  obtain ⟨found, known, rfl⟩ := Option.bind_eq_some_iff.mp working
  exact (List.getElem?_eq_some_iff.mp known).1

theorem builder?_start : workshop.start.builder? index =
    if index = workshop.builders.length then some (.empty workshop.nextImage)
    else workshop.builder? index := by
  unfold builder? start
  split
  case isTrue last =>
      subst last
      simp
  case isFalse other =>
      rcases Nat.lt_or_gt_of_ne other with before | behind
      · rw [List.getElem?_append_left before]
      · rw [List.getElem?_eq_none (List.length_append ▸ Nat.succ_le_of_lt behind),
          List.getElem?_eq_none (Nat.le_of_lt behind)]

/-- Only the builder that took the step is another one after it. -/
theorem builder?_of_set {changed : Option Builder} {builder : Builder} {other : Nat}
    (replaced : next.builders = workshop.builders.set index changed)
    (working : next.builder? other = some builder) :
    other = index ∧ changed = some builder ∨ workshop.builder? other = some builder := by
  unfold builder? at working ⊢
  rw [replaced, List.getElem?_set] at working
  by_cases own : index = other
  · subst own
    by_cases inside : index < workshop.builders.length
    · exact .inl ⟨rfl, by simpa [inside] using working⟩
    · simp [inside] at working
  · exact .inr (by simpa [own] using working)

theorem declare_eq_ok {declaration : Declaration} {issued : Issued}
    (declared : workshop.declare index declaration = .ok (next, issued)) :
    ∃ builder after, workshop.builder? index = some builder ∧
      builder.declare declaration = .ok (after, issued) ∧
      next = { workshop with builders := workshop.builders.set index (some after) } := by
  unfold declare at declared
  split at declared
  case h_1 => cases declared
  case h_2 builder working =>
      split at declared
      case h_1 => cases declared
      case h_2 emitted =>
          cases declared
          exact ⟨builder, _, working, emitted, rfl⟩

theorem finish_eq_ok {base : Address} {image : Image}
    (finished : workshop.finish index base = .ok (next, image)) :
    ∃ builder, workshop.builder? index = some builder ∧ builder.finish? base = some image ∧
      next.nextImage = workshop.nextImage ∧ next.builders = workshop.builders.set index none := by
  unfold finish at finished
  split at finished
  case h_1 => cases finished
  case h_2 builder working =>
      split at finished
      case h_1 => cases finished
      case h_2 filled =>
          cases finished
          exact ⟨builder, working, filled, rfl, rfl⟩

/-! ## Image numbers -/

/-- The workshop after some steps, with the symbols issued and the images finished by then, each
    with the number of its builder. -/
inductive Course : List (Nat × Symbol) → List (Nat × Image) → Workshop → Prop where
  | empty : Course [] [] .empty
  | start {issued : List (Nat × Symbol)} {finished : List (Nat × Image)} {workshop : Workshop} :
      Course issued finished workshop → Course issued finished workshop.start
  | declare {issued : List (Nat × Symbol)} {finished : List (Nat × Image)}
      {workshop next : Workshop} {index : Nat} {declaration : Declaration} {made : Issued} :
      Course issued finished workshop →
      workshop.declare index declaration = .ok (next, made) →
      Course (made.symbols.map (index, ·) ++ issued) finished next
  | finish {issued : List (Nat × Symbol)} {finished : List (Nat × Image)}
      {workshop next : Workshop} {index : Nat} {base : Address} {image : Image} :
      Course issued finished workshop →
      workshop.finish index base = .ok (next, image) →
      Course issued ((index, image) :: finished) next

/-- Builders, symbols and images have the number of the builder, as far as 32 bits go. -/
structure Numbered (issued : List (Nat × Symbol)) (finished : List (Nat × Image))
    (workshop : Workshop) : Prop where
  next : workshop.nextImage = .ofNat workshop.builders.length
  builder : ∀ {index builder}, workshop.builder? index = some builder → builder.image = .ofNat index
  symbol : ∀ made ∈ issued,
    made.1 < workshop.builders.length ∧ made.2.image = .ofNat made.1
  image : ∀ made ∈ finished, made.1 < workshop.builders.length ∧ made.2.id = .ofNat made.1

variable {issued : List (Nat × Symbol)} {finished : List (Nat × Image)}

theorem Numbered.start (numbered : Numbered issued finished workshop) :
    Numbered issued finished workshop.start where
  next := by
    simp [Workshop.start, numbered.next, UInt32.ofNat_add]
  builder := by
    intro index builder working
    rw [builder?_start] at working
    split at working
    case isTrue last =>
        cases working
        rw [last]
        exact numbered.next
    case isFalse => exact numbered.builder working
  symbol := by
    intro made member
    have known := numbered.symbol made member
    exact ⟨by simpa [Workshop.start] using Nat.lt_succ_of_lt known.1, known.2⟩
  image := by
    intro made member
    have known := numbered.image made member
    exact ⟨by simpa [Workshop.start] using Nat.lt_succ_of_lt known.1, known.2⟩

theorem Numbered.declare {declaration : Declaration} {made : Issued}
    (numbered : Numbered issued finished workshop)
    (declared : workshop.declare index declaration = .ok (next, made)) :
    Numbered (made.symbols.map (index, ·) ++ issued) finished next := by
  obtain ⟨builder, after, working, emitted, rfl⟩ := declare_eq_ok declared
  obtain ⟨kept, own⟩ := Builder.image_of_declare emitted
  have number := numbered.builder working
  constructor
  case next => simpa using numbered.next
  case builder =>
      intro other found working
      rcases builder?_of_set rfl working with ⟨rfl, changed⟩ | same
      · cases changed
        exact kept.trans number
      · exact numbered.builder same
  case symbol =>
      refine List.forall_mem_append.mpr ⟨fun new member => ?_, by simpa using numbered.symbol⟩
      obtain ⟨symbol, new, rfl⟩ := List.mem_map.mp member
      exact ⟨by simpa using lt_of_builder? working, (own symbol new).trans number⟩
  case image => simpa using numbered.image

theorem Numbered.finish {base : Address} {image : Image}
    (numbered : Numbered issued finished workshop)
    (done : workshop.finish index base = .ok (next, image)) :
    Numbered issued ((index, image) :: finished) next := by
  obtain ⟨builder, working, filled, counter, builders⟩ := finish_eq_ok done
  have number := numbered.builder working
  have length : next.builders.length = workshop.builders.length := by simp [builders]
  constructor
  case next => rw [counter, length, numbered.next]
  case builder =>
      intro other found working
      rcases builder?_of_set builders working with ⟨_, impossible⟩ | same
      · cases impossible
      · exact numbered.builder same
  case symbol => simpa [length] using numbered.symbol
  case image =>
      refine List.forall_mem_cons.mpr ⟨?_, by simpa [length] using numbered.image⟩
      exact ⟨length ▸ lt_of_builder? working, (Builder.id_of_finish? filled).trans number⟩

theorem Course.numbered (course : Course issued finished workshop) :
    Numbered issued finished workshop := by
  induction course with
  | empty => exact ⟨rfl, nofun, List.forall_mem_nil _, List.forall_mem_nil _⟩
  | start _ ih => exact ih.start
  | declare _ declared ih => exact ih.declare declared
  | finish _ done ih => exact ih.finish done

/-! ## Symbols stay with their builder -/

/-- What a symbol of the builder numbered `home` is good for: to stand for an enclosing context or a
    superclass with this builder, and to be looked up in the image that it finished. -/
structure Confines (home : Nat) (symbol : Symbol) (finished : List (Nat × Image))
    (workshop : Workshop) : Prop where
  parent : ∀ {index : Nat} {declaration : Declaration} {result : Workshop × Issued},
    workshop.declare index declaration = .ok result → symbol ∈ declaration.parent? →
    index = home ∧ symbol.role = .context
  superclass : ∀ {index : Nat} {declaration : Declaration} {result : Workshop × Issued},
    workshop.declare index declaration = .ok result → symbol ∈ declaration.superclass? →
    index = home ∧ symbol.role = .classMetadata
  handle : ∀ made ∈ finished,
    (∃ error, made.2.handle symbol = .error (.misused error)) ↔
      ¬(made.1 = home ∧ symbol.role ≠ .context)
  context : ∀ made ∈ finished,
    (∃ error, made.2.context symbol = .error (.misused error)) ↔
      ¬(made.1 = home ∧ symbol.role = .context)

/-- Symbols are confined to their builder while image numbers have not come round. -/
theorem Course.confines (course : Course issued finished workshop)
    (few : workshop.builders.length ≤ UInt32.size) {home : Nat} {symbol : Symbol}
    (member : (home, symbol) ∈ issued) : Confines home symbol finished workshop := by
  have numbered := course.numbered
  obtain ⟨inside, number⟩ := numbered.symbol _ member
  have same : ∀ {index : Nat}, index < workshop.builders.length →
      (symbol.image = .ofNat index ↔ index = home) := by
    intro index early
    rw [number, ← UInt32.toNat_inj, UInt32.toNat_ofNat_of_lt' (Nat.lt_of_lt_of_le inside few),
      UInt32.toNat_ofNat_of_lt' (Nat.lt_of_lt_of_le early few)]
    exact eq_comm
  constructor
  case parent =>
      intro index declaration result declared given
      obtain ⟨builder, _, working, emitted, _⟩ := declare_eq_ok declared
      obtain ⟨image, role⟩ := (Builder.references_of_declare emitted).1 symbol given
      rw [numbered.builder working] at image
      exact ⟨(same (lt_of_builder? working)).mp image, role⟩
  case superclass =>
      intro index declaration result declared given
      obtain ⟨builder, _, working, emitted, _⟩ := declare_eq_ok declared
      obtain ⟨image, role⟩ := (Builder.references_of_declare emitted).2 symbol given
      rw [numbered.builder working] at image
      exact ⟨(same (lt_of_builder? working)).mp image, role⟩
  case handle =>
      intro made known
      obtain ⟨early, id⟩ := numbered.image made known
      rw [Image.handle_misused_iff, id, same early]
  case context =>
      intro made known
      obtain ⟨early, id⟩ := numbered.image made known
      rw [Image.context_misused_iff, id, same early]

/-- The first builder issues a symbol, and the second finishes its image. -/
theorem Course.confines_pair : ∃ image workshop,
    Course [(0, ⟨0, 0, .context⟩)] [(1, image)] workshop ∧
      Confines 0 ⟨0, 0, .context⟩ [(1, image)] workshop := by
  obtain ⟨next, workshop, image, declared, done, pair⟩ : ∃ next workshop image,
      Workshop.empty.start.start.declare 0 (.module "")
          = .ok (next, .context ⟨0, 0, .context⟩) ∧
        next.finish 1 ⟨0x10000, by decide⟩ = .ok (workshop, image) ∧
        workshop.builders.length = 2 :=
    ⟨_, _, _, rfl, rfl, rfl⟩
  have course : Course [(0, ⟨0, 0, .context⟩)] [(1, image)] workshop :=
    (Course.empty.start.start.declare declared).finish done
  have few : workshop.builders.length ≤ UInt32.size := by simp [pair, UInt32.size]
  exact ⟨image, workshop, course, course.confines few (List.mem_singleton.mpr rfl)⟩

theorem Course.exists_after_starts (course : Course issued finished workshop) (more : Nat) :
    ∃ later, Course issued finished later ∧
      later.builders.length = workshop.builders.length + more := by
  induction more with
  | zero => exact ⟨workshop, course, rfl⟩
  | succ more ih =>
      obtain ⟨later, reached, length⟩ := ih
      exact ⟨later.start, reached.start, by simp [Workshop.start, length, Nat.add_assoc]⟩

/-- Once image numbers have come round, a symbol of the first builder passes for one of the builder
    with the same number. It is taken for an enclosing context, and looked up in an image without a
    single byte. -/
theorem escapes_after_overflow : ∃ issued workshop,
    Course issued [] workshop ∧ workshop.builders.length = UInt32.size + 1 ∧
    (0, (⟨0, 0, .context⟩ : Symbol)) ∈ issued ∧
    (∃ result, workshop.declare UInt32.size (.extension ⟨0, 0, .context⟩) = .ok result) ∧
    ∃ next image, workshop.finish UInt32.size ⟨0x10000, by decide⟩ = .ok (next, image) ∧
      image.size = 0 ∧ ∃ context, image.context ⟨0, 0, .context⟩ = .ok context := by
  obtain ⟨next, declared, alone⟩ : ∃ next : Workshop,
      empty.start.declare 0 (.module "") = .ok (next, .context ⟨0, 0, .context⟩) ∧
        next.builders.length = 1 :=
    ⟨_, rfl, rfl⟩
  obtain ⟨round, reached, length⟩ :=
    (Course.empty.start.declare declared).exists_after_starts (UInt32.size - 1)
  have full : round.builders.length = UInt32.size := by
    rw [length, alone]
    exact Nat.add_sub_cancel' (by decide)
  have number : round.nextImage = 0 := by
    rw [reached.numbered.next, full]
    exact UInt32.ofNat_size
  have working : round.start.builder? UInt32.size = some (.empty 0) := by
    rw [builder?_start, if_pos full.symm, number]
  obtain ⟨builder, issued, accepted⟩ : ∃ builder issued,
      (Builder.empty 0).declare (.extension ⟨0, 0, .context⟩) = .ok (builder, issued) :=
    ⟨_, _, rfl⟩
  have filled : (Builder.empty 0).finish? ⟨0x10000, by decide⟩
      = some ⟨0, ⟨0x10000, by decide⟩, .ofList []⟩ := rfl
  obtain ⟨final, done⟩ : ∃ final, round.start.finish UInt32.size ⟨0x10000, by decide⟩
      = .ok (final, ⟨0, ⟨0x10000, by decide⟩, .ofList []⟩) := by
    simp [Workshop.finish, working, filled]
  refine ⟨_, round.start, reached.start, ?_, List.mem_singleton.mpr rfl, ?_, final, _, done, rfl, _,
    rfl⟩
  · simp [Workshop.start, full]
  · simp [Workshop.declare, working, accepted]

end Workshop

end TypeReflection
