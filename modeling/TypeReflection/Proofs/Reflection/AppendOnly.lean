import TypeReflection.Proofs.Reflection.SelfContained
import TypeReflection.Proofs.View.Query

/-! # Building is append-only

What a builder emits stands behind what it has emitted before, and no pointer that is filled in
later lies in the earlier bytes. So the image of a program begins with the image of each part that
the program begins with, and answers the same about everything that was emitted in that part.
-/

namespace TypeReflection

/-! ## Programs in two parts -/

namespace Builder

variable {builder final : Builder} {issued : List Issued}

/-- A program that succeeds does so part by part. -/
theorem declareAll_append_eq_ok {program continuation : List Declaration}
    (declared : builder.declareAll (program ++ continuation) = .ok (final, issued)) :
    ∃ middle first rest, builder.declareAll program = .ok (middle, first) ∧
      middle.declareAll continuation = .ok (final, rest) ∧ issued = first ++ rest := by
  induction program generalizing builder issued with
  | nil => exact ⟨builder, [], issued, rfl, declared, rfl⟩
  | cons declaration program ih =>
      obtain ⟨next, one, _, emitted, continued, rfl⟩ := declareAll_cons_eq_ok.mp declared
      obtain ⟨middle, first, rest, before, behind, rfl⟩ := ih continued
      refine ⟨middle, one :: first, rest, ?_, behind, rfl⟩
      exact declareAll_cons_eq_ok.mpr ⟨next, one, first, emitted, before, rfl⟩

/-- A program puts one emission behind the bytes so far, whose pointers lie in that emission. -/
theorem declareAll_relocates {declarations : List Declaration}
    (declared : builder.declareAll declarations = .ok (final, issued)) :
    ∃ emission, final = builder.append emission ∧ ∀ base, ∃ behind,
      Relocates base builder.bytes.length emission.bytes emission.relocations behind := by
  induction declarations generalizing builder issued with
  | nil =>
      cases declared
      refine ⟨⟨[], []⟩, by simp [append], fun base => ⟨[], .plain _ []⟩⟩
  | cons declaration declarations ih =>
      obtain ⟨_, one, others, emitted, continued, rfl⟩ := declareAll_cons_eq_ok.mp declared
      obtain ⟨entry, front, _, emits, rfl, _⟩ := declare_eq_ok emitted
      obtain ⟨back, rfl, relocates⟩ := ih continued
      refine ⟨⟨front.bytes ++ back.bytes, front.relocations ++ back.relocations⟩,
        by simp [append], fun base => ?_⟩
      obtain ⟨first, before⟩ := emits.relocates base
      obtain ⟨second, behind⟩ := relocates base
      have placed : (builder.append front).bytes.length
          = builder.bytes.length + front.bytes.length := List.length_append
      exact ⟨first ++ second, before.append (behind.of_eq placed)⟩

/-- The symbols that a program hands out are those of its entries. -/
theorem symbols_of_declareAll {declarations : List Declaration}
    (declared : builder.declareAll declarations = .ok (final, issued)) :
    ∃ entries, Entry.all? declarations issued = some entries ∧
      ∀ one ∈ issued, ∀ symbol ∈ one.symbols, symbol ∈ issuedSymbols builder.image entries := by
  induction declarations generalizing builder issued with
  | nil =>
      cases declared
      exact ⟨[], rfl, List.forall_mem_nil _⟩
  | cons declaration declarations ih =>
      obtain ⟨_, one, others, emitted, continued, rfl⟩ := declareAll_cons_eq_ok.mp declared
      obtain ⟨entry, emission, found, _, rfl, symbols⟩ := declare_eq_ok emitted
      obtain ⟨rest, known, given⟩ := ih continued
      refine ⟨entry :: rest, Entry.all?_cons found known, List.forall_mem_cons.mpr ⟨?_, ?_⟩⟩
      · intro symbol issued
        rw [issuedSymbols, List.flatMap_cons]
        exact List.mem_append_left _ (symbols ▸ issued)
      · intro issued member symbol among
        rw [issuedSymbols, List.flatMap_cons]
        exact List.mem_append_right _ (given issued member symbol among)

end Builder

/-! ## Images of programs in two parts -/

/-- Two images answer every query on a symbol in the same way: both give the same view for it, or
    refuse it in the same way; the same views are reached from there; and on any of these each
    query has the same answer, a failed check or a fault included. -/
structure Image.Agree (early late : Image) (symbol : Symbol) : Prop where
  handle_eq : late.handle symbol = early.handle symbol
  context_eq : late.context symbol = early.context symbol
  reached_iff : ∀ start, early.Opens symbol start → ∀ view,
    Reached late.memory start view ↔ Reached early.memory start view
  query_eq : ∀ start, early.Opens symbol start → ∀ view, Reached early.memory start view →
    ∀ {α : Type} (reading : Memory → Except Failure α) (hands : α → List View),
      Query view reading hands → reading late.memory = reading early.memory

/-- An image that begins with the bytes of another, at the same base, holds all its memory. -/
theorem Image.extends_of_prefix {early late : Image} {front back : List UInt8}
    (base : late.base = early.base) (stored : early.storage.Stores front)
    (continued : late.storage.Stores (front ++ back)) : late.memory.Extends early.memory := by
  intro address byte there
  rw [Image.byte?_eq stored] at there
  rw [Image.byte?_eq continued, base]
  have inside := (List.getElem?_eq_some_iff.mp there).1
  rw [List.getElem?_append_left inside, there]

/-- What is emitted behind a builder's bytes comes out behind the bytes of its image. -/
theorem Builder.finish?_append {builder : Builder} {emission : Emission} {base : Address}
    {front back : List UInt8}
    (relocates : Relocates base.bits 0 builder.bytes builder.relocations front)
    (continues : Relocates base.bits builder.bytes.length emission.bytes emission.relocations
      back) :
    ∃ early late, builder.finish? base = some early ∧
      (builder.append emission).finish? base = some late ∧ late.id = early.id ∧
      late.base = early.base ∧ early.bytes <+: late.bytes ∧
      late.memory.Extends early.memory := by
  have whole : Relocates base.bits 0 (builder.append emission).bytes
      (builder.append emission).relocations (front ++ back) :=
    relocates.append (continues.of_eq (Nat.zero_add _).symm)
  obtain ⟨storage, finished, stores⟩ := finish?_of_relocates relocates
  obtain ⟨longer, continued, holds⟩ := finish?_of_relocates whole
  refine ⟨_, _, finished, continued, rfl, rfl, ?_, Image.extends_of_prefix (by rfl) stores holds⟩
  rw [Image.bytes, Image.bytes, stores.toList, holds.toList]
  exact List.prefix_append front back

/-- Images whose memory agrees on what one of them holds agree on the symbols of its entries. -/
theorem Run.agree {image : UInt32} {entries : List Entry} {builder : Builder}
    (run : Run image entries builder) {early late : Image} (id_eq : early.id = image)
    (presents : early.Presents entries builder.bytes.length) (id : late.id = early.id)
    (base : late.base = early.base) (more : late.memory.Extends early.memory) :
    ∀ symbol ∈ issuedSymbols image entries, early.Agree late symbol := by
  have safe := View.emitted_safe presents.entries_show run
  intro symbol issued
  have opened := (run.opens id_eq presents symbol issued).2
  constructor
  case handle_eq => rw [Image.handle, Image.handle, id, base]
  case context_eq => rw [Image.context, Image.context, id, base]
  case reached_iff =>
      intro start opens view
      exact safe.reached_iff more (opened start opens)
  case query_eq =>
      intro start opens view reached α reading hands query
      exact safe.query_eq more (safe.reached (opened start opens) reached) query

/-- Building is append-only. If a program can be continued, it can be run without the continuation,
    which issues the same symbols; at every base the image of the program alone begins the image of
    the whole; and where it fits, both answer the same about all symbols of the program, which
    refers to no symbols but its own. -/
theorem Builder.append_only {image : UInt32} {program continuation : List Declaration}
    {final : Builder} {issued : List Issued}
    (declared : (Builder.empty image).declareAll (program ++ continuation) = .ok (final, issued)) :
    ∃ builder first rest, (Builder.empty image).declareAll program = .ok (builder, first) ∧
      issued = first ++ rest ∧ ∀ base : Address, ∃ early late,
        builder.finish? base = some early ∧ final.finish? base = some late ∧
          early.bytes <+: late.bytes ∧
          (base.isAligned Format.imageAlignment = true →
            base.bits.toNat + builder.bytes.length ≤ UInt64.size →
            (∀ entries ∈ Entry.all? program first, usesOwnSymbols image [] entries = true) →
            ∀ one ∈ first, ∀ symbol ∈ one.symbols, early.Agree late symbol) := by
  obtain ⟨builder, first, rest, before, behind, rfl⟩ := declareAll_append_eq_ok declared
  obtain ⟨front, built, relocated⟩ := declareAll_relocates before
  obtain ⟨back, rfl, continued⟩ := declareAll_relocates behind
  refine ⟨builder, first, rest, before, rfl, fun base => ?_⟩
  obtain ⟨start, relocates⟩ := relocated base.bits
  obtain ⟨more, continues⟩ := continued base.bits
  have whole : Relocates base.bits 0 builder.bytes builder.relocations start := by
    simpa [built, append, empty] using relocates
  obtain ⟨early, late, finished, finished', same_id, same_base, begins, larger⟩ :=
    finish?_append whole continues
  refine ⟨early, late, finished, finished', begins, fun aligned fits own => ?_⟩
  obtain ⟨entries, found, among⟩ := symbols_of_declareAll before
  have run : Run image entries.reverse builder := .of_program before found (own entries found)
  obtain ⟨id_eq, _, presents⟩ := run.presents aligned fits finished
  intro one member symbol given
  obtain ⟨entry, known, names⟩ := mem_issuedSymbols.mp (among one member symbol given)
  have issued := mem_issuedSymbols.mpr ⟨entry, List.mem_reverse.mpr known, names⟩
  exact run.agree id_eq presents same_id same_base larger symbol issued

/-- The zoo begins with its first two parts, which issue the metadata of a class. -/
theorem Builder.append_only_zoo :
    (Builder.empty 0).declareAll (zoo.take 2 ++ zoo.drop 2) = .ok (zooResult.1, zooResult.2) ∧
      ∃ builder first, (Builder.empty 0).declareAll (zoo.take 2) = .ok (builder, first) ∧
        0x10000 + builder.bytes.length ≤ UInt64.size ∧
        ∃ early late, builder.finish? ⟨0x10000, by decide⟩ = some early ∧
          zooResult.1.finish? ⟨0x10000, by decide⟩ = some late ∧ early.bytes <+: late.bytes ∧
          early.Agree late ⟨0, 136, .classMetadata⟩ := by
  have declared : (Builder.empty 0).declareAll (zoo.take 2 ++ zoo.drop 2)
      = .ok (zooResult.1, zooResult.2) := ok_of_toOption (by decide +kernel)
  have checked : ∀ result ∈ ((Builder.empty 0).declareAll (zoo.take 2)).toOption,
      0x10000 + result.1.bytes.length ≤ UInt64.size ∧
        (∀ entries ∈ Entry.all? (zoo.take 2) result.2, usesOwnSymbols 0 [] entries = true) ∧
        ∃ one ∈ result.2, ⟨0, 136, .classMetadata⟩ ∈ one.symbols := by
    decide +kernel
  have aligned : (⟨0x10000, by decide⟩ : Address).isAligned Format.imageAlignment = true := by
    decide
  obtain ⟨builder, first, _, before, _, agrees⟩ := append_only declared
  obtain ⟨fits, own, one, member, given⟩ := checked (builder, first) (by rw [before]; rfl)
  obtain ⟨early, late, finished, finished', begins, answers⟩ := agrees ⟨0x10000, by decide⟩
  exact ⟨declared, builder, first, before, fits, early, late, finished, finished', begins,
    answers aligned fits own one member _ given⟩

end TypeReflection
