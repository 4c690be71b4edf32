import TypeReflection.Proofs.Chain
import TypeReflection.Proofs.Image.Reference
import TypeReflection.Proofs.Reflection.Entry
import TypeReflection.Proofs.Utf8

/-! # Qualified names of emitted contexts

Read from the inside outwards, the contexts around an emitted one are those of the entries that
enclose it, whether the links between them are direct or not.
-/

namespace TypeReflection

namespace Entry

/-- The view of the context of an entry. -/
def context (base : Address) (entry : Entry) : Context :=
  ⟨base.past entry.place⟩

/-- The name of the context as text. It ends before the first NUL, and extensions have none. -/
def shownName? : Entry → Option String
  | .module name _ => some (cutAtNul name)
  | .extension _ _ => none
  | .structType definition _ _ => some (cutAtNul definition.nominal.name)
  | .classType definition _ _ => some (cutAtNul definition.nominal.name)

theorem map_utf8Lossy_name? (entry : Entry) : entry.name?.map utf8Lossy = entry.shownName? := by
  cases entry with
  | module name place => exact congrArg some (utf8Lossy_cut name)
  | extension parent place => rfl
  | structType definition metadata place => exact congrArg some (utf8Lossy_cut _)
  | classType definition metadata place => exact congrArg some (utf8Lossy_cut _)

end Entry

/-- The names of the entries that enclose the one with the symbol, and its own, outermost first and
    joined by dots. -/
def qualifiedName (image : UInt32) (entries : List Entry) (symbol : Symbol) : String :=
  ".".intercalate ((enclosing image entries symbol).filterMap Entry.shownName?).reverse

namespace Run

variable {image : UInt32} {entries : List Entry} {builder : Builder} {memory : Memory}
  {base : Address} (run : Run image entries builder)
  (shows : ∀ entry ∈ entries, entry.Shows memory base)

include run shows

/-- The contexts around one are those of the entries that enclose its own. -/
theorem contexts_follow {entry : Entry} (member : entry ∈ entries) {chain : List Entry}
    (linked : entry.Chain image entries Entry.parent? chain) :
    Walk.Follows (fun inner : Context => inner.parent memory) (entry.context base)
      (chain.map (Entry.context base)) := by
  induction linked with
  | @last entry ends =>
      have parent := (shows entry member).context_shows.parent_eq
      rw [ends] at parent
      exact .last parent
  | @step entry named symbol rest given known issued _ ih =>
      have parent := (shows entry member).context_shows.parent_eq
      obtain ⟨outer, _, rfl⟩ := (run.references entry member).1 symbol given
      have place : (outer.contextSymbol image).offset = named.place :=
        congrArg Symbol.offset (Entry.eq_contextSymbol_of_mem issued)
      rw [given, Option.map_some, place] at parent
      exact .step parent (ih known)

/-- The walk from a context outwards, if it may take as many steps as there are entries around. -/
theorem along_eq {limit : Nat} : ∀ entry ∈ entries,
    (enclosing image entries (entry.contextSymbol image)).length ≤ limit →
      Walk.along (fun inner => inner.parent memory) (fun inner => inner.name memory) limit
          (⟨base.past entry.place⟩ : Context)
        = ⟨(enclosing image entries (entry.contextSymbol image)).map Entry.name?, .finished⟩ := by
  intro entry member short
  obtain ⟨chain, linked, inside⟩ := run.chain Entry.parent? Entry.parent_mentioned entry member
  have named : ∀ inner ∈ chain, (inner.context base).name memory = .ok inner.name? := by
    intro inner known
    exact (shows inner (inside.subset known)).context_shows.name_eq
  rw [linked.eq_enclosing run member] at short ⊢
  exact (run.contexts_follow shows member linked).along_map named short

theorem namesOutward_eq (small : builder.bytes.length ≤ UInt64.size) : ∀ entry ∈ entries,
    (⟨base.past entry.place⟩ : Context).namesOutward memory
      = .ok ((enclosing image entries (entry.contextSymbol image)).map Entry.name?) := by
  intro entry member
  have chain := length_enclosing_le image entries (entry.contextSymbol image)
  have short := Nat.le_trans chain (Nat.le_trans run.length_entries_le small)
  rw [Context.namesOutward, run.along_eq shows entry member short]
  rfl

theorem qualifiedName_eq (small : builder.bytes.length ≤ UInt64.size) : ∀ entry ∈ entries,
    (⟨base.past entry.place⟩ : Context).qualifiedName memory
      = .ok (qualifiedName image entries (entry.contextSymbol image)) := by
  intro entry member
  have names : ∀ chain : List Entry,
      ((chain.map Entry.name?).filterMap id).map utf8Lossy = chain.filterMap Entry.shownName? := by
    intro chain
    rw [List.filterMap_map, List.map_filterMap]
    exact congrArg (List.filterMap · chain) (funext Entry.map_utf8Lossy_name?)
  refine bind_eq_ok.mpr ⟨_, run.namesOutward_eq shows small entry member, ?_⟩
  rw [List.map_reverse, names]
  rfl

end Run

end TypeReflection
