import TypeReflection.Proofs.Image.History

/-! # Numbers of images

The number of an image keeps symbols of different images apart and is stored nowhere: the same
program, run again for another image, emits the same bytes.
-/

namespace TypeReflection

def Symbol.inImage (image : UInt32) (symbol : Symbol) : Symbol :=
  { symbol with image }

def ParentReference.inImage (image : UInt32) : ParentReference → ParentReference
  | .direct context => .direct (context.inImage image)
  | .indirect context => .indirect (context.inImage image)

def NominalDefinition.inImage (image : UInt32) (definition : NominalDefinition) :
    NominalDefinition :=
  { definition with parent := definition.parent.map (ParentReference.inImage image) }

def StructDefinition.inImage (image : UInt32) (definition : StructDefinition) :
    StructDefinition :=
  { definition with nominal := definition.nominal.inImage image }

def ClassDefinition.inImage (image : UInt32) (definition : ClassDefinition) : ClassDefinition :=
  { definition with
    nominal := definition.nominal.inImage image
    superclass := definition.superclass.map fun given => (given.1.inImage image, given.2) }

/-- The same entry in the image with the given number. -/
def Entry.inImage (image : UInt32) : Entry → Entry
  | .module name place => .module name place
  | .extension parent place => .extension (parent.inImage image) place
  | .structType definition metadata place =>
      .structType (definition.inImage image) metadata place
  | .classType definition metadata place => .classType (definition.inImage image) metadata place

theorem Symbol.resolve_inImage {symbol : Symbol} {image : UInt32} (other : UInt32) {role : Role}
    {offset : Nat}
    (resolved : (liftM (symbol.resolve image role) : Except BuildError Nat) = .ok offset) :
    (liftM ((symbol.inImage other).resolve other role) : Except BuildError Nat) = .ok offset := by
  rw [resolve_eq_ok] at resolved ⊢
  rw [resolved, inImage]

theorem Attachment.ofParent_inImage {image : UInt32} (other : UInt32) {anchor position : Nat}
    {reference : Option ParentReference} {attachment : Attachment}
    (given : ofParent image anchor position reference = .ok attachment) :
    ofParent other anchor position (reference.map (ParentReference.inImage other))
      = .ok attachment := by
  match reference with
  | none => exact given
  | some (.direct context) =>
      obtain ⟨target, resolved, rest⟩ := bind_eq_ok.mp given
      exact bind_eq_ok.mpr ⟨target, Symbol.resolve_inImage other resolved, rest⟩
  | some (.indirect context) =>
      obtain ⟨target, resolved, rest⟩ := bind_eq_ok.mp given
      exact bind_eq_ok.mpr ⟨target, Symbol.resolve_inImage other resolved, rest⟩

theorem ClassDefinition.superclassPosition_inImage {definition : ClassDefinition}
    {image : UInt32} (other : UInt32) {superclass : Option Nat}
    (given : definition.superclassPosition image = .ok superclass) :
    (definition.inImage other).superclassPosition other = .ok superclass := by
  have above := superclassPosition_eq_ok given
  match found : definition.superclass, superclass with
  | none, none => simp [superclassPosition, inImage, found]
  | some (symbol, name), some offset =>
      rw [found] at above
      have resolved := Symbol.resolve_eq_ok.mpr (Option.some.inj above)
      simp [superclassPosition, inImage, found, Symbol.resolve_inImage other resolved]
  | none, some offset => simp [found] at above
  | some (symbol, name), none => simp [found] at above

namespace Entry

/-- What is emitted for an entry, read off the entry alone. -/
def emission (image : UInt32) (size : Nat) : Entry → Except BuildError Emission
  | .module name _ => emitModule size name
  | .extension parent _ => emitExtension image size parent
  | .structType definition _ _ => EmittedType.emission <$> definition.emit image size
  | .classType definition _ _ => EmittedType.emission <$> definition.emit image size

theorem emission_of_emits {image : UInt32} {size : Nat} {entry : Entry} {emission : Emission}
    (emits : Emits image size entry emission) : entry.emission image size = .ok emission := by
  cases emits with
  | module emitted => exact emitted
  | extension emitted => exact emitted
  | structType _ emitted => simp [Entry.emission, emitted]
  | classType _ emitted => simp [Entry.emission, emitted]

theorem emission_inImage {image : UInt32} (other : UInt32) {size : Nat} {entry : Entry}
    {emission : Emission} (emitted : entry.emission image size = .ok emission) :
    (entry.inImage other).emission other size = .ok emission := by
  cases entry with
  | module name place => exact emitted
  | extension parent place =>
      obtain ⟨link, given, rest⟩ := bind_eq_ok.mp emitted
      exact bind_eq_ok.mpr ⟨link, Attachment.ofParent_inImage other given, rest⟩
  | structType definition metadata place =>
      obtain ⟨type, emitted, same⟩ := map_eq_ok.mp emitted
      obtain ⟨checked, offsets, rest⟩ := bind_eq_ok.mp emitted
      obtain ⟨parent, first, rest⟩ := bind_eq_ok.mp rest
      have first := Attachment.ofParent_inImage other first
      have moved : (definition.inImage other).emit other size = .ok type :=
        bind_eq_ok.mpr ⟨checked, offsets, bind_eq_ok.mpr ⟨parent, first, rest⟩⟩
      exact map_eq_ok.mpr ⟨type, moved, same⟩
  | classType definition metadata place =>
      obtain ⟨type, emitted, same⟩ := map_eq_ok.mp emitted
      obtain ⟨superclass, above, rest⟩ := bind_eq_ok.mp emitted
      obtain ⟨parent, first, rest⟩ := bind_eq_ok.mp rest
      have above := ClassDefinition.superclassPosition_inImage other above
      have first := Attachment.ofParent_inImage other first
      have names : (definition.inImage other).superclass.map Prod.snd
          = definition.superclass.map Prod.snd := by
        simp [ClassDefinition.inImage, Function.comp_def]
      have moved : (definition.inImage other).emit other size = .ok type := by
        refine bind_eq_ok.mpr ⟨superclass, above, bind_eq_ok.mpr ⟨parent, first, ?_⟩⟩
        rw [names]
        exact rest
      exact map_eq_ok.mpr ⟨type, moved, same⟩

end Entry

/-- A program that is run again for another image emits the same bytes and the same pointers. -/
theorem Run.same_bytes {image other : UInt32} {entries : List Entry} {builder twin : Builder}
    (run : Run image entries builder) (again : Run other (entries.map (Entry.inImage other)) twin) :
    twin.bytes = builder.bytes ∧ twin.relocations = builder.relocations := by
  induction run using keeps generalizing twin with
  | empty =>
      cases again
      exact ⟨rfl, rfl⟩
  | step entries builder entry emission _ _ emits own ih =>
      cases again with
      | declare before declared found _ =>
          obtain ⟨moved, emission', same, emits', rfl, _⟩ := Builder.declare_eq_ok declared
          cases Option.some.inj (found.symm.trans same)
          obtain ⟨bytes, relocations⟩ := ih before
          have first := Entry.emission_inImage other (Entry.emission_of_emits emits)
          have second := Entry.emission_of_emits emits'
          rw [before.image_eq, bytes] at second
          obtain rfl := Except.ok.inj (second.symm.trans first)
          simp [Builder.append, bytes, relocations]

end TypeReflection
