import TypeReflection.Image.Emission.Type
import TypeReflection.Proofs.Reading

/-! # Definitions that settings lead to

Whatever settings are made, the kind word of a definition is never that of the other shape.
-/

namespace TypeReflection

/-- The kind word of types for which no other is set. -/
def usualKindWord : TypeKind → UInt64
  | .structType => 0x200
  | .classType => 0

namespace NominalDefinition

/-- The kind word in the metadata of a type of the given shape. -/
def kindWord (definition : NominalDefinition) (kind : TypeKind) : UInt64 :=
  definition.rawKind.getD (usualKindWord kind)

/-- The shape that the kind word stands for, if it stands for one. -/
def shape? (definition : NominalDefinition) (kind : TypeKind) : Option TypeKind :=
  (MetadataKind.ofRaw (definition.kindWord kind)).typeKind?

/-- The kind word does not stand for the other shape. -/
def Fits (definition : NominalDefinition) (kind : TypeKind) : Prop :=
  ∀ found ∈ definition.shape? kind, found = kind

/-- A kind word that stands for a shape stands for the right one. -/
theorem Fits.shape_eq {definition : NominalDefinition} {kind : TypeKind}
    (fits : definition.Fits kind) (given : definition.shape? kind ≠ none) :
    definition.shape? kind = some kind := by
  obtain ⟨found, some⟩ := Option.ne_none_iff_exists'.mp given
  rw [some, fits found some]

theorem storedKind_eq (definition : NominalDefinition) (kind : TypeKind) :
    definition.storedKind (usualKindWord kind).toNat
      = littleEndian 8 (definition.kindWord kind).toNat := by
  rw [storedKind, kindWord]
  cases definition.rawKind <;> rfl

theorem fits_set {definition next : NominalDefinition} {kind : TypeKind}
    {setting : NominalSetting} (fits : definition.Fits kind)
    (given : definition.set kind setting = .ok next) : next.Fits kind := by
  cases setting with
  | rawKind raw =>
      dsimp only [set] at given
      intro found member
      split at given
      case h_1 none =>
          cases given
          exact absurd (none.symm.trans (Option.mem_def.mp member)) (by simp)
      case h_2 other some =>
          split at given
          case isTrue same =>
              cases given
              exact (Option.some.inj (some.symm.trans (Option.mem_def.mp member))).symm.trans same
          case isFalse => cases given
  | parent parent =>
      cases given
      exact fits
  | field field =>
      cases given
      exact fits
  | recordSize size =>
      cases given
      exact fits
  | withoutFieldDescriptor =>
      cases given
      exact fits
  | encodedName bytes =>
      cases given
      exact fits

theorem fits_named (name : String) (kind : TypeKind) : (named name).Fits kind := by
  have usual : (MetadataKind.ofRaw (usualKindWord kind)).typeKind? = some kind := by
    cases kind <;> decide +kernel
  intro found member
  exact Option.some.inj ((Option.mem_def.mp member).symm.trans usual)

end NominalDefinition

theorem StructDefinition.fits_ofSettings {name : String} {settings : List StructSetting}
    {definition : StructDefinition} (given : ofSettings name settings = .ok definition) :
    definition.nominal.Fits .structType := by
  refine foldlM_keeps (motive := fun definition => definition.nominal.Fits .structType)
    (NominalDefinition.fits_named name .structType) ?_ given
  intro state setting next fits given
  cases setting with
  | nominal setting =>
      obtain ⟨nominal, set, same⟩ := bind_eq_ok.mp given
      cases same
      exact NominalDefinition.fits_set fits set
  | offsets offsets =>
      cases given
      exact fits

theorem ClassDefinition.fits_ofSettings {name : String} {settings : List ClassSetting}
    {definition : ClassDefinition} (given : ofSettings name settings = .ok definition) :
    definition.nominal.Fits .classType := by
  refine foldlM_keeps (motive := fun definition => definition.nominal.Fits .classType)
    (NominalDefinition.fits_named name .classType) ?_ given
  intro state setting next fits given
  cases setting with
  | nominal setting =>
      obtain ⟨nominal, set, same⟩ := bind_eq_ok.mp given
      cases same
      exact NominalDefinition.fits_set fits set
  | superclass metadata encodedName =>
      cases given
      exact fits
  | instanceSize size =>
      cases given
      exact fits
  | withoutDescriptor =>
      cases given
      exact fits

/-- An offset vector that is emitted has an entry for each field. -/
theorem StructDefinition.length_offsets {definition : StructDefinition} {offsets : List UInt32}
    (checked : definition.checkOffsets = .ok ()) (given : definition.offsets = some offsets) :
    offsets.length = definition.nominal.fields.length := by
  unfold checkOffsets at checked
  rw [given] at checked
  dsimp only at checked
  split at checked
  case isTrue same => exact same
  case isFalse => cases checked

end TypeReflection
