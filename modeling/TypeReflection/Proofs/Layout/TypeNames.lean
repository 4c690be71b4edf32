import TypeReflection.Proofs.EncodedName.Shown
import TypeReflection.Proofs.Layout.Agreement

/-! # Type names in layouts

The type of a field stands in a layout as its encoded name is shown. Where no such name has a
backslash they can all be told from the layout.
-/

namespace TypeReflection

/-- The name that a text shows. -/
def EncodedName.ofShown (text : String) : EncodedName :=
  ⟨unescape text.toList⟩

/-- The encoded names of the types of the fields behind a handle, in the order of the fields. -/
def TypeHandle.fieldTypeNames (handle : TypeHandle) (memory : Memory) :
    Except Failure (List (Option EncodedName)) := do
  let type ← ReflectedType.check handle memory
  match ← type.checkFields memory with
  | some descriptor => return (← descriptor.records memory).map FieldRecord.typeName
  | none => return []

/-- The types of the fields as a layout shows them. -/
def TypeLayout.typeNames (layout : TypeLayout) : List (Option String) :=
  layout.fields.map FieldLayout.typeName

theorem EncodedName.ofShown_shown {name : EncodedName} (plain : backslash ∉ name.bytes) :
    ofShown name.shown = name :=
  congrArg EncodedName.mk (unescape_shown plain)

theorem EncodedName.map_ofShown_shown {names : List (Option EncodedName)}
    (plain : ∀ name, some name ∈ names → backslash ∉ name.bytes) :
    (names.map (Option.map shown)).map (Option.map ofShown) = names := by
  rw [List.map_map]
  refine (List.map_congr_left fun name member => ?_).trans (List.map_id names)
  cases name with
  | none => rfl
  | some name => exact congrArg some (ofShown_shown (plain name member))

namespace TypeLayout

variable {handle : TypeHandle} {memory : Memory} {layout : TypeLayout}

theorem typeName_of_made {record : FieldRecord} {offset : Except Fault (Option UInt32)}
    {field : FieldLayout} (made : FieldLayout.ofRecord record <$> offset = .ok field) :
    field.typeName = record.typeName.map EncodedName.shown := by
  obtain ⟨offset, -, rfl⟩ := map_eq_ok.mp made
  rfl

theorem typeNames_of_fieldsOf {descriptor : FieldDescriptor} {vector : Option Slice}
    {fields : List FieldLayout} (collected : fieldsOf descriptor vector memory = .ok fields) :
    ∃ records, descriptor.records memory = .ok records ∧
      fields.map FieldLayout.typeName =
        (records.map FieldRecord.typeName).map (Option.map EncodedName.shown) := by
  obtain ⟨records, listed, built⟩ := bind_eq_ok.mp collected
  refine ⟨records, listed, ?_⟩
  obtain ⟨paired, made⟩ := List.forall₂_iff_get.mp (mapM_eq_ok_iff.mp built)
  rw [List.length_zipIdx] at paired
  refine List.ext_getElem (by simp [paired]) fun index inside _ => ?_
  rw [List.length_map] at inside
  have item := made index (by rw [List.length_zipIdx]; omega) inside
  simpa using typeName_of_made item

theorem fields_of_ofType {type : ReflectedType} (given : ofType type memory = .ok layout) :
    ∃ descriptor vector, type.checkFields memory = .ok descriptor ∧
      fieldsOf? descriptor vector memory = .ok layout.fields := by
  obtain ⟨vector, -, rest⟩ := bind_eq_ok.mp given
  obtain ⟨descriptor, passed, rest⟩ := bind_eq_ok.mp rest
  obtain ⟨fields, read, rest⟩ := bind_eq_ok.mp rest
  obtain ⟨superclass, -, rest⟩ := bind_eq_ok.mp rest
  obtain ⟨superclassName, -, rest⟩ := bind_eq_ok.mp rest
  obtain ⟨name, -, rest⟩ := bind_eq_ok.mp rest
  obtain ⟨qualifiedName, -, rest⟩ := bind_eq_ok.mp rest
  obtain ⟨fieldCount, -, rest⟩ := bind_eq_ok.mp rest
  cases rest
  exact ⟨descriptor, vector, passed, eq_ok_of_liftM read⟩

/-- A layout shows the encoded names of the types of the fields. -/
theorem typeNames_of_ofHandle (given : ofHandle handle memory = .ok layout) :
    ∃ names, handle.fieldTypeNames memory = .ok names ∧
      layout.typeNames = names.map (Option.map EncodedName.shown) := by
  obtain ⟨type, accepted, collected⟩ := bind_eq_ok.mp given
  obtain ⟨descriptor, vector, passed, read⟩ := fields_of_ofType collected
  rw [TypeHandle.fieldTypeNames, bind_of_ok accepted, bind_of_ok passed]
  cases descriptor with
  | none =>
    have empty : layout.fields = [] := (Except.ok.inj read).symm
    exact ⟨[], rfl, by rw [typeNames, empty, List.map_nil, List.map_nil]⟩
  | some descriptor =>
    obtain ⟨records, listed, shown⟩ := typeNames_of_fieldsOf read
    exact ⟨_, lift_bind_of_ok listed, shown⟩

/-- Shown names are printable ASCII, and those without a backslash can be told from what is shown of
    them; so the encoded names of the types of the fields can be told from a layout. -/
theorem typeNames_determined :
    (∀ name : EncodedName,
      (∀ char ∈ name.shown.toList, 0x20 ≤ char.toNat ∧ char.toNat ≤ 0x7E) ∧
        (backslash ∉ name.bytes → unescape name.shown.toList = name.bytes) ∧
        ∀ other : EncodedName, backslash ∉ name.bytes → backslash ∉ other.bytes →
          name.shown = other.shown → name = other) ∧
      ∀ (handle : TypeHandle) (memory : Memory) (layout : TypeLayout),
        ofHandle handle memory = .ok layout →
          ∃ names, handle.fieldTypeNames memory = .ok names ∧
            layout.typeNames = names.map (Option.map EncodedName.shown) ∧
            ((∀ name, some name ∈ names → backslash ∉ name.bytes) →
              layout.typeNames.map (Option.map EncodedName.ofShown) = names) := by
  constructor
  · intro name
    exact ⟨fun _ => EncodedName.toNat_bounds_of_mem_shown, EncodedName.unescape_shown,
      fun _ => EncodedName.shown_injective⟩
  · intro handle memory layout given
    obtain ⟨names, read, shown⟩ := typeNames_of_ofHandle given
    refine ⟨names, read, shown, fun plain => ?_⟩
    rw [shown, EncodedName.map_ofShown_shown plain]

/-- The struct `P` again, with a type for its first field that is named by reference. -/
def referringStruct : Memory :=
  (pairStruct.store 0x1014 #[0x18, 0, 0, 0]).store 0x102C #[1, 0x20, 0, 0, 0xFF, 0x53, 0x67, 0]

/-- A payload with zeros, a space and a byte that is no ASCII. -/
theorem typeNames_determined_referringStruct :
    let name : EncodedName := ⟨[1, 0x20, 0, 0, 0xFF, 0x53, 0x67]⟩
    let shown : List Char :=
      ['\\', 'x', '0', '1', ' ', '\\', 'x', '0', '0', '\\', 'x', '0', '0', '\\', 'x', 'f', 'f',
        'S', 'g']
    name.shown.toList = shown ∧ unescape shown = name.bytes ∧
      EncodedName.ofShown (String.ofList shown) = name ∧
      ∃ layout, ofHandle ⟨0x2000, by decide⟩ referringStruct = .ok layout ∧
        layout.typeNames = [some (String.ofList shown), none] ∧
        layout.typeNames.map (Option.map EncodedName.ofShown) = [some name, none] := by
  intro name shown
  have shows : name.shown.toList = shown := by decide +kernel
  have plain : backslash ∉ name.bytes := by decide
  obtain ⟨ofName, ofLayout⟩ := typeNames_determined
  obtain ⟨-, back, unique⟩ := ofName name
  refine ⟨shows, shows ▸ back plain, ?_, ?_⟩
  · exact (unique _ plain (by decide +kernel) (by decide +kernel)).symm
  · have collected : ofHandle ⟨0x2000, by decide⟩ referringStruct = .ok
        ⟨.structType, some "P", some "P", some 1, none,
          [⟨"x", some 4, some (String.ofList shown), ⟨0⟩⟩, ⟨"y", none, none, ⟨2⟩⟩]⟩ :=
      ok_of_toOption (by decide +kernel)
    have listed : TypeHandle.fieldTypeNames ⟨0x2000, by decide⟩ referringStruct
        = .ok [some name, none] :=
      ok_of_toOption (by decide +kernel)
    obtain ⟨names, read, -, told⟩ := ofLayout _ _ _ collected
    obtain rfl := Except.ok.inj (listed.symm.trans read)
    exact ⟨_, collected, rfl, told (by simpa using plain)⟩

end TypeLayout

end TypeReflection
