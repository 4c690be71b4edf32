import TypeReflection.Format

/-! # Kinds of metadata

The first word of type metadata is its kind. A word above the last enumerated kind is an isa
pointer, which only classes have.
-/

namespace TypeReflection

/-- Shape of a reflectable type. -/
inductive TypeKind where
  /-- Aggregate that is copied. -/
  | structType
  /-- Aggregate that is shared and has an identity. -/
  | classType
  deriving Repr, DecidableEq

/-- Name of the shape. -/
def TypeKind.name : TypeKind → String
  | .structType => "struct"
  | .classType => "class"

/-- Decoded kind word of type metadata. -/
inductive MetadataKind where
  | classType
  /-- Struct kind from before the non-heap bit existed. -/
  | legacyStruct
  | structType
  | enumType
  | optional
  | foreignClass
  | opaqueType
  | tuple
  | function
  | existential
  | metatype
  | objectiveCClassWrapper
  | existentialMetatype
  | heapLocalVariable
  | heapGenericLocalVariable
  | errorObject
  /-- An enumerated number without a name. -/
  | other (raw : UInt64)
  /-- Not an enumerated number, so the isa pointer of a class. -/
  | isaPointer (raw : UInt64)
  deriving Repr, DecidableEq

namespace MetadataKind

open Format in
/-- The enumerated kinds that have a name, by number. -/
def enumerated : List (Nat × MetadataKind) :=
  [ (0, classType),
    (legacyStructKind, legacyStruct),
    (nonHeapKind, structType),
    (nonHeapKind + 1, enumType),
    (nonHeapKind + 2, optional),
    (nonHeapKind + 3, foreignClass),
    (nonHeapKind + runtimePrivateKind, opaqueType),
    (nonHeapKind + runtimePrivateKind + 1, tuple),
    (nonHeapKind + runtimePrivateKind + 2, function),
    (nonHeapKind + runtimePrivateKind + 3, existential),
    (nonHeapKind + runtimePrivateKind + 4, metatype),
    (nonHeapKind + runtimePrivateKind + 5, objectiveCClassWrapper),
    (nonHeapKind + runtimePrivateKind + 6, existentialMetatype),
    (nonTypeKind, heapLocalVariable),
    (nonTypeKind + runtimePrivateKind, heapGenericLocalVariable),
    (nonTypeKind + runtimePrivateKind + 1, errorObject) ]

/-- The kind that a kind word stands for. -/
def ofRaw (raw : UInt64) : MetadataKind :=
  match enumerated.lookup raw.toNat with
  | some kind => kind
  | none => if Format.lastEnumeratedKind < raw.toNat then .isaPointer raw else .other raw

/-- The reflectable shape of a kind, if it has one. -/
def typeKind? : MetadataKind → Option TypeKind
  | .structType | .legacyStruct => some .structType
  | .classType | .isaPointer _ => some .classType
  | _ => none

/-- Text of a kind. -/
def text : MetadataKind → String
  | .classType => "Class"
  | .legacyStruct => "LegacyStruct"
  | .structType => "Struct"
  | .enumType => "Enum"
  | .optional => "Optional"
  | .foreignClass => "ForeignClass"
  | .opaqueType => "Opaque"
  | .tuple => "Tuple"
  | .function => "Function"
  | .existential => "Existential"
  | .metatype => "Metatype"
  | .objectiveCClassWrapper => "ObjCClassWrapper"
  | .existentialMetatype => "ExistentialMetatype"
  | .heapLocalVariable => "HeapLocalVariable"
  | .heapGenericLocalVariable => "HeapGenericLocalVariable"
  | .errorObject => "ErrorObject"
  | .other raw => s!"Other({raw.toNat})"
  | .isaPointer raw => s!"IsaPointer({raw.toNat})"

end MetadataKind

end TypeReflection
