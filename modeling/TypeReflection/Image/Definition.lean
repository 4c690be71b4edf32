import TypeReflection.Field.Flags
import TypeReflection.Image.Error

/-! # Definitions of types

What a type is to look like before it is emitted. Definitions start from a name and are completed
one setting at a time.
-/

namespace TypeReflection

/-- A stored field. -/
structure FieldDefinition where
  name : String
  /-- Encoded name of the type, nothing for a field whose record has none. -/
  typeName : Option (List UInt8)
  flags : FieldFlags
  deriving Repr, DecidableEq

/-- How a type refers to its enclosing context. -/
inductive ParentReference where
  | direct (context : Symbol)
  /-- Through a slot that holds the address of the context. -/
  | indirect (context : Symbol)
  deriving Repr, DecidableEq

/-- The context that a type is enclosed in. -/
def ParentReference.context : ParentReference → Symbol
  | .direct context | .indirect context => context

/-- What definitions of structs and classes have in common. -/
structure NominalDefinition where
  name : String
  parent : Option ParentReference
  fields : List FieldDefinition
  /-- The kind word, if it is not the usual one. -/
  rawKind : Option UInt64
  /-- Declared size of the field records. -/
  recordSize : UInt16
  /-- Whether there is a field descriptor. -/
  hasFieldDescriptor : Bool
  /-- Encoded name of the type, for the header of the field descriptor. -/
  encodedName : Option (List UInt8)
  deriving Repr, DecidableEq

/-- The definition with a name and the usual settings. -/
def NominalDefinition.named (name : String) : NominalDefinition where
  name := name
  parent := none
  fields := []
  rawKind := none
  recordSize := .ofNat Format.FieldRecord.size
  hasFieldDescriptor := true
  encodedName := none

/-- One setting that structs and classes have in common. -/
inductive NominalSetting where
  | parent (parent : ParentReference)
  /-- One more field. -/
  | field (field : FieldDefinition)
  | rawKind (raw : UInt64)
  | recordSize (size : UInt16)
  | withoutFieldDescriptor
  | encodedName (bytes : List UInt8)
  deriving Repr, DecidableEq

/-- The definition of a type of the given shape after one more setting. A kind word that stands for
    the other shape is refused. -/
def NominalDefinition.set (definition : NominalDefinition) (kind : TypeKind) :
    NominalSetting → Except BuildError NominalDefinition
  | .parent parent => .ok { definition with parent := some parent }
  | .field field => .ok { definition with fields := definition.fields ++ [field] }
  | .rawKind raw =>
      match (MetadataKind.ofRaw raw).typeKind? with
      | none => .ok { definition with rawKind := some raw }
      | some found =>
          if found = kind then .ok { definition with rawKind := some raw }
          else .error (.kindWordMismatch raw kind)
  | .recordSize size => .ok { definition with recordSize := size }
  | .withoutFieldDescriptor => .ok { definition with hasFieldDescriptor := false }
  | .encodedName bytes => .ok { definition with encodedName := some bytes }

/-- Definition of a struct. -/
structure StructDefinition where
  nominal : NominalDefinition
  /-- The offset vector, if there is one. -/
  offsets : Option (List UInt32)
  deriving Repr, DecidableEq

/-- One setting of a struct. -/
inductive StructSetting where
  | nominal (setting : NominalSetting)
  | offsets (offsets : List UInt32)
  deriving Repr, DecidableEq

namespace StructDefinition

/-- The definition with a name and the usual settings. -/
def named (name : String) : StructDefinition :=
  ⟨.named name, none⟩

/-- The definition after one more setting. -/
def set (definition : StructDefinition) :
    StructSetting → Except BuildError StructDefinition
  | .nominal setting => do
      let nominal ← definition.nominal.set .structType setting
      return { definition with nominal }
  | .offsets offsets => .ok { definition with offsets := some offsets }

/-- The definition with a name and the given settings, in order. -/
def ofSettings (name : String) (settings : List StructSetting) :
    Except BuildError StructDefinition :=
  settings.foldlM set (named name)

end StructDefinition

/-- Definition of a class. -/
structure ClassDefinition where
  nominal : NominalDefinition
  /-- Metadata of the superclass and its encoded name. -/
  superclass : Option (Symbol × List UInt8)
  instanceSize : UInt32
  /-- Whether the metadata points to the descriptor. -/
  isLinked : Bool
  deriving Repr, DecidableEq

/-- One setting of a class. -/
inductive ClassSetting where
  | nominal (setting : NominalSetting)
  | superclass (metadata : Symbol) (encodedName : List UInt8)
  | instanceSize (size : UInt32)
  | withoutDescriptor
  deriving Repr, DecidableEq

namespace ClassDefinition

/-- The definition with a name and the usual settings. -/
def named (name : String) : ClassDefinition :=
  ⟨.named name, none, .ofNat (2 * Format.wordSize), true⟩

/-- The definition after one more setting. -/
def set (definition : ClassDefinition) : ClassSetting → Except BuildError ClassDefinition
  | .nominal setting => do
      let nominal ← definition.nominal.set .classType setting
      return { definition with nominal }
  | .superclass metadata encodedName =>
      .ok { definition with superclass := some (metadata, encodedName) }
  | .instanceSize size => .ok { definition with instanceSize := size }
  | .withoutDescriptor => .ok { definition with isLinked := false }

/-- The definition with a name and the given settings, in order. -/
def ofSettings (name : String) (settings : List ClassSetting) :
    Except BuildError ClassDefinition :=
  settings.foldlM set (named name)

end ClassDefinition

end TypeReflection
