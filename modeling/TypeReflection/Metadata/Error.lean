import TypeReflection.Context.Kind
import TypeReflection.Metadata.Kind
import TypeReflection.Text.Numeral

/-! # Malformed metadata

The ways in which memory can fail to be the metadata that it was taken for. Errors may name a record
or an expected shape by any text; the names that the checking readers give to records are listed
here.
-/

namespace TypeReflection

/-! ## Names of the records whose alignment is checked before they are read -/

namespace RecordName

def typeMetadata : String := "type metadata"
def contextDescriptor : String := "context descriptor"
def fieldDescriptor : String := "field descriptor"

end RecordName

/-! ## Errors -/

/-- Why memory is not the metadata that it was taken for. -/
inductive MetadataError where
  /-- The kind word stands for neither a struct nor a class. -/
  | unsupportedKind (handle raw : UInt64)
  /-- The kind word stands for another shape than the one with the name `expected`. -/
  | wrongKind (handle : UInt64) (expected : String)
  /-- The record with the name `record` starts at an address that it cannot start at. -/
  | misaligned (record : String) (address : UInt64) (alignment : Nat)
  /-- The descriptor word of a struct is null. -/
  | nullDescriptor (handle : UInt64)
  /-- The descriptor describes something else than the metadata does. -/
  | descriptorKindMismatch (address : UInt64) (expected found : ContextKind)
  /-- The declared size of the field records is too small or breaks their alignment. -/
  | invalidFieldRecordSize (address : UInt64) (size : UInt16)
  /-- Field counts and offsets are not reported for classes. -/
  | classFieldLayoutUnsupported (handle : UInt64)
  deriving Repr, DecidableEq

/-- Text of an error. -/
def MetadataError.message : MetadataError → String
  | .unsupportedKind handle raw =>
      s!"type handle {hex handle.toNat} has metadata kind {hex raw.toNat}, "
        ++ "which is neither a struct nor a class"
  | .wrongKind handle expected => s!"type handle {hex handle.toNat} is not a {expected}"
  | .misaligned record address alignment =>
      s!"{record} at {hex address.toNat} is not {alignment}-byte aligned"
  | .nullDescriptor handle => s!"type handle {hex handle.toNat} has no descriptor"
  | .descriptorKindMismatch address expected found =>
      s!"descriptor at {hex address.toNat} describes a {found.text}, expected a {expected.text}"
  | .invalidFieldRecordSize address size =>
      s!"field descriptor at {hex address.toNat} declares record size {size.toNat} "
        ++ "(minimum 12, multiple of 4)"
  | .classFieldLayoutUnsupported handle =>
      s!"field layout of class {hex handle.toNat} is not supported"

end TypeReflection
