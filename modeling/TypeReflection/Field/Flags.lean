import TypeReflection.Text.Numeral

/-! # Flags of field records

Three bits have a meaning; the others are kept as stored.
-/

namespace TypeReflection

/-- The flags word of a field record. -/
structure FieldFlags where
  bits : UInt32
  deriving Repr, DecidableEq

namespace FieldFlags

/-- No flag. -/
def empty : FieldFlags := ⟨0⟩

/-- Mark of enum cases that are stored out of line. -/
def indirectCaseMask : UInt32 := 0x1

/-- Mark of mutable stored properties. -/
def variableMask : UInt32 := 0x2

/-- Mark of fields that the compiler made. -/
def artificialMask : UInt32 := 0x4

/-- Whether every bit of `mask` is set. -/
def contains (flags : FieldFlags) (mask : UInt32) : Bool :=
  flags.bits &&& mask == mask

def isIndirectCase (flags : FieldFlags) : Bool :=
  flags.contains indirectCaseMask

def isVariable (flags : FieldFlags) : Bool :=
  flags.contains variableMask

def isArtificial (flags : FieldFlags) : Bool :=
  flags.contains artificialMask

/-- Text of the flags word. -/
def text (flags : FieldFlags) : String :=
  s!"FieldRecordFlags({hex flags.bits.toNat})"

end FieldFlags

end TypeReflection
