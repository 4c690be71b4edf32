import TypeReflection.Context.Kind

/-! # Flags of contexts

Bits 0 to 4 of the flags word are the kind, bit 6 marks unique and bit 7 generic contexts, bits 8 to
15 are the format version and the upper half belongs to the kind.
-/

namespace TypeReflection

/-- The flags word at the start of a context descriptor. -/
structure ContextFlags where
  bits : UInt32
  deriving Repr, DecidableEq

namespace ContextFlags

/-- Mask of the kind. -/
def kindMask : UInt32 := 0x1F

/-- Mark of unique descriptors. -/
def uniqueMask : UInt32 := 0x40

/-- Mark of generic contexts. -/
def genericMask : UInt32 := 0x80

/-- Flags of a descriptor of the given kind with no other bit set. -/
def ofKind (kind : ContextKind) : ContextFlags :=
  ⟨kind.raw.toUInt32 &&& kindMask⟩

def kind (flags : ContextFlags) : ContextKind :=
  .ofRaw (flags.bits &&& kindMask).toUInt8

def isUnique (flags : ContextFlags) : Bool :=
  flags.bits &&& uniqueMask != 0

def isGeneric (flags : ContextFlags) : Bool :=
  flags.bits &&& genericMask != 0

def version (flags : ContextFlags) : UInt8 :=
  (flags.bits >>> 8).toUInt8

/-- The upper half, whose meaning depends on the kind. -/
def kindSpecific (flags : ContextFlags) : UInt16 :=
  (flags.bits >>> 16).toUInt16

/-- Text of the decoded flags. -/
def text (flags : ContextFlags) : String :=
  s!"ContextDescriptorFlags \x7b kind: {flags.kind.text}, unique: {flags.isUnique}, "
    ++ s!"generic: {flags.isGeneric}, version: {flags.version.toNat}, "
    ++ s!"kind_specific: {flags.kindSpecific.toNat} \x7d"

end ContextFlags

end TypeReflection
