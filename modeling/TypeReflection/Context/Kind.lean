/-! # Kinds of contexts

The kind of a context is a number of five bits. A number without a name of its own is kept as it
is.
-/

namespace TypeReflection

/-- What a context descriptor describes. -/
inductive ContextKind where
  | module
  | extension
  | anonymous
  | protocol
  | opaqueType
  | classType
  | structType
  | enumType
  /-- A number given as it is. -/
  | other (raw : UInt8)
  deriving Repr, DecidableEq

namespace ContextKind

/-- The kind with the given number. -/
def ofRaw (raw : UInt8) : ContextKind :=
  match raw.toNat with
  | 0 => .module
  | 1 => .extension
  | 2 => .anonymous
  | 3 => .protocol
  | 4 => .opaqueType
  | 16 => .classType
  | 17 => .structType
  | 18 => .enumType
  | _ => .other raw

/-- The number of a kind. -/
def raw : ContextKind → UInt8
  | .module => 0
  | .extension => 1
  | .anonymous => 2
  | .protocol => 3
  | .opaqueType => 4
  | .classType => 16
  | .structType => 17
  | .enumType => 18
  | .other raw => raw

/-- A kind has the number that it was decoded from. -/
@[simp] theorem raw_ofRaw (number : UInt8) : (ofRaw number).raw = number := by
  unfold ofRaw
  split
  case h_9 => rfl
  all_goals rename_i is; exact (UInt8.toNat_inj.1 is).symm

/-- Whether the number lies in the range of nominal types. -/
def isType (kind : ContextKind) : Bool :=
  16 ≤ kind.raw && kind.raw ≤ 31

/-- Whether descriptors of this kind store a name after the parent link. -/
def hasName (kind : ContextKind) : Bool :=
  kind = .module || kind = .protocol || kind.isType

/-- Text of a kind. -/
def text : ContextKind → String
  | .module => "Module"
  | .extension => "Extension"
  | .anonymous => "Anonymous"
  | .protocol => "Protocol"
  | .opaqueType => "OpaqueType"
  | .classType => "Class"
  | .structType => "Struct"
  | .enumType => "Enum"
  | .other raw => s!"Other({raw.toNat})"

end ContextKind

end TypeReflection
