/-! # Kinds of field descriptors

The kind of a field descriptor is a number of 16 bits. A number without a name of its own is kept
as it is.
-/

namespace TypeReflection

/-- What kind of type a field descriptor belongs to. -/
inductive FieldDescriptorKind where
  | structType
  | classType
  | enumType
  | multiPayloadEnum
  | protocol
  | classProtocol
  | objectiveCProtocol
  | objectiveCClass
  /-- A number given as it is. -/
  | other (raw : UInt16)
  deriving Repr, DecidableEq

namespace FieldDescriptorKind

/-- The kind with the given number. -/
def ofRaw (raw : UInt16) : FieldDescriptorKind :=
  match raw.toNat with
  | 0 => .structType
  | 1 => .classType
  | 2 => .enumType
  | 3 => .multiPayloadEnum
  | 4 => .protocol
  | 5 => .classProtocol
  | 6 => .objectiveCProtocol
  | 7 => .objectiveCClass
  | _ => .other raw

/-- The number of a kind. -/
def raw : FieldDescriptorKind → UInt16
  | .structType => 0
  | .classType => 1
  | .enumType => 2
  | .multiPayloadEnum => 3
  | .protocol => 4
  | .classProtocol => 5
  | .objectiveCProtocol => 6
  | .objectiveCClass => 7
  | .other raw => raw

/-- A kind has the number that it was decoded from. -/
@[simp] theorem raw_ofRaw (number : UInt16) : (ofRaw number).raw = number := by
  unfold ofRaw
  split
  case h_9 => rfl
  all_goals rename_i is; exact (UInt16.toNat_inj.1 is).symm

/-- Text of a kind. -/
def text : FieldDescriptorKind → String
  | .structType => "Struct"
  | .classType => "Class"
  | .enumType => "Enum"
  | .multiPayloadEnum => "MultiPayloadEnum"
  | .protocol => "Protocol"
  | .classProtocol => "ClassProtocol"
  | .objectiveCProtocol => "ObjCProtocol"
  | .objectiveCClass => "ObjCClass"
  | .other raw => s!"Other({raw.toNat})"

end FieldDescriptorKind

end TypeReflection
