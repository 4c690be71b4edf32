import TypeReflection.Address
import TypeReflection.Metadata.Error
import TypeReflection.Scalar

/-! # Faults

A fault is the reason why reading stopped. Accessors that promise a value for well-formed metadata
end in a fault on any other; checking readers report malformed metadata as an error of its own, and
`strict` makes a fault of it.
-/

namespace TypeReflection

/-- Why reading stopped. -/
inductive Fault where
  /-- No memory is mapped at the address. -/
  | unmapped (address : UInt64)
  /-- A number was read at an address that is not a multiple of its size. -/
  | misalignedRead (scalar : Scalar) (address : Address)
  /-- A run of numbers starts at an address that is not a multiple of their size. -/
  | misalignedSlice (scalar : Scalar) (address : Address)
  /-- Adding `delta` to `base` gave null. -/
  | wrappedToNull (base : Address) (delta : Int64)
  /-- The offset stored at `anchor` stands for no target. -/
  | absentOffset (anchor : UInt64)
  /-- The target of an absent link was asked for. -/
  | absentLink (anchor : Address)
  /-- The slot of an indirect link is not word aligned. -/
  | misalignedSlot (slot : Address)
  /-- The slot of an indirect link holds null. -/
  | nullSlot (slot : Address)
  /-- A link leads to a context at an address where none can start. -/
  | misalignedContext (address : Address)
  /-- The metadata is malformed. -/
  | malformed (error : MetadataError)
  /-- A chain of links never ends. -/
  | endlessChain
  deriving Repr, DecidableEq

/-- Text of a fault. -/
def Fault.message : Fault → String
  | .unmapped address => s!"no memory at {hex address.toNat}"
  | .misalignedRead scalar address => s!"misaligned read of {scalar.name} at {address.text}"
  | .misalignedSlice .. => "assertion failed: self.is_aligned_to(std::mem::align_of::<T>())"
  | .wrappedToNull base delta =>
      s!"address arithmetic wrapped to null: {base.text} + {delta.toInt}"
  | .absentOffset anchor =>
      s!"relative offset at {hex anchor.toNat} is absent "
        ++ "(caller must check `is_absent` first)"
  | .absentLink anchor =>
      s!"relative offset at {anchor.text} is absent "
        ++ "(caller must check `is_null` before resolving)"
  | .misalignedSlot slot =>
      s!"indirect pointer slot at {slot.text} is not {Format.wordSize}-byte aligned"
  | .nullSlot slot => s!"indirect relative pointer slot at {slot.text} holds null"
  | .misalignedContext address =>
      "metawalk_abi::context::ContextDescriptor<\x27_> at "
        ++ s!"{address.text} is not {Format.descriptorAlignment}-byte aligned"
  | .malformed error => error.message
  | .endlessChain => "the chain of links never ends"

namespace Address

/-- The address `delta` bytes away, in either direction. -/
def offset (address : Address) (delta : Int64) : Except Fault Address :=
  match address.offset? delta with
  | some moved => .ok moved
  | none => .error (.wrappedToNull address delta)

/-- The address `count` bytes forward, counts above the signed range wrapping around. -/
def add (address : Address) (count : UInt64) : Except Fault Address :=
  address.offset count.toInt64

end Address

/-- Why a checking reader gave no view. -/
inductive Failure where
  /-- The check failed. -/
  | rejected (error : MetadataError)
  /-- Reading what the check needs stopped. -/
  | faulted (fault : Fault)
  deriving Repr, DecidableEq

/-- The fault that a failure is where no check was asked for. -/
def Failure.toFault : Failure → Fault
  | .rejected error => .malformed error
  | .faulted fault => fault

instance : MonadLift (Except Fault) (Except Failure) where
  monadLift reading := reading.mapError .faulted

instance : MonadLift (Except MetadataError) (Except Failure) where
  monadLift checked := checked.mapError .rejected

/-- The result of a checking reader, malformed metadata being a fault. -/
def strict {α : Type} (checked : Except Failure α) : Except Fault α :=
  checked.mapError Failure.toFault

end TypeReflection
