import TypeReflection.Text.Numeral

/-! # Addresses

An address is a non-null 64-bit word. Arithmetic on addresses is modulo 2^64; the one result that
is no address is null.
-/

namespace TypeReflection

/-- A non-null address of a 64-bit address space. -/
structure Address where
  /-- Numeric value. -/
  bits : UInt64
  ne_null : bits ≠ 0
  deriving Repr, DecidableEq

namespace Address

/-- The address with the given value, unless it is null. -/
def ofBits? (bits : UInt64) : Option Address :=
  if h : bits ≠ 0 then some ⟨bits, h⟩ else none

/-- Whether the address is a multiple of `alignment`. No address is a multiple of zero. -/
def isAligned (address : Address) (alignment : Nat) : Bool :=
  address.bits.toNat % alignment == 0

/-- The address `delta` bytes away, in either direction, unless that is null. -/
def offset? (address : Address) (delta : Int64) : Option Address :=
  ofBits? (address.bits + delta.toUInt64)

/-- Hexadecimal text of the address. -/
def text (address : Address) : String :=
  hex address.bits.toNat

end Address

end TypeReflection
