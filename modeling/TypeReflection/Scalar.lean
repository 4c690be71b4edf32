/-! # Stored numbers

Numbers of one, two, four or eight bytes, stored with the least significant byte first.
-/

namespace TypeReflection

/-- How many different numbers `width` bytes can hold. -/
def capacity : (width : Nat) → Nat
  | 0 => 1
  | width + 1 => 256 * capacity width

/-- Shape of a stored number: its width, and whether its top bit is a sign. -/
inductive Scalar where
  | u8
  | i8
  | u16
  | i16
  | u32
  | i32
  /-- Unsigned machine word. -/
  | word
  deriving Repr, DecidableEq

namespace Scalar

/-- Width in bytes, which is also the alignment. -/
def size : Scalar → Nat
  | .u8 | .i8 => 1
  | .u16 | .i16 => 2
  | .u32 | .i32 => 4
  | .word => 8

/-- Whether the top bit is a sign. -/
def isSigned : Scalar → Bool
  | .i8 | .i16 | .i32 => true
  | .u8 | .u16 | .u32 | .word => false

/-- Name of the shape. -/
def name : Scalar → String
  | .u8 => "u8"
  | .i8 => "i8"
  | .u16 => "u16"
  | .i16 => "i16"
  | .u32 => "u32"
  | .i32 => "i32"
  | .word => "usize"

/-- The number that stored bits stand for: two's complement where the top bit is a sign. -/
def value (scalar : Scalar) (bits : Nat) : Int :=
  if scalar.isSigned then Int.bmod bits (capacity scalar.size) else bits

end Scalar

/-- The `width` low bytes of `value`, least significant first. -/
def littleEndian : (width value : Nat) → List UInt8
  | 0, _ => []
  | width + 1, value => UInt8.ofNat value :: littleEndian width (value / 256)

/-- The number whose bytes these are, least significant first. -/
def ofLittleEndian : List UInt8 → Nat
  | [] => 0
  | byte :: bytes => byte.toNat + 256 * ofLittleEndian bytes

@[simp] theorem length_littleEndian (width value : Nat) :
    (littleEndian width value).length = width := by
  induction width generalizing value with
  | zero => rfl
  | succ width ih => simp [littleEndian, ih]

/-- Reading the low bytes of a number gives the number, as far as they reach. -/
theorem ofLittleEndian_littleEndian (width value : Nat) :
    ofLittleEndian (littleEndian width value) = value % capacity width := by
  induction width generalizing value with
  | zero => simp [littleEndian, ofLittleEndian, capacity, Nat.mod_one]
  | succ width ih =>
      have low : (UInt8.ofNat value).toNat = value % 256 := UInt8.toNat_ofNat'
      rw [littleEndian, ofLittleEndian, ih, low, capacity, Nat.mod_mul]

end TypeReflection
