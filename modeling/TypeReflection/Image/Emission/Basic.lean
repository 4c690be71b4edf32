import TypeReflection.Image.Error
import TypeReflection.Scalar

/-! # Emission

A definition is emitted as bytes that go behind those of the image so far. Where each part will
stand follows from the sizes of the parts before it, so links are known when the record that holds
them is written, and no emitted byte is touched again. Only pointers depend on where the image will
lie; they are left zero and listed as relocations.
-/

namespace TypeReflection

/-- A pointer that is to be filled in: where it stands and what it points to, as positions in the
    image. -/
structure Relocation where
  position : Nat
  target : Nat
  deriving Repr, DecidableEq

/-- What goes behind the bytes of an image. -/
structure Emission where
  bytes : List UInt8
  relocations : List Relocation
  deriving Repr, DecidableEq

/-- The first multiple of `alignment` from `position` on. -/
def alignUp (position alignment : Nat) : Nat :=
  (position + (alignment - 1)) / alignment * alignment

theorem le_alignUp (position : Nat) {alignment : Nat} (positive : 0 < alignment) :
    position ≤ alignUp position alignment := by
  have := Nat.div_add_mod' (position + (alignment - 1)) alignment
  have := Nat.mod_lt (position + (alignment - 1)) positive
  unfold alignUp
  omega

theorem dvd_alignUp (position alignment : Nat) : alignment ∣ alignUp position alignment :=
  Nat.dvd_mul_left ..

/-- So many zero bytes. -/
def zeros (count : Nat) : List UInt8 :=
  List.replicate count 0

@[simp] theorem length_zeros (count : Nat) : (zeros count).length = count :=
  List.length_replicate

/-- The zero bytes from `position` to the next multiple of `alignment`. -/
def padding (position alignment : Nat) : List UInt8 :=
  zeros (alignUp position alignment - position)

/-- Behind the padding stands the next multiple of the alignment. -/
theorem add_length_padding (position : Nat) {alignment : Nat} (positive : 0 < alignment) :
    position + (padding position alignment).length = alignUp position alignment := by
  have := le_alignUp position positive
  simp only [padding, length_zeros]
  omega

/-- The offset that leads from one position to another. -/
def linkOffset (anchor target : Nat) : Except BuildError Int32 :=
  let offset : Int := target - anchor
  if -0x80000000 ≤ offset ∧ offset < 0x80000000 then .ok (.ofInt offset)
  else .error (.offsetTooLarge offset)

/-- The stored form of an offset. -/
def storedOffset (offset : Int32) : List UInt8 :=
  littleEndian 4 offset.toUInt32.toNat

@[simp] theorem length_storedOffset (offset : Int32) : (storedOffset offset).length = 4 :=
  length_littleEndian ..

end TypeReflection
