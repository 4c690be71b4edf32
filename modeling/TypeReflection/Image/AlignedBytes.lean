import TypeReflection.Format
import TypeReflection.Scalar

/-! # Aligned storage

Image bytes are kept in blocks of the image alignment, the last of them filled up with zeros. Seen
from outside the storage is the list of its bytes.
-/

namespace TypeReflection

/-- One block of storage. -/
abbrev Block : Type :=
  Vector UInt8 Format.imageAlignment

/-- The block of the first bytes of a list, filled up with zeros. -/
def Block.ofList (bytes : List UInt8) : Block :=
  Vector.ofFn fun index => bytes.getD index 0

/-- Bytes in blocks. -/
structure AlignedBytes where
  blocks : Array Block
  /-- Number of bytes, without those that fill up the last block. -/
  size : Nat

namespace AlignedBytes

/-- How many blocks so many bytes take. -/
def blockCount (size : Nat) : Nat :=
  (size + (Format.imageAlignment - 1)) / Format.imageAlignment

/-- The blocks of a list of bytes. -/
def blocksOf (bytes : List UInt8) : Array Block :=
  Array.ofFn (n := blockCount bytes.length) fun index =>
    Block.ofList (bytes.drop (index * Format.imageAlignment))

/-- Storage of a list of bytes. -/
def ofList (bytes : List UInt8) : AlignedBytes :=
  ⟨blocksOf bytes, bytes.length⟩

/-- The byte at `index`, nothing past the end. -/
def get? (storage : AlignedBytes) (index : Nat) : Option UInt8 :=
  if index < storage.size then do
    let block ← storage.blocks[index / Format.imageAlignment]?
    block[index % Format.imageAlignment]?
  else
    none

/-- All the bytes. -/
def toList (storage : AlignedBytes) : List UInt8 :=
  (storage.blocks.toList.flatMap Vector.toList).take storage.size

/-- The storage with another byte at `index`. -/
def setByte (storage : AlignedBytes) (index : Nat) (byte : UInt8) : AlignedBytes :=
  { storage with
    blocks := storage.blocks.modify (index / Format.imageAlignment) fun block =>
      block.setIfInBounds (index % Format.imageAlignment) byte }

/-- The storage with other bytes from `index` on. -/
def setBytes (storage : AlignedBytes) (index : Nat) : List UInt8 → AlignedBytes
  | [] => storage
  | byte :: bytes => (storage.setByte index byte).setBytes (index + 1) bytes

/-- The storage with another machine word from `index` on, if the word fits. -/
def writeWord? (storage : AlignedBytes) (index : Nat) (word : UInt64) : Option AlignedBytes :=
  if index + Format.wordSize ≤ storage.size then
    some (storage.setBytes index (littleEndian Format.wordSize word.toNat))
  else
    none

end AlignedBytes

end TypeReflection
