import TypeReflection.Fault
import TypeReflection.Format

/-! # Memory

Memory is what each address holds, if anything is mapped there. Numbers are read at addresses that
are multiples of their size; strings end at the first zero byte.
-/

namespace TypeReflection

/-- Readable memory that does not change. -/
structure Memory where
  /-- The byte at an address, if one is mapped there. -/
  byte? : UInt64 → Option UInt8

namespace Memory

/-- Memory with nothing mapped. -/
def empty : Memory := ⟨fun _ => none⟩

/-- `size` zero bytes from `base` on, and nothing else. -/
def zeroed (base : UInt64) (size : Nat) : Memory :=
  ⟨fun address => if (address - base).toNat < size then some 0 else none⟩

/-- `memory` with `bytes` stored from `base` on. -/
def store (memory : Memory) (base : UInt64) (bytes : Array UInt8) : Memory :=
  ⟨fun address => bytes[(address - base).toNat]?.or (memory.byte? address)⟩

/-- The byte at `address`. -/
def byte (memory : Memory) (address : UInt64) : Except Fault UInt8 :=
  match memory.byte? address with
  | some byte => .ok byte
  | none => .error (.unmapped address)

/-- The `count` bytes from `address` on. -/
def bytes (memory : Memory) (address : UInt64) : (count : Nat) → Except Fault (List UInt8)
  | 0 => .ok []
  | count + 1 => do
      let first ← memory.byte address
      let rest ← memory.bytes (address + 1) count
      return first :: rest

/-- The bits of the number at `address`. -/
def read (memory : Memory) (scalar : Scalar) (address : Address) : Except Fault Nat :=
  if address.isAligned scalar.size then do
    let stored ← memory.bytes address.bits scalar.size
    return ofLittleEndian stored
  else
    .error (.misalignedRead scalar address)

/-- The bits of the number `offset` bytes past `address`. -/
def readAt (memory : Memory) (scalar : Scalar) (address : Address) (offset : UInt64) :
    Except Fault Nat := do
  let moved ← address.add offset
  memory.read scalar moved

/-- The 16-bit number at a position of the record at `address`. -/
def readU16 (memory : Memory) (address : Address) (position : Nat) : Except Fault UInt16 :=
  UInt16.ofNat <$> memory.readAt .u16 address (.ofNat position)

/-- The 32-bit number at a position of the record at `address`. -/
def readU32 (memory : Memory) (address : Address) (position : Nat) : Except Fault UInt32 :=
  UInt32.ofNat <$> memory.readAt .u32 address (.ofNat position)

/-- The machine word at a position of the record at `address`. -/
def readWord (memory : Memory) (address : Address) (position : Nat) : Except Fault UInt64 :=
  UInt64.ofNat <$> memory.readAt .word address (.ofNat position)

/-- The pointer at a position of the record at `address`, nothing where it is null. -/
def readPointer (memory : Memory) (address : Address) (position : Nat) :
    Except Fault (Option Address) :=
  Address.ofBits? <$> memory.readWord address position

/-- How many bytes there are from `address` to the end of the address space. -/
def room (address : UInt64) : Nat :=
  UInt64.size - address.toNat

/-- The bytes from `address` to the first zero byte, which is looked for among the next `limit`
    bytes. -/
def bytesToZero (memory : Memory) (address : UInt64) : (limit : Nat) → Except Fault (List UInt8)
  | 0 => .error (.unmapped address)
  | limit + 1 => do
      let first ← memory.byte address
      if first = 0 then
        return []
      else
        let rest ← memory.bytesToZero (address + 1) limit
        return first :: rest

/-- The string at `address`, without the zero byte that ends it. -/
def cString (memory : Memory) (address : Address) : Except Fault (List UInt8) :=
  memory.bytesToZero address.bits (room address.bits)

end Memory

/-- Consecutive numbers of one shape, read where they stand. -/
structure Slice where
  scalar : Scalar
  start : Address
  count : Nat
  deriving Repr, DecidableEq

namespace Slice

/-- The run of `count` numbers from `start` on. -/
def of (scalar : Scalar) (start : Address) (count : Nat) : Except Fault Slice :=
  if start.isAligned scalar.size then .ok ⟨scalar, start, count⟩
  else .error (.misalignedSlice scalar start)

/-- The bits stored where the number at `index` stands. -/
def element (slice : Slice) (memory : Memory) (index : Nat) : Except Fault Nat :=
  ofLittleEndian <$>
    memory.bytes (slice.start.bits + .ofNat (slice.scalar.size * index)) slice.scalar.size

/-- The bits of the number at `index`, nothing past the end. -/
def get? (slice : Slice) (memory : Memory) (index : Nat) : Except Fault (Option Nat) :=
  if index < slice.count then some <$> slice.element memory index else .ok none

/-- The bits of the next `count` numbers from the one at `index` on. -/
def elements (slice : Slice) (memory : Memory) (index : Nat) :
    (count : Nat) → Except Fault (List Nat)
  | 0 => .ok []
  | count + 1 => do
      let first ← slice.element memory index
      let rest ← slice.elements memory (index + 1) count
      return first :: rest

/-- The bits of all the numbers. -/
def toList (slice : Slice) (memory : Memory) : Except Fault (List Nat) :=
  slice.elements memory 0 slice.count

end Slice

end TypeReflection
