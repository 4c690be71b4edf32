import Mathlib.Algebra.Order.Floor.Div
import TypeReflection.Proofs.Image.Storage

/-! # Words written into storage

Whatever words are written into it, storage shows the list of its bytes in which each word that fits
has replaced the bytes where it was written. A word that does not fit is refused even where the last
block has room for it, and changes nothing.
-/

namespace TypeReflection

/-- A machine word, and the index from which on it is written. -/
structure WordWrite where
  index : Nat
  word : UInt64
  deriving Repr, DecidableEq

namespace WordWrite

/-- The bytes after the write: with those of the word in their place, least significant first, or as
    they were if there are not enough of them. -/
def onList (bytes : List UInt8) (write : WordWrite) : List UInt8 :=
  if write.index + 8 ≤ bytes.length then
    overwrite bytes write.index (littleEndian 8 write.word.toNat)
  else
    bytes

@[simp] theorem length_onList (bytes : List UInt8) (write : WordWrite) :
    (write.onList bytes).length = bytes.length := by
  unfold onList
  split
  case isTrue fits => exact length_overwrite (by rwa [length_littleEndian])
  case isFalse => rfl

@[simp] theorem length_foldl_onList (bytes : List UInt8) (writes : List WordWrite) :
    (writes.foldl onList bytes).length = bytes.length := by
  induction writes generalizing bytes with
  | nil => rfl
  | cons write writes ih => rw [List.foldl_cons, ih, length_onList]

end WordWrite

namespace AlignedBytes

/-- The storage after a write, or as it was if the word is refused. -/
def write (storage : AlignedBytes) (write : WordWrite) : AlignedBytes :=
  (storage.writeWord? write.index write.word).getD storage

/-- The storage after writes, one after the other. -/
def writeAll (storage : AlignedBytes) (writes : List WordWrite) : AlignedBytes :=
  writes.foldl write storage

variable {storage : AlignedBytes} {bytes : List UInt8}

theorem blockCount_eq_ceilDiv (size : Nat) : blockCount size = size ⌈/⌉ 16 := by
  rw [Nat.ceilDiv_eq_add_pred_div]
  rfl

theorem write_of_refused {write : WordWrite}
    (refused : storage.writeWord? write.index write.word = none) :
    storage.write write = storage := by
  rw [AlignedBytes.write, refused, Option.getD_none]

namespace Stores

variable (stores : storage.Stores bytes)

include stores

/-- What decides about a word is where the bytes end, not where the last block does. -/
theorem writeWord?_eq_none (index : Nat) (word : UInt64) :
    storage.writeWord? index word = none ↔ bytes.length < index + 8 := by
  rw [AlignedBytes.writeWord?, stores.size]
  split
  case isTrue fits => exact ⟨nofun, fun short => absurd fits (Nat.not_le.mpr short)⟩
  case isFalse short => exact ⟨fun _ => Nat.lt_of_not_le short, fun _ => rfl⟩

theorem write (write : WordWrite) : (storage.write write).Stores (write.onList bytes) := by
  unfold WordWrite.onList
  split
  case isTrue fits =>
    obtain ⟨written, given, holds⟩ := stores.writeWord? fits write.word
    rw [AlignedBytes.write, given]
    exact holds
  case isFalse short =>
    have refused := (stores.writeWord?_eq_none _ write.word).mpr (Nat.lt_of_not_le short)
    rwa [write_of_refused refused]

theorem writeAll (writes : List WordWrite) :
    (storage.writeAll writes).Stores (writes.foldl WordWrite.onList bytes) := by
  induction writes generalizing storage bytes with
  | nil => exact stores
  | cons write writes ih => exact ih (stores.write write)

end Stores

/-- Storage is a list of bytes in which every word that fits has been put in its place, kept in as
    few blocks as hold it. A word is refused exactly if it ends behind the last byte. -/
theorem writes_faithful (bytes : List UInt8) (writes : List WordWrite) :
    ((ofList bytes).writeAll writes).blocks.size = bytes.length ⌈/⌉ 16 ∧
      ((ofList bytes).writeAll writes).size = bytes.length ∧
      ((ofList bytes).writeAll writes).toList = writes.foldl WordWrite.onList bytes ∧
      ∀ write : WordWrite,
        (((ofList bytes).writeAll writes).writeWord? write.index write.word = none ↔
          bytes.length < write.index + 8) ∧
        (bytes.length < write.index + 8 →
          (ofList bytes).writeAll (writes ++ [write]) = (ofList bytes).writeAll writes) := by
  have stores := (ofList_stores bytes).writeAll writes
  have length := WordWrite.length_foldl_onList bytes writes
  have refuses (write : WordWrite) :
      ((ofList bytes).writeAll writes).writeWord? write.index write.word = none ↔
        bytes.length < write.index + 8 := by
    rw [stores.writeWord?_eq_none, length]
  refine ⟨?_, stores.size.trans length, stores.toList, fun write => ⟨refuses write, ?_⟩⟩
  · rw [stores.blocks, length, blockCount_eq_ceilDiv]
  · intro short
    have refused := (refuses write).mpr short
    rw [writeAll, List.foldl_append, List.foldl_cons, List.foldl_nil]
    exact write_of_refused refused

/-- A word across the first two blocks, and one that ends with the last byte, five bytes into a
    block. One byte further on the same word is refused. -/
theorem writes_faithful_partialBlock :
    let bytes : List UInt8 := List.replicate 37 0xEE
    let writes : List WordWrite := [⟨12, 0x0807060504030201⟩, ⟨29, 0xFEED⟩]
    ((ofList bytes).writeAll writes).toList
        = List.replicate 12 0xEE ++ [1, 2, 3, 4, 5, 6, 7, 8] ++ List.replicate 9 0xEE
          ++ [0xED, 0xFE, 0, 0, 0, 0, 0, 0] ∧
      ((ofList bytes).writeAll writes).blocks.size = 3 ∧
      ((ofList bytes).writeAll writes).writeWord? 30 0xFEED = none ∧
      (ofList bytes).writeAll (writes ++ [⟨30, 0xFEED⟩]) = (ofList bytes).writeAll writes := by
  intro bytes writes
  obtain ⟨blocks, -, shown, refuses⟩ := writes_faithful bytes writes
  obtain ⟨refused, unchanged⟩ := refuses ⟨30, 0xFEED⟩
  have short : bytes.length < 30 + 8 := by decide
  exact ⟨shown.trans (by decide), blocks.trans (by decide), refused.mpr short, unchanged short⟩

end AlignedBytes

end TypeReflection
