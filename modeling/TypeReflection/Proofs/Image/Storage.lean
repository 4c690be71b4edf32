import TypeReflection.Image.AlignedBytes

/-! # Storage as a list of bytes

Seen from outside, storage in blocks is the list of its bytes: `Stores` says which list, and each
operation on the storage is matched by one on the list.
-/

namespace TypeReflection

/-- `bytes` with those from `index` on replaced by `stored`. -/
def overwrite (bytes : List UInt8) (index : Nat) (stored : List UInt8) : List UInt8 :=
  bytes.take index ++ stored ++ bytes.drop (index + stored.length)

/-- What is overwritten in the middle part of a list stays within that part. -/
theorem overwrite_middle (before old after : List UInt8) {stored : List UInt8}
    (same : stored.length = old.length) :
    overwrite (before ++ old ++ after) before.length stored = before ++ stored ++ after := by
  simp [overwrite, same]

theorem length_overwrite {bytes stored : List UInt8} {index : Nat}
    (fits : index + stored.length ≤ bytes.length) :
    (overwrite bytes index stored).length = bytes.length := by
  simp only [overwrite, List.length_append, List.length_take, List.length_drop]
  omega

/-- Bytes are overwritten one after the other. -/
theorem overwrite_cons {bytes : List UInt8} {index : Nat} {byte : UInt8} {stored : List UInt8}
    (inside : index < bytes.length) :
    overwrite (bytes.set index byte) (index + 1) stored =
      overwrite bytes index (byte :: stored) := by
  have front : (bytes.set index byte).take (index + 1) = bytes.take index ++ [byte] := by
    rw [List.take_add_one, List.take_set_of_le (Nat.le_refl _),
      List.getElem?_set_self inside]
    rfl
  have back : index + 1 + stored.length = index + (byte :: stored).length := by
    rw [List.length_cons]
    omega
  have rest : (bytes.set index byte).drop (index + (byte :: stored).length)
      = bytes.drop (index + (byte :: stored).length) :=
    List.drop_set_of_lt (by rw [List.length_cons]; omega)
  simp only [overwrite, front, back, rest, List.append_assoc, List.singleton_append]

namespace AlignedBytes

/-- The storage has the bytes of the list, in as many blocks as they take. -/
structure Stores (storage : AlignedBytes) (bytes : List UInt8) : Prop where
  size : storage.size = bytes.length
  blocks : storage.blocks.size = blockCount bytes.length
  get? : ∀ index, storage.get? index = bytes[index]?

/-- Each byte has a block. -/
theorem div_lt_blockCount {size index : Nat} (inside : index < size) :
    index / Format.imageAlignment < blockCount size := by
  simp only [blockCount, Format.imageAlignment]
  omega

theorem getElem?_flatMap_toList (blocks : List Block) (index : Nat) :
    (blocks.flatMap Vector.toList)[index]? =
      blocks[index / Format.imageAlignment]?.bind (·[index % Format.imageAlignment]?) := by
  induction blocks generalizing index with
  | nil => rfl
  | cons block blocks ih =>
      have width : block.toList.length = Format.imageAlignment := Vector.length_toList
      rw [List.flatMap_cons]
      rcases Nat.lt_or_ge index Format.imageAlignment with inside | behind
      · rw [List.getElem?_append_left (by omega), Nat.div_eq_of_lt inside, Nat.mod_eq_of_lt inside]
        simp
      · rw [List.getElem?_append_right (by omega), width, ih]
        have next : index / Format.imageAlignment
            = (index - Format.imageAlignment) / Format.imageAlignment + 1 :=
          Nat.div_eq_sub_div (by decide) behind
        rw [next, List.getElem?_cons_succ, Nat.mod_eq_sub_mod behind]

theorem ofList_stores (bytes : List UInt8) : (ofList bytes).Stores bytes where
  size := rfl
  blocks := by simp [ofList, blocksOf]
  get? index := by
    rcases Nat.lt_or_ge index bytes.length with inside | outside
    · have block := div_lt_blockCount inside
      have byte : index % Format.imageAlignment < Format.imageAlignment :=
        Nat.mod_lt _ (by decide)
      have position := Nat.div_add_mod' index Format.imageAlignment
      simp [get?, ofList, blocksOf, Block.ofList, inside, block, byte, position]
    · simp [get?, ofList, Nat.not_lt.mpr outside]

namespace Stores

variable {storage : AlignedBytes} {bytes : List UInt8} (stores : storage.Stores bytes)

include stores

theorem toList : storage.toList = bytes := by
  refine List.ext_getElem? fun index => ?_
  rw [← stores.get? index, AlignedBytes.toList, List.getElem?_take, getElem?_flatMap_toList]
  simp [AlignedBytes.get?, Option.bind]

theorem setByte {index : Nat} (inside : index < bytes.length) (byte : UInt8) :
    (storage.setByte index byte).Stores (bytes.set index byte) where
  size := by simp [AlignedBytes.setByte, stores.size]
  blocks := by simp [AlignedBytes.setByte, stores.blocks]
  get? other := by
    have old := stores.get? other
    simp only [AlignedBytes.get?] at old
    simp only [AlignedBytes.get?, AlignedBytes.setByte, Array.getElem?_modify, List.getElem?_set]
    by_cases same : index = other
    · subst same
      have block : index / Format.imageAlignment < storage.blocks.size :=
        stores.blocks ▸ div_lt_blockCount inside
      have place : index % Format.imageAlignment < Format.imageAlignment :=
        Nat.mod_lt _ (by decide)
      simp [stores.size, inside, block, place]
    · rw [if_neg same, ← old]
      by_cases block : index / Format.imageAlignment = other / Format.imageAlignment
      · -- Within one block the two bytes have different places.
        have place : index % Format.imageAlignment ≠ other % Format.imageAlignment := by
          intro place
          have := Nat.div_add_mod index Format.imageAlignment
          rw [block, place, Nat.div_add_mod] at this
          exact same this.symm
        cases storage.blocks[other / Format.imageAlignment]? with
        | none => simp [block]
        | some stored => simp [block, Vector.getElem?_setIfInBounds_ne place]
      · simp [block]

theorem setBytes {index : Nat} {stored : List UInt8}
    (fits : index + stored.length ≤ bytes.length) :
    (storage.setBytes index stored).Stores (overwrite bytes index stored) := by
  induction stored generalizing storage bytes index with
  | nil => simpa [AlignedBytes.setBytes, overwrite] using stores
  | cons byte stored ih =>
      rw [List.length_cons] at fits
      have inside : index < bytes.length := by omega
      rw [AlignedBytes.setBytes, ← overwrite_cons inside]
      exact ih (stores.setByte inside byte) (by rw [List.length_set]; omega)

theorem writeWord? {index : Nat} (fits : index + Format.wordSize ≤ bytes.length) (word : UInt64) :
    ∃ written, storage.writeWord? index word = some written ∧
      written.Stores (overwrite bytes index (littleEndian Format.wordSize word.toNat)) := by
  refine ⟨_, if_pos (stores.size ▸ fits), stores.setBytes ?_⟩
  rw [length_littleEndian]
  exact fits

end Stores

end AlignedBytes

end TypeReflection
