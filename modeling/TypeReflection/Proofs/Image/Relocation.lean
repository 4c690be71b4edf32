import TypeReflection.Image.Basic
import TypeReflection.Proofs.Image.Storage

/-! # Relocation

`Relocates` says what emitted bytes become once their pointers are filled in. It follows the way in
which emissions are put together, so that each emission is judged part by part; that pointers do not
overlap, and that nothing else changes, comes out of the shape of the relation.
-/

namespace TypeReflection

namespace Relocation

/-- The byte at `index` belongs to the word of the relocation. -/
def Covers (relocation : Relocation) (index : Nat) : Prop :=
  relocation.position ≤ index ∧ index < relocation.position + Format.wordSize

/-- The words of two relocations have no byte in common. -/
def Disjoint (first second : Relocation) : Prop :=
  first.position + Format.wordSize ≤ second.position ∨
    second.position + Format.wordSize ≤ first.position

end Relocation

/-- The pointer to `target` as it is stored in an image at `base`. -/
def storedPointer (base : UInt64) (target : Nat) : List UInt8 :=
  littleEndian Format.wordSize (base + .ofNat target).toNat

@[simp] theorem length_storedPointer (base : UInt64) (target : Nat) :
    (storedPointer base target).length = Format.wordSize :=
  length_littleEndian ..

/-- The same, null where there is no target. -/
def storedPointer? (base : UInt64) : Option Nat → List UInt8
  | some target => storedPointer base target
  | none => zeros Format.wordSize

@[simp] theorem length_storedPointer? (base : UInt64) (target : Option Nat) :
    (storedPointer? base target).length = Format.wordSize := by
  cases target <;> simp [storedPointer?]

/-- The eight bytes from `index` on. -/
def wordAt (bytes : List UInt8) (index : Nat) : List UInt8 :=
  (bytes.drop index).take Format.wordSize

theorem wordAt_append_left {first second : List UInt8} {index : Nat}
    (inside : index + Format.wordSize ≤ first.length) :
    wordAt (first ++ second) index = wordAt first index := by
  rw [wordAt, wordAt, List.drop_append_of_le_length (by omega),
    List.take_append_of_le_length (by rw [List.length_drop]; omega)]

theorem wordAt_append_right {first second : List UInt8} {index : Nat}
    (behind : first.length ≤ index) :
    wordAt (first ++ second) index = wordAt second (index - first.length) := by
  rw [wordAt, wordAt, List.drop_append, List.drop_eq_nil_of_le behind, List.nil_append]

/-- The bytes emitted from `start` on become `final` when the listed pointers are filled in, in an
    image at `base`. -/
inductive Relocates (base : UInt64) :
    (start : Nat) → List UInt8 → List Relocation → (final : List UInt8) → Prop where
  /-- Bytes without pointers stay as they are. -/
  | plain (start : Nat) (bytes : List UInt8) : Relocates base start bytes [] bytes
  /-- A pointer is an aligned word, zero at first. -/
  | pointer {start : Nat} (aligned : Format.wordSize ∣ start) (target : Nat) :
      Relocates base start (zeros Format.wordSize) [⟨start, target⟩]
        (storedPointer base target)
  | append {start : Nat} {first second first' second' : List UInt8}
      {relocations others : List Relocation} :
      Relocates base start first relocations first' →
      Relocates base (start + first.length) second others second' →
      Relocates base start (first ++ second) (relocations ++ others) (first' ++ second')

namespace Relocates

variable {base : UInt64} {start : Nat} {bytes final : List UInt8} {relocations : List Relocation}
  (relocates : Relocates base start bytes relocations final)

theorem of_eq {other : Nat} (relocates : Relocates base start bytes relocations final)
    (same : start = other) : Relocates base other bytes relocations final :=
  same ▸ relocates

/-- Plain bytes in front of others. -/
theorem cons_plain {front : List UInt8}
    (relocates : Relocates base (start + front.length) bytes relocations final) :
    Relocates base start (front ++ bytes) relocations (front ++ final) :=
  .append (.plain start front) relocates

/-- Plain bytes behind others. -/
theorem append_plain (relocates : Relocates base start bytes relocations final)
    (back : List UInt8) : Relocates base start (bytes ++ back) relocations (final ++ back) := by
  simpa using relocates.append (.plain _ back)

theorem pointer? (aligned : Format.wordSize ∣ start) (target : Option Nat) :
    Relocates base start (zeros Format.wordSize) (target.toList.map (⟨start, ·⟩))
      (storedPointer? base target) := by
  cases target with
  | none => exact .plain ..
  | some target => exact .pointer aligned target

include relocates

theorem length : final.length = bytes.length := by
  induction relocates with
  | plain => rfl
  | pointer => simp
  | append _ _ first second => simp [first, second]

theorem inside : ∀ relocation ∈ relocations, start ≤ relocation.position ∧
    relocation.position + Format.wordSize ≤ start + bytes.length := by
  induction relocates with
  | plain => exact List.forall_mem_nil _
  | pointer => simp
  | append _ _ first second =>
      intro relocation member
      rw [List.length_append]
      rcases List.mem_append.mp member with left | right
      · have := first relocation left
        omega
      · have := second relocation right
        omega

theorem aligned : ∀ relocation ∈ relocations, Format.wordSize ∣ relocation.position := by
  induction relocates with
  | plain => exact List.forall_mem_nil _
  | pointer aligned => simpa using aligned
  | append _ _ first second => exact List.forall_mem_append.mpr ⟨first, second⟩

theorem disjoint : relocations.Pairwise Relocation.Disjoint := by
  induction relocates with
  | plain => exact .nil
  | pointer => exact List.pairwise_singleton ..
  | append left right first second =>
      refine List.pairwise_append.mpr ⟨first, second, fun one before other behind => .inl ?_⟩
      have := left.inside one before
      have := right.inside other behind
      omega

/-- The words of the pointers are zero at first and hold the addresses of their targets at last. -/
theorem words : ∀ relocation ∈ relocations,
    wordAt bytes (relocation.position - start) = zeros Format.wordSize ∧
      wordAt final (relocation.position - start) = storedPointer base relocation.target := by
  induction relocates with
  | plain => exact List.forall_mem_nil _
  | @pointer start _ target =>
      intro relocation member
      rw [List.mem_singleton.mp member, Nat.sub_self]
      exact ⟨rfl, List.take_of_length_le (by simp)⟩
  | append left right first second =>
      intro relocation member
      rcases List.mem_append.mp member with front | back
      · have placed := left.inside relocation front
        rw [wordAt_append_left (by omega), wordAt_append_left (by rw [left.length]; omega)]
        exact first relocation front
      · have placed := right.inside relocation back
        rw [wordAt_append_right (by omega), wordAt_append_right (by rw [left.length]; omega),
          left.length, Nat.sub_sub]
        exact second relocation back

/-- Bytes that belong to no pointer stay as they are. -/
theorem outside {index : Nat}
    (free : ∀ relocation ∈ relocations, ¬ relocation.Covers (start + index)) :
    final[index]? = bytes[index]? := by
  induction relocates generalizing index with
  | plain => rfl
  | @pointer start _ target =>
      have past : Format.wordSize ≤ index := by
        have := free _ (List.mem_singleton_self _)
        simp only [Relocation.Covers] at this
        omega
      rw [List.getElem?_eq_none (by simpa using past), List.getElem?_eq_none (by simpa using past)]
  | @append start front _ _ _ _ _ left right first second =>
      obtain ⟨free, others⟩ := List.forall_mem_append.mp free
      rcases Nat.lt_or_ge index front.length with inside | behind
      · rw [List.getElem?_append_left inside, List.getElem?_append_left (left.length ▸ inside)]
        exact first free
      · rw [List.getElem?_append_right behind, List.getElem?_append_right (left.length ▸ behind),
          left.length]
        refine second fun relocation member => ?_
        rw [Nat.add_assoc, Nat.add_sub_cancel' behind]
        exact others relocation member

/-- Filling in the pointers one after the other never fails and turns the bytes into `final`,
    whatever stands before and behind them. -/
theorem writes {before after : List UInt8} (placed : before.length = start)
    {storage : AlignedBytes} (stores : storage.Stores (before ++ bytes ++ after)) :
    ∃ written, relocations.foldlM (fun storage relocation =>
        storage.writeWord? relocation.position (base + .ofNat relocation.target)) storage
          = some written ∧ written.Stores (before ++ final ++ after) := by
  induction relocates generalizing before after storage with
  | plain => exact ⟨storage, rfl, stores⟩
  | @pointer start aligned target =>
      subst placed
      have fits : before.length + Format.wordSize
          ≤ (before ++ zeros Format.wordSize ++ after).length := by
        simp
      obtain ⟨written, wrote, holds⟩ := stores.writeWord? fits (base + .ofNat target)
      rw [overwrite_middle _ _ _ (by simp)] at holds
      exact ⟨written, by simp [wrote], holds⟩
  | @append start front back front' back' _ _ left right first second =>
      have split : before ++ (front ++ back) ++ after = before ++ front ++ (back ++ after) := by
        simp
      obtain ⟨middle, wrote, holds⟩ := first placed (split ▸ stores)
      have next : before ++ front' ++ (back ++ after) = (before ++ front') ++ back ++ after := by
        simp
      obtain ⟨written, rest, final⟩ :=
        second (by rw [List.length_append, left.length, placed]) (next ▸ holds)
      refine ⟨written, ?_, by simpa using final⟩
      rw [List.foldlM_append, wrote]
      exact rest

end Relocates

/-- A builder whose bytes are relocated can be finished, and its image has the bytes that come
    out. -/
theorem Builder.finish?_of_relocates {builder : Builder} {base : Address} {final : List UInt8}
    (relocates : Relocates base.bits 0 builder.bytes builder.relocations final) :
    ∃ storage, builder.finish? base = some ⟨builder.image, base, storage⟩ ∧
      storage.Stores final := by
  have stores : (AlignedBytes.ofList builder.bytes).Stores ([] ++ builder.bytes ++ []) := by
    simpa using AlignedBytes.ofList_stores builder.bytes
  obtain ⟨storage, wrote, holds⟩ := relocates.writes rfl stores
  refine ⟨storage, ?_, by simpa using holds⟩
  simp [finish?, wrote]

end TypeReflection
