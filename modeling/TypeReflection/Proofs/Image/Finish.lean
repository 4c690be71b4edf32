import TypeReflection.Proofs.Image.Renumbering

/-! # Finished images

Finishing a builder changes the words of its relocations and nothing else. The relocations stand
apart, inside what was emitted, in words that are still zero; each is for the place of a record, and
ends up holding the address of that record.
-/

namespace TypeReflection

theorem ofLittleEndian_word {value : Nat} (small : value < UInt64.size) :
    ofLittleEndian (littleEndian Format.wordSize value) = value := by
  rw [ofLittleEndian_littleEndian]
  exact Nat.mod_eq_of_lt small

/-- A target that lies before the end of the address space is stored as it is. -/
theorem storedPointer_eq {base : UInt64} {target : Nat}
    (fits : base.toNat + target < UInt64.size) :
    storedPointer base target = littleEndian Format.wordSize (base.toNat + target) := by
  have : target < UInt64.size := by omega
  rw [storedPointer, UInt64.toNat_add, UInt64.toNat_ofNat_of_lt' this, Nat.mod_eq_of_lt fits]

/-- The image is the one of the builder at `base`: its bytes are the emitted ones, except for the
    words of the relocations, which hold the addresses of their targets. -/
structure Image.Completes (image : Image) (builder : Builder) (base : Address) : Prop where
  id_eq : image.id = builder.image
  base_eq : image.base = base
  size_eq : image.size = builder.bytes.length
  length_eq : image.bytes.length = builder.bytes.length
  kept : ∀ index, (∀ relocation ∈ builder.relocations, ¬ relocation.Covers index) →
    image.bytes[index]? = builder.bytes[index]?
  filled : ∀ relocation ∈ builder.relocations,
    base.bits.toNat + relocation.target < UInt64.size ∧
      wordAt image.bytes relocation.position
        = littleEndian Format.wordSize (base.bits.toNat + relocation.target)

namespace Run

variable {image : UInt32} {entries : List Entry} {builder : Builder}

theorem finish? (run : Run image entries builder) {base : Address}
    (fits : base.bits.toNat + builder.bytes.length ≤ UInt64.size) :
    ∃ finished, builder.finish? base = some finished ∧ finished.Completes builder base := by
  obtain ⟨final, relocates⟩ := run.relocates base.bits
  obtain ⟨storage, finished, stores⟩ := Builder.finish?_of_relocates relocates
  refine ⟨_, finished, rfl, rfl, stores.size.trans relocates.length, ?_, ?_, ?_⟩
  · rw [Image.bytes, stores.toList, relocates.length]
  · intro index free
    rw [Image.bytes, stores.toList]
    exact relocates.outside (by simpa using free)
  · intro relocation member
    obtain ⟨symbol, issued, target⟩ := run.targets relocation member
    have inside := run.inside symbol issued
    have small : base.bits.toNat + relocation.target < UInt64.size := by omega
    refine ⟨small, ?_⟩
    rw [Image.bytes, stores.toList, ← storedPointer_eq small]
    exact (relocates.words relocation member).2

/-- Relocation is exact. The relocations of a builder are aligned words inside its bytes, apart
    from each other and still zero, each for the place of an emitted record. So the builder can be
    finished wherever its bytes fit, which fills these words and keeps all other bytes; and if the
    program is run once more and finished elsewhere, the images differ in these words only, each by
    the difference of the bases. -/
theorem relocation_exact (run : Run image entries builder) :
    builder.relocations.Pairwise Relocation.Disjoint ∧
      (∀ relocation ∈ builder.relocations, Format.wordSize ∣ relocation.position ∧
        relocation.position + Format.wordSize ≤ builder.bytes.length ∧
        wordAt builder.bytes relocation.position = zeros Format.wordSize ∧
        ∃ symbol ∈ issuedSymbols image entries, relocation.target = symbol.offset) ∧
      ∀ base : Address, base.bits.toNat + builder.bytes.length ≤ UInt64.size →
        ∃ finished, builder.finish? base = some finished ∧ finished.Completes builder base ∧
          ∀ (other : UInt32) (twin : Builder) (elsewhere : Address),
            Run other (entries.map (Entry.inImage other)) twin →
            elsewhere.bits.toNat + builder.bytes.length ≤ UInt64.size →
            ∃ moved, twin.finish? elsewhere = some moved ∧
              (∀ index, (∀ relocation ∈ builder.relocations, ¬ relocation.Covers index) →
                moved.bytes[index]? = finished.bytes[index]?) ∧
              ∀ relocation ∈ builder.relocations,
                (ofLittleEndian (wordAt moved.bytes relocation.position) : Int)
                  - ofLittleEndian (wordAt finished.bytes relocation.position)
                    = elsewhere.bits.toNat - base.bits.toNat := by
  obtain ⟨final, relocates⟩ := run.relocates 0
  refine ⟨relocates.disjoint, fun relocation member => ?_, fun base fits => ?_⟩
  · have inside := relocates.inside relocation member
    rw [Nat.zero_add] at inside
    have words := relocates.words relocation member
    exact ⟨relocates.aligned relocation member, inside.2, words.1,
      run.targets relocation member⟩
  · obtain ⟨finished, found, completes⟩ := run.finish? fits
    refine ⟨finished, found, completes, fun other twin elsewhere again room => ?_⟩
    obtain ⟨bytes, relocations⟩ := run.same_bytes again
    obtain ⟨moved, found', completes'⟩ := again.finish? (bytes ▸ room)
    refine ⟨moved, found', fun index free => ?_, fun relocation member => ?_⟩
    · rw [completes.kept index free, completes'.kept index (relocations ▸ free), bytes]
    · obtain ⟨small, word⟩ := completes.filled relocation member
      obtain ⟨small', word'⟩ := completes'.filled relocation (relocations ▸ member)
      rw [word, word', ofLittleEndian_word small, ofLittleEndian_word small']
      omega

/-- In the program with a subclass, the subclass ends up pointing to its superclass. -/
theorem relocation_exact_zoo : Run 0 zooEntries.reverse zooResult.1 ∧
    zooResult.1.relocations.Pairwise Relocation.Disjoint ∧
      ⟨272, 136⟩ ∈ zooResult.1.relocations ∧
      0x10000 + zooResult.1.bytes.length ≤ UInt64.size ∧
      ∃ finished, zooResult.1.finish? ⟨0x10000, by decide⟩ = some finished ∧
        finished.Completes zooResult.1 ⟨0x10000, by decide⟩ ∧
        wordAt finished.bytes 272 = littleEndian Format.wordSize (0x10000 + 136) := by
  obtain ⟨disjoint, _, finishes⟩ := relocation_exact run_zoo
  have member : ⟨272, 136⟩ ∈ zooResult.1.relocations := by decide +kernel
  have fits : 0x10000 + zooResult.1.bytes.length ≤ UInt64.size := by decide +kernel
  obtain ⟨finished, found, completes, _⟩ := finishes ⟨0x10000, by decide⟩ fits
  exact ⟨run_zoo, disjoint, member, fits, finished, found, completes,
    (completes.filled _ member).2⟩

end Run

end TypeReflection
