import TypeReflection.Memory
import TypeReflection.Proofs.Address
import TypeReflection.Proofs.Reading

/-! # Known bytes in memory

`memory.Holds start bytes` says that the bytes stand from `start` on, all of them inside the address
space. What numbers and strings read there follows from the bytes alone.
-/

namespace TypeReflection

namespace Memory

/-- The bytes stand from `start` on. -/
structure Holds (memory : Memory) (start : Nat) (bytes : List UInt8) : Prop where
  fits : start + bytes.length ≤ UInt64.size
  stored : ∀ index (inside : index < bytes.length),
    memory.byte? (.ofNat (start + index)) = some bytes[index]

instance (memory : Memory) (start : Nat) (bytes : List UInt8) :
    Decidable (memory.Holds start bytes) :=
  decidable_of_iff (start + bytes.length ≤ UInt64.size ∧ ∀ index (inside : index < bytes.length),
      memory.byte? (.ofNat (start + index)) = some bytes[index])
    ⟨fun ⟨fits, stored⟩ => ⟨fits, stored⟩, fun holds => ⟨holds.fits, holds.stored⟩⟩

variable {memory : Memory} {start : Nat}

theorem holds_nil (small : start ≤ UInt64.size) : memory.Holds start [] where
  fits := small
  stored _ inside := absurd inside (Nat.not_lt_zero _)

theorem holds_append {first second : List UInt8} :
    memory.Holds start (first ++ second) ↔
      memory.Holds start first ∧ memory.Holds (start + first.length) second := by
  constructor
  · intro holds
    have fits := holds.fits
    rw [List.length_append] at fits
    refine ⟨⟨by omega, fun index inside => ?_⟩, ⟨by omega, fun index inside => ?_⟩⟩
    · have stored := holds.stored index (by rw [List.length_append]; omega)
      rwa [List.getElem_append_left inside] at stored
    · have stored := holds.stored (first.length + index) (by rw [List.length_append]; omega)
      rw [List.getElem_append_right (by omega)] at stored
      simpa [Nat.add_assoc] using stored
  · rintro ⟨left, right⟩
    have fits := right.fits
    refine ⟨by rw [List.length_append]; omega, fun index inside => ?_⟩
    rcases Nat.lt_or_ge index first.length with front | back
    · rw [List.getElem_append_left front]
      exact left.stored index front
    · rw [List.length_append] at inside
      have stored := right.stored (index - first.length) (by omega)
      rw [List.getElem_append_right back]
      rwa [Nat.add_assoc, Nat.add_sub_cancel' back] at stored

theorem holds_cons {byte : UInt8} {bytes : List UInt8} :
    memory.Holds start (byte :: bytes) ↔
      memory.Holds start [byte] ∧ memory.Holds (start + 1) bytes := by
  rw [← List.singleton_append, holds_append, List.length_singleton]

theorem holds_of_byte {byte : UInt8} (inside : start < UInt64.size)
    (stored : memory.byte (.ofNat start) = .ok byte) : memory.Holds start [byte] := by
  refine ⟨inside, fun index first => ?_⟩
  have zero : index = 0 := by simpa using first
  subst zero
  unfold Memory.byte at stored
  split at stored
  case h_1 found there =>
      cases stored
      exact there
  case h_2 => cases stored

/-- `count` bytes stand from `start` on, whatever they are. -/
def Maps (memory : Memory) (start count : Nat) : Prop :=
  ∃ bytes, bytes.length = count ∧ memory.Holds start bytes

theorem Maps.of_eq {count other : Nat} (maps : memory.Maps start count) (same : start = other) :
    memory.Maps other count :=
  same ▸ maps

namespace Holds

theorem of_eq {bytes : List UInt8} {other : Nat} (holds : memory.Holds start bytes)
    (same : start = other) : memory.Holds other bytes :=
  same ▸ holds

/-- The bytes stand in any memory that agrees where they are. -/
theorem of_same {other : Memory} {bytes : List UInt8}
    (holds : memory.Holds start bytes)
    (same : ∀ index < bytes.length,
      other.byte? (.ofNat (start + index)) = memory.byte? (.ofNat (start + index))) :
    other.Holds start bytes where
  fits := holds.fits
  stored index inside := by rw [same index inside, holds.stored index inside]

/-- Where bytes stand there is an address. -/
theorem inside {bytes : List UInt8} (holds : memory.Holds start bytes) (some : 0 < bytes.length) :
    start < UInt64.size := by
  have fits := holds.fits
  omega

theorem byte {byte : UInt8} (holds : memory.Holds start [byte]) :
    memory.byte (.ofNat start) = .ok byte := by
  have stored := holds.stored 0 (by simp)
  simp only [Nat.add_zero, List.getElem_cons_zero] at stored
  simp [Memory.byte, stored]

theorem maps {bytes : List UInt8} (holds : memory.Holds start bytes) {skipped count : Nat}
    (fits : skipped + count ≤ bytes.length) : memory.Maps (start + skipped) count := by
  refine ⟨(bytes.drop skipped).take count, ?_, ?_⟩
  · rw [List.length_take, List.length_drop]
    omega
  · rw [← List.take_append_drop skipped bytes, holds_append, List.length_take,
      Nat.min_eq_left (by omega)] at holds
    rw [← List.take_append_drop count (bytes.drop skipped), holds_append] at holds
    exact holds.2.1

theorem bytes {bytes : List UInt8} (holds : memory.Holds start bytes) :
    memory.bytes (.ofNat start) bytes.length = .ok bytes := by
  induction bytes generalizing start with
  | nil => rfl
  | cons byte bytes ih =>
      obtain ⟨first, rest⟩ := holds_cons.mp holds
      have next := ih rest
      rw [UInt64.ofNat_add] at next
      exact bind_eq_ok.mpr ⟨byte, first.byte, bind_eq_ok.mpr ⟨bytes, next, rfl⟩⟩

/-! ## Numbers -/

section Numbers

variable {address : Address} {position : Nat}

theorem read {bytes : List UInt8} (holds : memory.Holds address.bits.toNat bytes)
    {scalar : Scalar} (whole : bytes.length = scalar.size)
    (aligned : scalar.size ∣ address.bits.toNat) :
    memory.read scalar address = .ok (ofLittleEndian bytes) := by
  have stored := holds.bytes
  rw [UInt64.ofNat_toNat, whole] at stored
  rw [Memory.read, if_pos (Address.isAligned_iff.mpr aligned)]
  exact bind_eq_ok.mpr ⟨bytes, stored, rfl⟩

theorem readAt {bytes : List UInt8} (holds : memory.Holds (address.bits.toNat + position) bytes)
    {scalar : Scalar} (whole : bytes.length = scalar.size)
    (aligned : scalar.size ∣ address.bits.toNat + position) :
    memory.readAt scalar address (.ofNat position) = .ok (ofLittleEndian bytes) := by
  have fits := holds.fits
  have positive : 0 < scalar.size := by cases scalar <;> decide
  have inside : address.bits.toNat + position < UInt64.size := by omega
  rw [← Address.toNat_past inside] at holds aligned
  exact bind_eq_ok.mpr ⟨_, Address.add_eq_past inside, holds.read whole aligned⟩

theorem readU16 {value : Nat}
    (holds : memory.Holds (address.bits.toNat + position) (littleEndian 2 value))
    (aligned : 2 ∣ address.bits.toNat + position) :
    memory.readU16 address position = .ok (.ofNat value) := by
  have number : memory.readAt .u16 address (.ofNat position) = .ok _ :=
    holds.readAt (length_littleEndian ..) aligned
  rw [Memory.readU16, number, map_ok, ofLittleEndian_littleEndian]
  exact congrArg _ (UInt16.toNat_inj.mp (by simp [capacity]))

theorem readU32 {value : Nat}
    (holds : memory.Holds (address.bits.toNat + position) (littleEndian 4 value))
    (aligned : 4 ∣ address.bits.toNat + position) :
    memory.readU32 address position = .ok (.ofNat value) := by
  have number : memory.readAt .u32 address (.ofNat position) = .ok _ :=
    holds.readAt (length_littleEndian ..) aligned
  rw [Memory.readU32, number, map_ok, ofLittleEndian_littleEndian]
  exact congrArg _ (UInt32.toNat_inj.mp (by simp [capacity]))

theorem readWord {value : Nat}
    (holds : memory.Holds (address.bits.toNat + position) (littleEndian 8 value))
    (aligned : 8 ∣ address.bits.toNat + position) :
    memory.readWord address position = .ok (.ofNat value) := by
  have number : memory.readAt .word address (.ofNat position) = .ok _ :=
    holds.readAt (length_littleEndian ..) aligned
  rw [Memory.readWord, number, map_ok, ofLittleEndian_littleEndian]
  exact congrArg _ (UInt64.toNat_inj.mp (by simp [capacity]))

end Numbers

/-! ## Numbers of records behind a base address -/

section Records

variable {base : Address} {record position : Nat}

theorem past {bytes : List UInt8}
    (holds : memory.Holds (base.bits.toNat + (record + position)) bytes)
    (some : 0 < bytes.length) :
    (base.past record).bits.toNat + position = base.bits.toNat + (record + position) ∧
      (base.past record).past position = base.past (record + position) := by
  have inside := holds.inside some
  rw [Address.toNat_past (by omega), Address.past_past (by omega), Nat.add_assoc]
  exact ⟨rfl, rfl⟩

theorem recordU16 {value : Nat}
    (holds : memory.Holds (base.bits.toNat + (record + position)) (littleEndian 2 value))
    (aligned : 2 ∣ base.bits.toNat + (record + position)) :
    memory.readU16 (base.past record) position = .ok (.ofNat value) := by
  have same := (holds.past (by simp)).1
  exact Holds.readU16 (same ▸ holds) (same ▸ aligned)

theorem recordU32 {value : Nat}
    (holds : memory.Holds (base.bits.toNat + (record + position)) (littleEndian 4 value))
    (aligned : 4 ∣ base.bits.toNat + (record + position)) :
    memory.readU32 (base.past record) position = .ok (.ofNat value) := by
  have same := (holds.past (by simp)).1
  exact Holds.readU32 (same ▸ holds) (same ▸ aligned)

end Records

/-! ## Strings -/

theorem bytesToZero {string : List UInt8} (holds : memory.Holds start (string ++ [0]))
    {limit : Nat} (reaches : string.length < limit) :
    memory.bytesToZero (.ofNat start) limit = .ok (string.takeWhile (· ≠ 0)) := by
  induction string generalizing start limit with
  | nil =>
      obtain ⟨limit, rfl⟩ := Nat.exists_eq_add_of_lt reaches
      exact bind_eq_ok.mpr ⟨0, holds.byte, rfl⟩
  | cons byte string ih =>
      obtain ⟨first, rest⟩ := holds_cons.mp holds
      cases limit with
      | zero => exact absurd reaches (Nat.not_lt_zero _)
      | succ limit =>
          have next := ih rest (Nat.lt_of_succ_lt_succ reaches)
          rw [UInt64.ofNat_add] at next
          refine bind_eq_ok.mpr ⟨byte, first.byte, ?_⟩
          by_cases zero : byte = 0
          · simp [zero]
            rfl
          · rw [if_neg zero, List.takeWhile_cons_of_pos (by simpa using zero)]
            exact bind_eq_ok.mpr ⟨_, next, rfl⟩

/-- A string is read up to its first zero byte. -/
theorem cString {address : Address} {string : List UInt8}
    (holds : memory.Holds address.bits.toNat (string ++ [0])) :
    memory.cString address = .ok (string.takeWhile (· ≠ 0)) := by
  have fits := holds.fits
  rw [List.length_append, List.length_singleton] at fits
  have read := holds.bytesToZero (show string.length < room address.bits by unfold room; omega)
  rwa [UInt64.ofNat_toNat] at read

end Holds

end Memory

end TypeReflection
