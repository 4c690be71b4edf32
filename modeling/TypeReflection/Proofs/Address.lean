import TypeReflection.Fault

/-! # Address arithmetic

Moving an address adds to its bits modulo 2^64, and fails only where the sum is null.
-/

namespace TypeReflection

namespace Address

theorem isAligned_iff {address : Address} {alignment : Nat} :
    address.isAligned alignment = true ↔ alignment ∣ address.bits.toNat := by
  simp [isAligned, Nat.dvd_iff_mod_eq_zero]

theorem bits_of_ofBits? {bits : UInt64} {address : Address} (found : ofBits? bits = some address) :
    address.bits = bits := by
  unfold ofBits? at found
  split at found
  · cases found
    rfl
  · cases found

theorem ofBits?_bits (address : Address) : ofBits? address.bits = some address := by
  simp [ofBits?, address.ne_null]

theorem bits_of_offset {address moved : Address} {delta : Int64}
    (given : address.offset delta = .ok moved) : moved.bits = address.bits + delta.toUInt64 := by
  unfold offset at given
  split at given
  case h_1 found offset =>
      cases given
      exact bits_of_ofBits? offset
  case h_2 => cases given

theorem bits_of_add {address moved : Address} {count : UInt64}
    (given : address.add count = .ok moved) : moved.bits = address.bits + count := by
  simpa using bits_of_offset given

/-- Moving an address fails in one way only. -/
theorem offset_error {address : Address} {delta : Int64} {fault : Fault}
    (stopped : address.offset delta = .error fault) : fault = .wrappedToNull address delta := by
  unfold offset at stopped
  split at stopped
  case h_1 => cases stopped
  case h_2 => exact (Except.error.inj stopped).symm

theorem ext_toNat {first second : Address} (same : first.bits.toNat = second.bits.toNat) :
    first = second := by
  obtain ⟨bits, _⟩ := first
  obtain ⟨other, _⟩ := second
  cases UInt64.toNat_inj.mp same
  rfl

/-- An offset leads to the address with the sum of the bits. -/
theorem offset_of_bits {address moved : Address} {delta : Int64}
    (same : moved.bits = address.bits + delta.toUInt64) : address.offset delta = .ok moved := by
  have found : address.offset? delta = some moved := by rw [offset?, ← same, ofBits?_bits]
  rw [offset, found]

theorem offset_of_null {address : Address} {delta : Int64}
    (null : address.bits + delta.toUInt64 = 0) :
    address.offset delta = .error (.wrappedToNull address delta) := by
  simp [offset, offset?, ofBits?, null]

/-- An offset leads to the address at that distance. -/
theorem offset_eq {address target : Address} {delta : Int64}
    (away : delta.toInt = (target.bits.toNat : Int) - address.bits.toNat) :
    address.offset delta = .ok target := by
  have word : delta.toUInt64 = target.bits - address.bits := by
    rw [← Int64.ofInt_toInt delta, away, Int64.ofInt_sub, Int64.ofInt_eq_ofNat,
      Int64.ofInt_eq_ofNat]
    simp
  refine offset_of_bits ?_
  rw [word, UInt64.add_comm, UInt64.sub_add_cancel]

/-- The address `position` bytes behind another, which itself stands in where that is null. -/
def past (address : Address) (position : Nat) : Address :=
  (ofBits? (address.bits + .ofNat position)).getD address

section Past

variable {address : Address} {position : Nat}

theorem toNat_pos (address : Address) : 0 < address.bits.toNat :=
  Nat.pos_of_ne_zero fun null => address.ne_null (UInt64.toNat_inj.mp null)

theorem toNat_add_ofNat (fits : address.bits.toNat + position < UInt64.size) :
    (address.bits + .ofNat position).toNat = address.bits.toNat + position := by
  have small : position < UInt64.size := by omega
  rw [UInt64.toNat_add, UInt64.toNat_ofNat_of_lt' small]
  exact Nat.mod_eq_of_lt fits

theorem add_ofNat_ne_null (fits : address.bits.toNat + position < UInt64.size) :
    address.bits + .ofNat position ≠ 0 := by
  intro null
  have sum := toNat_add_ofNat fits
  have positive := address.toNat_pos
  rw [null, UInt64.toNat_zero] at sum
  omega

theorem ofBits?_eq_past (fits : address.bits.toNat + position < UInt64.size) :
    ofBits? (address.bits + .ofNat position) = some (address.past position) := by
  simp [past, ofBits?, add_ofNat_ne_null fits]

theorem toNat_past (fits : address.bits.toNat + position < UInt64.size) :
    (address.past position).bits.toNat = address.bits.toNat + position := by
  rw [bits_of_ofBits? (ofBits?_eq_past fits), toNat_add_ofNat fits]

theorem add_eq_past (fits : address.bits.toNat + position < UInt64.size) :
    address.add (.ofNat position) = .ok (address.past position) := by
  have moved : address.offset? (UInt64.ofNat position).toInt64 = some (address.past position) := by
    rw [offset?, UInt64.toUInt64_toInt64, ofBits?_eq_past fits]
  rw [add, offset, moved]

theorem bits_past (fits : address.bits.toNat + position < UInt64.size) :
    (address.past position).bits = .ofNat (address.bits.toNat + position) := by
  refine UInt64.toNat_inj.mp ?_
  rw [toNat_past fits, UInt64.toNat_ofNat_of_lt' fits]

theorem past_past {further : Nat}
    (fits : address.bits.toNat + position + further < UInt64.size) :
    (address.past position).past further = address.past (position + further) := by
  have first : (address.past position).bits.toNat = address.bits.toNat + position :=
    toNat_past (by omega)
  refine ext_toNat ?_
  rw [toNat_past (first ▸ fits), first, toNat_past (by omega), Nat.add_assoc]

end Past

end Address

/-! ## Multiples

The alignments in use divide 2^64, so wrapping around keeps multiples. -/

theorem dvd_toNat_ofNat {alignment number : Nat} (word : alignment ∣ UInt64.size)
    (multiple : alignment ∣ number) : alignment ∣ (UInt64.ofNat number).toNat := by
  rw [UInt64.toNat_ofNat']
  exact (Nat.dvd_mod_iff word).mpr multiple

theorem dvd_toNat_add {alignment : Nat} {first second : UInt64} (word : alignment ∣ UInt64.size)
    (left : alignment ∣ first.toNat) (right : alignment ∣ second.toNat) :
    alignment ∣ (first + second).toNat := by
  rw [UInt64.toNat_add]
  exact (Nat.dvd_mod_iff word).mpr (Nat.dvd_add left right)

theorem Scalar.size_dvd_size (scalar : Scalar) : scalar.size ∣ UInt64.size := by
  cases scalar <;> decide

end TypeReflection
