import TypeReflection.Proofs.EncodedName

/-! # Encoded names come back as written

Positions tell where an encoded name ends: those that belong to no payload are the start and
whatever stands behind such a position and the payload that its byte announces. A name ends at the
first of them that holds zero. What is read is the written name up to there, and what has been read
once is read again wherever it is written.
-/

namespace TypeReflection

namespace EncodedName

/-! ## Positions outside payloads -/

/-- The positions that belong to no payload, the first `pending` bytes belonging to one. -/
inductive OutsideFrom (pending : Nat) (bytes : List UInt8) : Nat → Prop where
  | start : OutsideFrom pending bytes pending
  | behind {index next : Nat} {byte : UInt8} (outside : OutsideFrom pending bytes index)
      (there : bytes[index]? = some byte)
      (away : next = index + 1 + (payloadLength? byte).getD 0) :
      OutsideFrom pending bytes next

/-- The positions that belong to no payload. -/
def Outside (bytes : List UInt8) : Nat → Prop :=
  OutsideFrom 0 bytes

/-- The name ends at `stop`: at the first zero outside payloads, or behind all bytes if there is
    none. -/
structure EndsFrom (pending : Nat) (bytes : List UInt8) (stop : Nat) : Prop where
  outside : OutsideFrom pending bytes stop
  ending : stop = bytes.length ∨ bytes[stop]? = some 0
  first : ∀ index < stop, OutsideFrom pending bytes index → bytes[index]? ≠ some 0

/-- The name in the bytes ends at `stop`. -/
def EndsAt (bytes : List UInt8) (stop : Nat) : Prop :=
  EndsFrom 0 bytes stop

section Positions

variable {pending index : Nat} {byte : UInt8} {bytes : List UInt8}

theorem OutsideFrom.pending_le (outside : OutsideFrom pending bytes index) : pending ≤ index := by
  induction outside with
  | start => exact Nat.le_refl _
  | behind _ _ away ih => omega

theorem outsideFrom_nil : OutsideFrom pending [] index ↔ index = pending := by
  constructor
  · intro outside
    cases outside with
    | start => rfl
    | behind _ there => simp at there
  · rintro rfl
    exact .start

theorem outsideFrom_succ :
    OutsideFrom (pending + 1) (byte :: bytes) (index + 1) ↔ OutsideFrom pending bytes index := by
  constructor
  · intro outside
    generalize shifted : index + 1 = position at outside
    induction outside generalizing index with
    | start =>
        cases shifted
        exact .start
    | @behind earlier _ _ inner there away ih =>
        cases earlier with
        | zero => exact absurd inner.pending_le (by omega)
        | succ earlier => exact .behind (ih rfl) (by simpa using there) (by omega)
  · intro outside
    induction outside with
    | start => exact .start
    | behind _ there away ih => exact .behind ih (by simpa using there) (by omega)

theorem outsideFrom_zero :
    OutsideFrom 0 (byte :: bytes) (index + 1)
      ↔ OutsideFrom ((payloadLength? byte).getD 0) bytes index := by
  constructor
  · intro outside
    generalize shifted : index + 1 = position at outside
    induction outside generalizing index with
    | start => cases shifted
    | @behind earlier _ _ inner there away ih =>
        cases earlier with
        | zero =>
            cases there
            have same : index = (payloadLength? byte).getD 0 := by omega
            exact same ▸ .start
        | succ earlier => exact .behind (ih rfl) (by simpa using there) (by omega)
  · intro outside
    induction outside with
    | start => exact .behind .start rfl (by omega)
    | behind _ there away ih => exact .behind ih (by simpa using there) (by omega)

end Positions

/-! ## Acceptance and cutting by position -/

section Cutting

variable {pending : Nat} {bytes : List UInt8}

/-- Bytes are well formed if they end outside payloads. -/
theorem isWellFormedFrom_iff :
    isWellFormedFrom pending bytes = true ↔ OutsideFrom pending bytes bytes.length := by
  induction bytes generalizing pending with
  | nil =>
      rw [outsideFrom_nil, List.length_nil]
      cases pending with
      | zero => simp [isWellFormedFrom]
      | succ pending => simp [isWellFormedFrom]
  | cons byte bytes ih =>
      cases pending with
      | zero => rw [isWellFormedFrom, ih, List.length_cons, outsideFrom_zero]
      | succ pending => rw [isWellFormedFrom, ih, List.length_cons, outsideFrom_succ]

theorem isWellFormed_iff : isWellFormed bytes = true ↔ Outside bytes bytes.length :=
  isWellFormedFrom_iff

/-- What stands behind the first byte ends where the whole does. -/
theorem EndsFrom.cons {byte : UInt8} {after stop : Nat} (ends : EndsFrom after bytes stop)
    (shift : ∀ index,
      OutsideFrom pending (byte :: bytes) (index + 1) ↔ OutsideFrom after bytes index)
    (goesOn : OutsideFrom pending (byte :: bytes) 0 → byte ≠ 0) :
    EndsFrom pending (byte :: bytes) (stop + 1) where
  outside := (shift stop).mpr ends.outside
  ending := by simpa using ends.ending
  first index earlier outside := by
    cases index with
    | zero => simpa using goesOn outside
    | succ index =>
        have apart := ends.first index (by omega) ((shift index).mp outside)
        simpa using apart

theorem EndsFrom.at_start (ending : 0 = bytes.length ∨ bytes[0]? = some 0) :
    EndsFrom 0 bytes 0 where
  outside := .start
  ending := ending
  first _ earlier := absurd earlier (Nat.not_lt_zero _)

theorem EndsFrom.cons_payload {byte : UInt8} {stop : Nat} (ends : EndsFrom pending bytes stop) :
    EndsFrom (pending + 1) (byte :: bytes) (stop + 1) := by
  apply ends.cons fun _ => outsideFrom_succ
  intro outside
  exact absurd outside.pending_le (Nat.not_succ_le_zero _)

theorem EndsFrom.cons_outside {byte : UInt8} {stop : Nat} (nonzero : byte ≠ 0)
    (ends : EndsFrom ((payloadLength? byte).getD 0) bytes stop) :
    EndsFrom 0 (byte :: bytes) (stop + 1) :=
  ends.cons (fun _ => outsideFrom_zero) fun _ => nonzero

/-- Well-formed bytes are cut where they end. -/
theorem cutFrom_eq_take (whole : isWellFormedFrom pending bytes = true) :
    ∃ stop, EndsFrom pending bytes stop ∧ cutFrom pending bytes = bytes.take stop := by
  induction bytes generalizing pending with
  | nil =>
      cases pending with
      | succ pending => cases whole
      | zero => exact ⟨0, .at_start (.inl rfl), rfl⟩
  | cons byte bytes ih =>
      cases pending with
      | succ pending =>
          have rest : isWellFormedFrom pending bytes = true := whole
          obtain ⟨stop, ends, cut⟩ := ih rest
          refine ⟨stop + 1, ends.cons_payload, ?_⟩
          rw [cutFrom, cut, List.take_succ_cons]
      | zero =>
          by_cases zero : byte = 0
          · refine ⟨0, .at_start (.inr (by simp [zero])), ?_⟩
            rw [cutFrom, if_pos zero, List.take_zero]
          · have rest : isWellFormedFrom ((payloadLength? byte).getD 0) bytes = true := whole
            obtain ⟨stop, ends, cut⟩ := ih rest
            refine ⟨stop + 1, .cons_outside zero ends, ?_⟩
            rw [cutFrom, if_neg zero, cut, List.take_succ_cons]

/-- A name that ends behind all its bytes has no zero outside payloads. -/
theorem EndsFrom.clear (ends : EndsFrom pending bytes bytes.length) {index : Nat}
    (outside : OutsideFrom pending bytes index) : bytes[index]? ≠ some 0 := by
  rcases Nat.lt_or_ge index bytes.length with inside | past
  · exact ends.first index inside outside
  · simp [List.getElem?_eq_none past]

theorem EndsFrom.cut_eq_self (ends : EndsFrom 0 bytes bytes.length) : cut bytes = bytes := by
  obtain ⟨stop, found, same⟩ := cutFrom_eq_take (isWellFormedFrom_iff.mpr ends.outside)
  have last := found.ending.resolve_right (ends.clear found.outside)
  rw [cut, same, last, List.take_length]

end Cutting

/-! ## Scanning -/

section Scanning

variable {memory : Memory} {start : Nat}

/-- What a scan finds ends behind its last byte, and a zero stands there. -/
theorem holds_of_scan {pending limit : Nat} {found : List UInt8}
    (fits : start + limit ≤ UInt64.size)
    (scanned : scan memory (.ofNat start) pending limit = .ok found) :
    EndsFrom pending found found.length ∧ memory.Holds start (found ++ [0]) := by
  induction limit generalizing start pending found with
  | zero => cases scanned
  | succ limit ih =>
      obtain ⟨byte, stored, rest⟩ := bind_eq_ok.mp scanned
      have first := Memory.holds_of_byte (by omega) stored
      have next : UInt64.ofNat start + 1 = .ofNat (start + 1) := (UInt64.ofNat_add start 1).symm
      cases pending with
      | succ pending =>
          obtain ⟨tail, later, same⟩ := bind_eq_ok.mp rest
          cases same
          obtain ⟨ends, holds⟩ := ih (by omega) (next ▸ later)
          exact ⟨ends.cons_payload, Memory.holds_cons.mpr ⟨first, holds⟩⟩
      | zero =>
          dsimp only at rest
          by_cases zero : byte = 0
          · rw [if_pos zero] at rest
            cases rest
            exact ⟨.at_start (.inl rfl), zero ▸ first⟩
          · rw [if_neg zero] at rest
            obtain ⟨tail, later, same⟩ := bind_eq_ok.mp rest
            cases same
            obtain ⟨ends, holds⟩ := ih (by omega) (next ▸ later)
            exact ⟨.cons_outside zero ends, Memory.holds_cons.mpr ⟨first, holds⟩⟩

theorem holds_of_read {address : Address} {name : EncodedName}
    (given : read memory address = .ok name) :
    EndsAt name.bytes name.bytes.length ∧
      memory.Holds address.bits.toNat (name.bytes ++ [0]) := by
  obtain ⟨found, scanned, same⟩ := map_eq_ok.mp given
  subst same
  have small := address.bits.toNat_lt
  have size : UInt64.size = 2 ^ 64 := rfl
  have whole : address.bits.toNat + Memory.room address.bits ≤ UInt64.size := by
    unfold Memory.room
    omega
  have there : UInt64.ofNat address.bits.toNat = address.bits := UInt64.ofNat_toNat
  exact holds_of_scan whole (there.symm ▸ scanned)

end Scanning

/-- Encoded names come back as written. Well-formed bytes with a zero behind them are read up to
    where the name ends, and only what stands up to there matters. Whatever a scan gives is well
    formed, ends nowhere earlier, has a zero behind it, and is read again wherever it is written
    with a zero behind it. -/
theorem read_round_trip (memory : Memory) (address : Address) :
    (∀ bytes, isWellFormed bytes = true → memory.Holds address.bits.toNat (bytes ++ [0]) →
      ∃ stop ≤ bytes.length, EndsAt bytes stop ∧
        read memory address = .ok ⟨bytes.take stop⟩ ∧
        ∀ other : Memory, (∀ index ≤ stop, other.byte? (.ofNat (address.bits.toNat + index))
            = memory.byte? (.ofNat (address.bits.toNat + index))) →
          read other address = .ok ⟨bytes.take stop⟩) ∧
      ∀ name, read memory address = .ok name →
        isWellFormed name.bytes = true ∧
          (∀ index, Outside name.bytes index → name.bytes[index]? ≠ some 0) ∧
          memory.Holds address.bits.toNat (name.bytes ++ [0]) ∧
          ∀ (other : Memory) (place : Address),
            other.Holds place.bits.toNat (name.bytes ++ [0]) → read other place = .ok name := by
  have again {name : EncodedName} (given : read memory address = .ok name) (other : Memory)
      (place : Address) (holds : other.Holds place.bits.toNat (name.bytes ++ [0])) :
      read other place = .ok name := by
    have ends := (holds_of_read given).1
    rw [read_of_holds holds (isWellFormed_iff.mpr ends.outside), ends.cut_eq_self]
  constructor
  · intro bytes whole holds
    obtain ⟨stop, ends, same⟩ := cutFrom_eq_take whole
    have inside : stop ≤ bytes.length := by
      rcases ends.ending with last | zero
      · exact Nat.le_of_eq last
      · exact Nat.le_of_lt (List.getElem?_eq_some_iff.mp zero).1
    have given : read memory address = .ok ⟨bytes.take stop⟩ := by
      rw [read_of_holds holds whole, cut, same]
    refine ⟨stop, inside, ends, given, fun other same => again given other address ?_⟩
    refine Memory.Holds.of_same (holds_of_read given).2 fun index below => same index ?_
    simp only [List.length_append, List.length_take, List.length_singleton] at below
    omega
  · intro name given
    obtain ⟨ends, holds⟩ := holds_of_read given
    exact ⟨isWellFormed_iff.mpr ends.outside, fun _ => ends.clear, holds, again given⟩

/-- A name whose payload holds zeros, in memory that holds nothing but the name and its end. -/
theorem read_round_trip_absolute :
    let bytes : List UInt8 := [0x53, 0x18, 0, 0, 1, 0, 0, 0, 0, 0, 0x67]
    let memory := Memory.empty.store 0x1000 ⟨bytes ++ [0]⟩
    (∃ stop, EndsAt bytes stop ∧ read memory ⟨0x1000, by decide⟩ = .ok ⟨bytes.take stop⟩) ∧
      isWellFormed bytes = true := by
  intro bytes memory
  have holds : memory.Holds 0x1000 (bytes ++ [0]) := ⟨by decide, by decide +kernel⟩
  have given : read memory ⟨0x1000, by decide⟩ = .ok ⟨bytes⟩ :=
    ok_of_toOption (by decide +kernel)
  obtain ⟨forward, back⟩ := read_round_trip memory ⟨0x1000, by decide⟩
  obtain ⟨whole, -⟩ := back ⟨bytes⟩ given
  obtain ⟨stop, -, ends, same, -⟩ := forward bytes whole holds
  exact ⟨⟨stop, ends, same⟩, whole⟩

end EncodedName

end TypeReflection
