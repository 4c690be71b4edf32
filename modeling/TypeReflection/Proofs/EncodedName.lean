import TypeReflection.EncodedName
import TypeReflection.Proofs.Memory

/-! # Where encoded names end

A zero byte ends an encoded name unless it belongs to a payload. A well-formed name has all its
payloads, so that the zero byte behind it always ends it.
-/

namespace TypeReflection

namespace EncodedName

/-- The bytes up to the first zero byte outside payloads, the next `pending` bytes belonging to a
    payload. -/
def cutFrom : (pending : Nat) → List UInt8 → List UInt8
  | _, [] => []
  | pending + 1, byte :: rest => byte :: cutFrom pending rest
  | 0, byte :: rest =>
      if byte = 0 then [] else byte :: cutFrom ((payloadLength? byte).getD 0) rest

/-- The bytes up to the first zero byte outside payloads. -/
def cut (bytes : List UInt8) : List UInt8 :=
  cutFrom 0 bytes

theorem scan_of_holds {memory : Memory} {start pending limit : Nat} {bytes : List UInt8}
    (holds : memory.Holds start (bytes ++ [0])) (whole : isWellFormedFrom pending bytes = true)
    (reaches : bytes.length < limit) :
    scan memory (.ofNat start) pending limit = .ok (cutFrom pending bytes) := by
  induction bytes generalizing start pending limit with
  | nil =>
      obtain ⟨limit, rfl⟩ := Nat.exists_eq_add_of_lt reaches
      cases pending with
      | zero => exact bind_eq_ok.mpr ⟨0, holds.byte, rfl⟩
      | succ pending => cases whole
  | cons byte bytes ih =>
      obtain ⟨first, rest⟩ := Memory.holds_cons.mp holds
      cases limit with
      | zero => exact absurd reaches (Nat.not_lt_zero _)
      | succ limit =>
          have room := Nat.lt_of_succ_lt_succ reaches
          refine bind_eq_ok.mpr ⟨byte, first.byte, ?_⟩
          cases pending with
          | succ pending =>
              have next := ih rest whole room
              rw [UInt64.ofNat_add] at next
              exact bind_eq_ok.mpr ⟨_, next, rfl⟩
          | zero =>
              have next := ih rest whole room
              rw [UInt64.ofNat_add] at next
              dsimp only
              by_cases last : byte = 0
              · simp [last, cutFrom]
                rfl
              · rw [if_neg last, cutFrom, if_neg last]
                exact bind_eq_ok.mpr ⟨_, next, rfl⟩

/-- A well-formed name with a zero byte behind it is read up to where it ends. -/
theorem read_of_holds {memory : Memory} {address : Address} {bytes : List UInt8}
    (holds : memory.Holds address.bits.toNat (bytes ++ [0])) (whole : isWellFormed bytes = true) :
    read memory address = .ok ⟨cut bytes⟩ := by
  have fits := holds.fits
  rw [List.length_append, List.length_singleton] at fits
  have scanned := scan_of_holds holds whole
    (show bytes.length < Memory.room address.bits by unfold Memory.room; omega)
  rw [UInt64.ofNat_toNat] at scanned
  rw [read, scanned, map_ok]
  rfl

end EncodedName

end TypeReflection
