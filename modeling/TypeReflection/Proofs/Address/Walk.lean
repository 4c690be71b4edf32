import Mathlib.Algebra.Ring.Int.Defs
import TypeReflection.Proofs.Link

/-! # Walks of an address

An address that is moved again and again is where it started plus all that it was moved by, modulo
2^64. A step stops where that sum is null, and then leaves the address where it is. A link that
leads to its target directly goes where its offset does, and stops where that is null.
-/

namespace TypeReflection

theorem toNat_add_toUInt64 (bits : UInt64) (delta : Int64) :
    ((bits + delta.toUInt64).toNat : Int) = (bits.toNat + delta.toInt) % 2 ^ 64 := by
  have value : delta.toInt = delta.toUInt64.toBitVec.toInt := rfl
  have word : delta.toUInt64.toBitVec.toNat = delta.toUInt64.toNat := rfl
  rw [UInt64.toNat_add, value, BitVec.toInt_eq_toNat_cond, word]
  split <;> omega

theorem word_eq_zero_iff_dvd {word : UInt64} {sum : Int}
    (same : (word.toNat : Int) = sum % 2 ^ 64) :
    word = 0 ↔ (2 ^ 64 : Int) ∣ sum := by
  rw [Int.dvd_iff_emod_eq_zero, ← same, ← UInt64.toNat_inj]
  exact Int.natCast_eq_zero.symm

namespace Address

/-- Moving an address by `delta` leads to the address with these bits, or stops if they are null. -/
structure Arrives (outcome : Except Fault Address) (start : Address) (delta : Int64)
    (bits : UInt64) : Prop where
  ok_iff : ∀ moved, outcome = .ok moved ↔ moved.bits = bits
  error_iff : ∀ fault, outcome = .error fault ↔ bits = 0 ∧ fault = .wrappedToNull start delta

theorem arrives_offset (start : Address) (delta : Int64) :
    Arrives (start.offset delta) start delta (start.bits + delta.toUInt64) where
  ok_iff moved := ⟨bits_of_offset, offset_of_bits⟩
  error_iff fault := by
    constructor
    · intro stopped
      refine ⟨Decidable.byContradiction fun present => ?_, offset_error stopped⟩
      have moved : start.offset delta = .ok ⟨_, present⟩ := offset_of_bits rfl
      rw [moved] at stopped
      cases stopped
    · rintro ⟨null, rfl⟩
      exact offset_of_null null

/-- One move of an address. -/
inductive Step where
  /-- Forward by an unsigned number of bytes. -/
  | add (count : UInt64)
  /-- In either direction. -/
  | offset (delta : Int64)
  deriving Repr, DecidableEq

namespace Step

/-- How many bytes the step goes forward. -/
def distance : Step → Int
  | .add count => count.toNat
  | .offset delta => delta.toInt

/-- What is added to the address, counts above the signed range wrapping around. -/
def delta : Step → Int64
  | .add count => count.toInt64
  | .offset delta => delta

/-- Where the step leads. -/
def target (step : Step) (address : Address) : Except Fault Address :=
  match step with
  | .add count => address.add count
  | .offset delta => address.offset delta

theorem arrives_target (step : Step) (address : Address) :
    Arrives (step.target address) address step.delta (address.bits + step.delta.toUInt64) := by
  cases step <;> exact arrives_offset address _

/-- Counts that wrap around lead as far, modulo 2^64. -/
theorem toNat_add_delta (step : Step) (bits : UInt64) :
    ((bits + step.delta.toUInt64).toNat : Int) = (bits.toNat + step.distance) % 2 ^ 64 := by
  cases step with
  | add count =>
    have word : (Step.add count).delta.toUInt64 = count := UInt64.toUInt64_toInt64 count
    rw [word, UInt64.toNat_add]
    exact Int.natCast_emod ..
  | offset delta => exact toNat_add_toUInt64 bits delta

theorem toNat_of_target {step : Step} {address moved : Address}
    (given : step.target address = .ok moved) :
    (moved.bits.toNat : Int) = (address.bits.toNat + step.distance) % 2 ^ 64 := by
  rw [((step.arrives_target address).ok_iff moved).mp given, toNat_add_delta]

/-- A step stops exactly where it would lead to null. -/
theorem target_eq_error_iff {step : Step} {address : Address} {fault : Fault} :
    step.target address = .error fault ↔
      (2 ^ 64 : Int) ∣ address.bits.toNat + step.distance ∧
        fault = .wrappedToNull address step.delta := by
  rw [(step.arrives_target address).error_iff,
    word_eq_zero_iff_dvd (step.toNat_add_delta address.bits)]

end Step

/-- The address after a step, where it was if the step stops. -/
def after (address : Address) (step : Step) : Address :=
  match step.target address with
  | .ok moved => moved
  | .error _ => address

/-- The address after some steps. -/
def walk (start : Address) (steps : List Step) : Address :=
  steps.foldl after start

/-- Those of the steps that do not stop. -/
def taken (start : Address) : List Step → List Step
  | [] => []
  | step :: steps =>
      match step.target start with
      | .ok moved => step :: taken moved steps
      | .error _ => taken start steps

/-- The value of an address plus the distances of those of the steps that do not stop. -/
def runningSum (start : Address) (steps : List Step) : Int :=
  start.bits.toNat + ((start.taken steps).map Step.distance).sum

section Walk

variable {start moved : Address} {step : Step} {fault : Fault}

theorem after_of_stopped (stopped : step.target start = .error fault) :
    start.after step = start := by
  rw [after, stopped]

theorem walk_cons_of_moved (given : step.target start = .ok moved) (steps : List Step) :
    start.walk (step :: steps) = moved.walk steps := by
  rw [walk, List.foldl_cons, after, given, walk]

theorem walk_cons_of_stopped (stopped : step.target start = .error fault) (steps : List Step) :
    start.walk (step :: steps) = start.walk steps := by
  rw [walk, List.foldl_cons, after_of_stopped stopped, walk]

theorem runningSum_cons_of_moved (given : step.target start = .ok moved) (steps : List Step) :
    start.runningSum (step :: steps) =
      start.bits.toNat + step.distance + ((moved.taken steps).map Step.distance).sum := by
  rw [runningSum, taken, given, List.map_cons, List.sum_cons, Int.add_assoc]

theorem runningSum_cons_of_stopped (stopped : step.target start = .error fault)
    (steps : List Step) : start.runningSum (step :: steps) = start.runningSum steps := by
  rw [runningSum, taken, stopped, runningSum]

theorem toNat_walk (start : Address) (steps : List Step) :
    ((start.walk steps).bits.toNat : Int) = start.runningSum steps % 2 ^ 64 := by
  induction steps generalizing start with
  | nil =>
    have small := start.bits.toNat_lt
    simp only [walk, runningSum, taken, List.foldl_nil, List.map_nil, List.sum_nil]
    omega
  | cons step steps ih =>
    cases moves : step.target start with
    | error fault => rw [walk_cons_of_stopped moves, ih, runningSum_cons_of_stopped moves]
    | ok moved =>
      have there := Step.toNat_of_target moves
      rw [walk_cons_of_moved moves, ih, runningSum, runningSum_cons_of_moved moves]
      omega

end Walk

end Address

theorem DirectLink.arrives {link : DirectLink} (present : link.offset ≠ 0) :
    Address.Arrives link.target link.anchor link.offset.toInt64
      (link.anchor.bits + link.offset.toInt64.toUInt64) := by
  have given : link.target = link.anchor.offset link.offset.toInt64 := by
    rw [target, isAbsent, not_isAbsentOffset_of_ne present]
    rfl
  rw [given]
  exact Address.arrives_offset ..

theorem IndirectableLink.arrives {link : IndirectableLink} (present : link.offset ≠ 0)
    (even : 2 ∣ link.offset.toInt) (memory : Memory) :
    Address.Arrives (link.target memory) link.anchor link.offset.toInt64
      (link.anchor.bits + link.offset.toInt64.toUInt64) := by
  rw [target_of_unmarked present (and_one_of_even even)]
  exact Address.arrives_offset ..

/-- What an offset other than zero is resolved to. -/
theorem resolveOffset_eq (anchor : UInt64) {offset : Int32} (present : offset ≠ 0) :
    resolveOffset anchor offset = .ok (anchor + offset.toInt64.toUInt64) := by
  rw [resolveOffset, not_isAbsentOffset_of_ne present]
  rfl

namespace Address

/-- Steps lead to the start plus the distances of those that do not stop, modulo 2^64, never to
    null. A step stops exactly if it would complete the sum to null, and changes nothing then; so
    two ways of one length that nowhere stop end at one address. A present offset leads links to
    where it is resolved to, and nowhere exactly if that is null. -/
theorem walk_exact (start : Address) (steps : List Step) :
    (start.walk steps).bits ≠ 0 ∧
      ((start.walk steps).bits.toNat : Int) = start.runningSum steps % 2 ^ 64 ∧
      (∀ (step : Step) (fault : Fault), step.target (start.walk steps) = .error fault ↔
        (2 ^ 64 : Int) ∣ start.runningSum steps + step.distance ∧
          fault = .wrappedToNull (start.walk steps) step.delta) ∧
      (∀ step : Step, (2 ^ 64 : Int) ∣ start.runningSum steps + step.distance →
        start.walk (steps ++ [step]) = start.walk steps) ∧
      (∀ others : List Step, start.taken steps = steps → start.taken others = others →
        (2 ^ 64 : Int) ∣ (steps.map Step.distance).sum - (others.map Step.distance).sum →
          start.walk steps = start.walk others) ∧
      ∀ (anchor : Address) (offset : Int32), offset ≠ 0 →
        ∃ bits, resolveOffset anchor.bits offset = .ok bits ∧
          (bits.toNat : Int) = (anchor.bits.toNat + offset.toInt) % 2 ^ 64 ∧
          Arrives (DirectLink.target ⟨anchor, offset⟩) anchor offset.toInt64 bits ∧
          (2 ∣ offset.toInt → ∀ memory : Memory,
            Arrives (IndirectableLink.target ⟨anchor, offset⟩ memory) anchor offset.toInt64
              bits) := by
  have there := toNat_walk start steps
  have stops (step : Step) (fault : Fault) : step.target (start.walk steps) = .error fault ↔
      (2 ^ 64 : Int) ∣ start.runningSum steps + step.distance ∧
        fault = .wrappedToNull (start.walk steps) step.delta := by
    rw [Step.target_eq_error_iff, there, Int.dvd_iff_emod_eq_zero, Int.dvd_iff_emod_eq_zero,
      Int.emod_add_emod]
  refine ⟨(start.walk steps).ne_null, there, stops, ?_, ?_, ?_⟩
  · intro step null
    rw [walk, List.foldl_append, List.foldl_cons, List.foldl_nil]
    exact after_of_stopped ((stops step _).mpr ⟨null, rfl⟩)
  · intro others all allOthers same
    have elsewhere := toNat_walk start others
    rw [runningSum, all] at there
    rw [runningSum, allOthers] at elsewhere
    apply ext_toNat
    omega
  · intro anchor offset present
    refine ⟨_, resolveOffset_eq anchor.bits present, ?_, DirectLink.arrives present,
      fun even => IndirectableLink.arrives present even⟩
    rw [toNat_add_toUInt64, Int32.toInt_toInt64]

/-- Past the end of the address space and back, with a step that would lead to null between. -/
theorem walk_exact_aroundTheEnd :
    let start : Address := ⟨0xFFFFFFFFFFFFFFF0, by decide⟩
    start.walk [.add 0x18, .offset (-8), .offset (-0x10), .add 0xFFFFFFFFFFFFFFFF]
        = ⟨0xFFFFFFFFFFFFFFF7, by decide⟩ ∧
      start.walk [.add 0x18] = start.walk [.offset 0x20, .add 0xFFFFFFFFFFFFFFF8] ∧
      start.walk ([.add 0x18] ++ [.offset (-8)]) = start.walk [.add 0x18] ∧
      ∃ bits, resolveOffset start.bits 0x10 = .ok bits ∧ bits = 0 ∧
        DirectLink.target ⟨start, 0x10⟩ = .error (.wrappedToNull start 0x10) ∧
        IndirectableLink.target ⟨start, 0x10⟩ .empty = .error (.wrappedToNull start 0x10) := by
  intro start
  obtain ⟨-, there, -⟩ :=
    walk_exact start [.add 0x18, .offset (-8), .offset (-0x10), .add 0xFFFFFFFFFFFFFFFF]
  obtain ⟨-, -, -, stays, together, links⟩ := walk_exact start [.add 0x18]
  obtain ⟨bits, resolved, value, direct, indirectable⟩ := links start 0x10 (by decide)
  have null : bits = 0 := UInt64.toNat_inj.mp (Int.natCast_inj.mp (value.trans (by decide)))
  refine ⟨ext_toNat (Int.natCast_inj.mp (there.trans (by decide +kernel))),
    together _ (by decide +kernel) (by decide +kernel) (by decide +kernel),
    stays _ (by decide +kernel), bits, resolved, null, ?_, ?_⟩
  · exact (direct.error_iff _).mpr ⟨null, rfl⟩
  · exact ((indirectable (by decide) .empty).error_iff _).mpr ⟨null, rfl⟩

end Address

end TypeReflection
