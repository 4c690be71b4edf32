/-! # Raw mutexes

Locks are built on raw mutexes that another library provides. All that is known of them is what is
written here: an exclusive one is held or free, and a recursive one keeps the thread that holds it
and how often that thread acquired it. At the end stand the plainest mutexes of both kinds.
-/

namespace TypeReflection

/-- Identity of a thread. -/
abbrev Thread : Type := Nat

/-- What can be done to a raw mutex. -/
class RawMutex (Raw : Type) where
  /-- A new mutex. -/
  free : Raw
  /-- The mutex after `thread` acquired it, nothing if it would have to wait. -/
  acquire? (thread : Thread) (raw : Raw) : Option Raw
  /-- The mutex after its holder released one acquisition. -/
  release (raw : Raw) : Raw
  isLocked (raw : Raw) : Bool

open RawMutex

/-- A raw mutex that is held or free. -/
class ExclusiveMutex (Raw : Type) extends RawMutex Raw where
  isLocked_free : isLocked (free : Raw) = false
  /-- Whether it is held is all there is to it, as long as no thread waits for it. -/
  eq_of_isLocked_eq {raw other : Raw} : isLocked raw = isLocked other → raw = other
  /-- A thread has to wait just while it is held. -/
  isSome_acquire?_iff (thread : Thread) (raw : Raw) :
    (acquire? thread raw).isSome = true ↔ isLocked raw = false
  isLocked_of_acquire? {thread : Thread} {raw next : Raw} :
    acquire? thread raw = some next → isLocked next = true
  isLocked_release {raw : Raw} : isLocked raw = true → isLocked (release raw) = false

/-- A raw mutex that keeps its holder and how often that thread acquired it. -/
class RecursiveMutex (Raw : Type) extends RawMutex Raw where
  /-- The thread that holds the mutex. -/
  holder? : Raw → Option Thread
  /-- Acquisitions that were not released. -/
  count : Raw → Nat
  count_free : count free = 0
  holder?_eq_none_iff (raw : Raw) : holder? raw = none ↔ count raw = 0
  isLocked_iff (raw : Raw) : isLocked raw = true ↔ 0 < count raw
  /-- The holder and the count are all there is to it, as long as no thread waits for it. -/
  eq_of_count_eq {raw other : Raw} :
    holder? raw = holder? other → count raw = count other → raw = other
  /-- A thread has to wait just while another one holds it. -/
  isSome_acquire?_iff (thread : Thread) (raw : Raw) :
    (acquire? thread raw).isSome = true ↔ ∀ holder ∈ holder? raw, thread = holder
  holder?_of_acquire? {thread : Thread} {raw next : Raw} :
    acquire? thread raw = some next → holder? next = some thread
  count_of_acquire? {thread : Thread} {raw next : Raw} :
    acquire? thread raw = some next → count next = count raw + 1
  count_release {raw : Raw} : 0 < count raw → count (release raw) = count raw - 1
  /-- The holder keeps it until the last acquisition is released. -/
  holder?_release {raw : Raw} : 1 < count raw → holder? (release raw) = holder? raw

/-! ## The plainest mutexes -/

/-- An exclusive mutex. -/
inductive PlainMutex where
  | free
  | held
  deriving Repr, DecidableEq

namespace PlainMutex

instance : RawMutex PlainMutex where
  free := .free
  acquire? _
    | .free => some .held
    | .held => none
  release _ := .free
  isLocked
    | .free => false
    | .held => true

instance : ExclusiveMutex PlainMutex where
  isLocked_free := rfl
  eq_of_isLocked_eq {raw other} same := by
    match raw, other with
    | .free, .free | .held, .held => rfl
    | .free, .held | .held, .free => cases same
  isSome_acquire?_iff thread raw := by cases raw <;> simp [acquire?, isLocked]
  isLocked_of_acquire? {_ raw _} given := by
    cases raw with
    | free =>
        cases given
        rfl
    | held => cases given
  isLocked_release _ := rfl

end PlainMutex

/-- A recursive mutex. -/
inductive CountingMutex where
  | free
  /-- The thread acquired the mutex once, and `repeats` times again. -/
  | held (thread : Thread) (repeats : Nat)
  deriving Repr, DecidableEq

namespace CountingMutex

instance : RawMutex CountingMutex where
  free := .free
  acquire? thread
    | .free => some (.held thread 0)
    | .held holder repeats =>
        if holder = thread then some (.held holder (repeats + 1)) else none
  release
    | .free | .held _ 0 => .free
    | .held holder (repeats + 1) => .held holder repeats
  isLocked
    | .free => false
    | .held .. => true

/-- The thread that holds the mutex. -/
def holder? : CountingMutex → Option Thread
  | .free => none
  | .held thread _ => some thread

/-- Acquisitions that were not released. -/
def count : CountingMutex → Nat
  | .free => 0
  | .held _ repeats => repeats + 1

variable {thread : Thread} {raw next : CountingMutex}

theorem acquired (given : acquire? thread raw = some next) :
    next.holder? = some thread ∧ next.count = raw.count + 1 := by
  cases raw with
  | free =>
      cases given
      exact ⟨rfl, rfl⟩
  | held holder repeats =>
      obtain ⟨own, same⟩ := Option.ite_none_right_eq_some.mp given
      cases same
      exact ⟨congrArg some own, rfl⟩

instance : RecursiveMutex CountingMutex where
  holder? := holder?
  count := count
  count_free := rfl
  holder?_eq_none_iff raw := by cases raw <;> simp [holder?, count]
  isLocked_iff raw := by cases raw <;> simp [isLocked, count]
  eq_of_count_eq {raw other} holder same := by
    cases raw <;> cases other <;> simp_all [holder?, count]
  isSome_acquire?_iff thread raw := by
    cases raw with
    | free => simp [acquire?, holder?]
    | held holder repeats => simpa [acquire?, holder?] using Eq.comm
  holder?_of_acquire? given := (acquired given).1
  count_of_acquire? given := (acquired given).2
  count_release {raw} _ := by
    match raw with
    | .free | .held _ 0 | .held _ (_ + 1) => rfl
  holder?_release {raw} twice := by
    match raw with
    | .free | .held _ 0 => simp [count] at twice
    | .held _ (_ + 1) => rfl

end CountingMutex

end TypeReflection
