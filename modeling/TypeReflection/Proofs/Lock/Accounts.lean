import TypeReflection.Lock.Session

/-! # Accounts of a lock

Whatever threads do to a lock, the acquisitions that were not released are all made by one thread,
and the mutex is in the state that their number calls for.
-/

namespace TypeReflection

variable {E R : Type}

/-! ## Mutexes -/

namespace Mutex

variable [ExclusiveMutex E] [RecursiveMutex R] {mutex next : Mutex E R} {thread holder : Thread}
  {count : Nat}

/-- The mutex is in the state after `count` acquisitions by `holder`. -/
def Counts (holder : Thread) (count : Nat) : Mutex E R → Prop
  | .exclusive raw => count = (RawMutex.isLocked raw).toNat
  | .recursive raw => RecursiveMutex.count raw = count ∧
      RecursiveMutex.holder? raw = if count = 0 then none else some holder

@[simp] theorem isRecursive_free (isRecursive : Bool) :
    (free isRecursive : Mutex E R).isRecursive = isRecursive := by
  cases isRecursive <;> rfl

@[simp] theorem isRecursive_release (mutex : Mutex E R) :
    mutex.release.isRecursive = mutex.isRecursive := by
  cases mutex <;> rfl

theorem isRecursive_of_acquire? (given : mutex.acquire? thread = some next) :
    next.isRecursive = mutex.isRecursive := by
  cases mutex with
  | exclusive raw | recursive raw =>
      obtain ⟨_, _, rfl⟩ := Option.map_eq_some_iff.mp given
      rfl

namespace Counts

variable (counts : mutex.Counts holder count)

include counts

theorem isLocked_iff : mutex.isLocked = true ↔ 0 < count := by
  cases mutex with
  | exclusive raw =>
      cases counts
      cases held : RawMutex.isLocked raw <;> simp [isLocked, held]
  | recursive raw => rw [isLocked, RecursiveMutex.isLocked_iff, counts.1]

theorem le_one (exclusive : mutex.isRecursive = false) : count ≤ 1 := by
  cases mutex with
  | exclusive raw =>
      cases counts
      exact Bool.toNat_le _
  | recursive => cases exclusive

/-- A mutex is had without waiting if it is free, or recursive and held by the same thread. -/
theorem isSome_acquire?_iff (thread : Thread) :
    (mutex.acquire? thread).isSome = true
      ↔ count = 0 ∨ mutex.isRecursive = true ∧ thread = holder := by
  cases mutex with
  | exclusive raw =>
      have law := ExclusiveMutex.isSome_acquire?_iff thread raw
      cases counts
      simp [acquire?, isRecursive, law]
  | recursive raw =>
      have law := RecursiveMutex.isSome_acquire?_iff thread raw
      rw [counts.2] at law
      by_cases none : count = 0
      · simpa [acquire?, isRecursive, none] using law
      · simpa [acquire?, isRecursive, none] using law

theorem acquired (given : mutex.acquire? thread = some next) :
    next.Counts thread (count + 1) ∧ (count = 0 ∨ thread = holder) := by
  have some := counts.isSome_acquire?_iff thread
  simp only [given, Option.isSome_some, true_iff] at some
  refine ⟨?_, some.imp_right And.right⟩
  cases mutex with
  | exclusive raw =>
      obtain ⟨raw', taken, rfl⟩ := Option.map_eq_some_iff.mp given
      have none : count = 0 := by simpa [isRecursive] using some
      simp [Counts, ExclusiveMutex.isLocked_of_acquire? taken, none]
  | recursive raw =>
      obtain ⟨raw', taken, rfl⟩ := Option.map_eq_some_iff.mp given
      have counted := RecursiveMutex.count_of_acquire? taken
      exact ⟨by rw [counted, counts.1], by simp [RecursiveMutex.holder?_of_acquire? taken]⟩

end Counts

theorem Counts.released (counts : mutex.Counts holder (count + 1)) :
    mutex.release.Counts holder count := by
  cases mutex with
  | exclusive raw =>
      have locked := counts.isLocked_iff.mpr (Nat.succ_pos count)
      have once := counts.le_one rfl
      simp only [release, Counts, ExclusiveMutex.isLocked_release locked, Bool.toNat_false]
      omega
  | recursive raw =>
      have held : 0 < RecursiveMutex.count raw := by
        rw [counts.1]
        exact Nat.succ_pos count
      have now : RecursiveMutex.count (RawMutex.release raw) = count := by
        rw [RecursiveMutex.count_release held, counts.1, Nat.add_sub_cancel]
      refine ⟨now, ?_⟩
      by_cases last : count = 0
      · rw [if_pos last]
        exact (RecursiveMutex.holder?_eq_none_iff _).mpr (now.trans last)
      · have more : 1 < RecursiveMutex.count raw := by
          rw [counts.1]
          omega
        rw [RecursiveMutex.holder?_release more, counts.2, if_neg (Nat.succ_ne_zero count),
          if_neg last]

theorem counts_of_free (free : mutex.isLocked = false) (holder : Thread) :
    mutex.Counts holder 0 := by
  cases mutex with
  | exclusive raw => exact (congrArg Bool.toNat free).symm
  | recursive raw =>
      have none : RecursiveMutex.count raw = 0 :=
        Nat.eq_zero_of_not_pos fun held =>
          Bool.eq_false_iff.mp free ((RecursiveMutex.isLocked_iff raw).mpr held)
      exact ⟨none, (RecursiveMutex.holder?_eq_none_iff raw).mpr none⟩

/-- The holder, the count of acquisitions and the flavor are all there is to a mutex. -/
theorem Counts.eq {other : Mutex E R} (one : mutex.Counts holder count)
    (same : other.Counts holder count) (flavor : mutex.isRecursive = other.isRecursive) :
    mutex = other := by
  match mutex, other with
  | .exclusive raw, .exclusive raw' =>
      refine congrArg exclusive (ExclusiveMutex.eq_of_isLocked_eq ?_)
      exact Bool.eq_iff_iff.mpr (one.isLocked_iff.trans same.isLocked_iff.symm)
  | .recursive raw, .recursive raw' =>
      refine congrArg recursive (RecursiveMutex.eq_of_count_eq ?_ (one.1.trans same.1.symm))
      exact one.2.trans same.2.symm
  | .exclusive _, .recursive _ | .recursive _, .exclusive _ => cases flavor

@[simp] theorem isLocked_free (isRecursive : Bool) :
    (free isRecursive : Mutex E R).isLocked = false := by
  cases isRecursive with
  | false => exact ExclusiveMutex.isLocked_free
  | true =>
      refine Bool.eq_false_iff.mpr fun locked => ?_
      exact Nat.ne_of_gt ((RecursiveMutex.isLocked_iff _).mp locked) RecursiveMutex.count_free

theorem eq_free (unlocked : mutex.isLocked = false) : mutex = free mutex.isRecursive :=
  (counts_of_free unlocked 0).eq (counts_of_free (isLocked_free _) 0) (isRecursive_free _).symm

end Mutex

/-! ## Locks -/

namespace Lock

@[simp] theorem mutex_withMutex (lock : Lock E R) (mutex : Mutex E R) :
    (lock.withMutex mutex).mutex = mutex := by
  cases lock <;> rfl

@[simp] theorem isReady_withMutex (lock : Lock E R) (mutex : Mutex E R) :
    (lock.withMutex mutex).isReady = lock.isReady := by
  cases lock <;> rfl

theorem checkReady_of_ready {lock : Lock E R} (ready : lock.isReady = true)
    (operation : LockOperation) : lock.checkReady operation = .ok () := by
  cases lock with
  | owned => rfl
  | embedded mutex stage =>
      cases stage with
      | ready => rfl
      | uninitialized | destroyed => cases ready

/-- Only an embedded lock is ever not ready, and then no operation is let through. -/
theorem checkReady_of_not_ready {lock : Lock E R} (closed : lock.isReady = false)
    (operation : LockOperation) : ∃ mutex stage, lock = .embedded mutex stage ∧
      lock.checkReady operation = .error (.notReady mutex.isRecursive operation stage) := by
  cases lock with
  | owned => cases closed
  | embedded mutex stage =>
      cases stage with
      | ready => cases closed
      | uninitialized | destroyed => exact ⟨mutex, _, rfl, rfl⟩

variable [ExclusiveMutex E] [RecursiveMutex R]

/-- A new lock of the same flavor. -/
def renewed : Lock E R → Lock E R
  | .owned mutex => newOwned mutex.isRecursive
  | .embedded mutex _ => newEmbedded mutex.isRecursive

@[simp] theorem renewed_newEmbedded (isRecursive : Bool) :
    (newEmbedded isRecursive : Lock E R).renewed = newEmbedded isRecursive :=
  congrArg newEmbedded (Mutex.isRecursive_free isRecursive)

@[simp] theorem isRecursive_renewed (lock : Lock E R) :
    lock.renewed.mutex.isRecursive = lock.mutex.isRecursive := by
  cases lock <;> exact Mutex.isRecursive_free _

theorem renewed_withMutex {lock : Lock E R} {mutex : Mutex E R}
    (same : mutex.isRecursive = lock.mutex.isRecursive) :
    (lock.withMutex mutex).renewed = lock.renewed := by
  cases lock with
  | owned => exact congrArg newOwned same
  | embedded => exact congrArg newEmbedded same

end Lock

/-! ## Sessions -/

/-- The operation that an action is let through as, if the lock has to be ready for it. -/
def LockAction.operation? : LockAction → Option LockOperation
  | .lock => some .lock
  | .unlock => some .unlock
  | .tryLock => some .tryLock
  | .destroy => some .destroy
  | .isLocked | .isRecursive | .isInitialized | .activate => none

namespace LockSession

variable [ExclusiveMutex E] [RecursiveMutex R] {α : Type} {session after inside : LockSession E R}
  {thread : Thread}

/-- The session after the thread acquired the lock, if the lock is ready and the thread need not
    wait. -/
def inside? (session : LockSession E R) (thread : Thread) : Option (LockSession E R) :=
  if session.lock.isReady then session.acquire? thread else none

theorem inside?_of_ready (ready : session.lock.isReady = true) :
    session.inside? thread = session.acquire? thread :=
  if_pos ready

theorem inside?_of_not_ready (closed : session.lock.isReady = false) :
    session.inside? thread = none := by
  simp [inside?, closed]

theorem inside?_eq_some : session.inside? thread = some inside ↔
    session.lock.isReady = true ∧ ∃ mutex, session.lock.mutex.acquire? thread = some mutex ∧
      inside = ⟨session.lock.withMutex mutex, fun other =>
        if other = thread then session.holds other + 1 else session.holds other⟩ := by
  cases taken : session.lock.mutex.acquire? thread with
  | none => simp [inside?, acquire?, taken]
  | some mutex =>
      simp only [inside?, acquire?, taken, Option.some.injEq, exists_eq_left',
        Option.ite_none_right_eq_some]
      refine and_congr_right fun _ => ?_
      exact Option.some_inj.trans eq_comm

theorem isSome_inside?_iff : (session.inside? thread).isSome = true ↔
    session.lock.isReady = true ∧ (session.lock.mutex.acquire? thread).isSome = true := by
  cases taken : session.lock.mutex.acquire? thread <;> simp [inside?, acquire?, taken]

/-! ### Single actions -/

theorem act_of_not_ready (closed : session.lock.isReady = false) (action : LockAction)
    {operation : LockOperation} (guarded : action.operation? = some operation) :
    ∃ mutex stage, session.lock = .embedded mutex stage ∧
      (session.act thread action : LockResult E R α × LockSession E R)
        = (.failed (.lock (.notReady mutex.isRecursive operation stage)), session) := by
  obtain ⟨mutex, stage, embedded, refused⟩ := Lock.checkReady_of_not_ready closed operation
  refine ⟨mutex, stage, embedded, ?_⟩
  cases action with
  | lock | unlock | tryLock =>
      cases guarded
      simp only [act, refused]
  | destroy =>
      cases guarded
      rw [embedded] at refused
      have undestroyed : (Lock.embedded mutex stage).destroy
          = .error (.notReady mutex.isRecursive .destroy stage) := by
        rw [Lock.destroy, refused]
        rfl
      simp only [act, embedded, undestroyed]
  | isLocked | isRecursive | isInitialized | activate => cases guarded

theorem act_lock (ready : session.lock.isReady = true) :
    (session.act thread .lock : LockResult E R α × LockSession E R)
      = (if (session.inside? thread).isSome then .done else .refused,
        (session.inside? thread).getD session) := by
  simp only [act, Lock.checkReady_of_ready ready, inside?_of_ready ready]
  cases session.acquire? thread <;> rfl

theorem act_tryLock (ready : session.lock.isReady = true) :
    (session.act thread .tryLock : LockResult E R α × LockSession E R)
      = (.flag (session.inside? thread).isSome, (session.inside? thread).getD session) := by
  simp only [act, Lock.checkReady_of_ready ready, inside?_of_ready ready]
  cases session.acquire? thread <;> rfl

theorem act_unlock (ready : session.lock.isReady = true) (held : 0 < session.holds thread) :
    (session.act thread .unlock : LockResult E R α × LockSession E R)
      = (.done, session.release thread) := by
  simp only [act, Lock.checkReady_of_ready ready, if_neg (Nat.ne_of_gt held)]

theorem act_unlock_of_no_hold (ready : session.lock.isReady = true)
    (free : session.holds thread = 0) :
    (session.act thread .unlock : LockResult E R α × LockSession E R) = (.refused, session) := by
  simp only [act, Lock.checkReady_of_ready ready, if_pos free]

/-! ### What one event can do -/

/-- What one event can do to a session: nothing, an acquisition by a thread, a release by a thread
    that holds the lock, or another stage of an embedded lock that is free. -/
inductive Becomes (before : LockSession E R) :
    (gain loss : Option Thread) → LockSession E R → Prop where
  | same : Becomes before none none before
  | acquired {thread : Thread} {inside : LockSession E R}
      (given : before.inside? thread = some inside) : Becomes before (some thread) none inside
  | released {thread : Thread} (held : 0 < before.holds thread) :
      Becomes before none (some thread) (before.release thread)
  | restaged {old new : Mutex E R} {stage next : LockStage}
      (was : before.lock = .embedded old stage)
      (unused : before.lock.isReady = true → before.lock.isLocked = false)
      (free : new.isLocked = false) (flavor : new.isRecursive = old.isRecursive) :
      Becomes before none none ⟨.embedded new next, before.holds⟩

/-- One thread at most holds the lock, as often as the mutex has counted, and none does unless the
    lock is ready. -/
structure Consistent (session : LockSession E R) : Prop where
  counted : ∃ holder count, session.lock.mutex.Counts holder count ∧
    ∀ thread, session.holds thread = if thread = holder then count else 0
  ready : session.lock.isLocked = true → session.lock.isReady = true

theorem Consistent.of_free (free : session.lock.isLocked = false)
    (none : ∀ thread, session.holds thread = 0) : session.Consistent where
  counted := ⟨0, 0, Mutex.counts_of_free free 0, by simp [none]⟩
  ready := by simp [free]

theorem Consistent.isLocked_iff (consistent : session.Consistent) :
    session.lock.isLocked = true ↔ ∃ thread, 0 < session.holds thread := by
  obtain ⟨holder, count, counts, holds⟩ := consistent.counted
  refine counts.isLocked_iff.trans ⟨fun some => ⟨holder, by simpa [holds] using some⟩, ?_⟩
  rintro ⟨thread, held⟩
  by_cases own : thread = holder
  · simpa [holds, own] using held
  · simp [holds, own] at held

/-- Nobody holds a lock that is free. -/
theorem Consistent.holds_eq_zero (consistent : session.Consistent)
    (free : session.lock.isLocked = false) (thread : Thread) : session.holds thread = 0 := by
  refine Nat.eq_zero_of_not_pos fun held => ?_
  rw [consistent.isLocked_iff.mpr ⟨thread, held⟩] at free
  cases free

namespace Becomes

variable {gain loss : Option Thread} (becomes : session.Becomes gain loss after)

include becomes

/-- The holds of a thread go up with its acquisitions and down with its releases. -/
theorem holds_eq (thread : Thread) :
    after.holds thread + (if loss = some thread then 1 else 0)
      = session.holds thread + if gain = some thread then 1 else 0 := by
  cases becomes with
  | same => rfl
  | @acquired other _ given =>
      obtain ⟨_, _, _, rfl⟩ := inside?_eq_some.mp given
      by_cases own : other = thread
      · simp [own]
      · simp [own, Ne.symm own]
  | @released other held =>
      by_cases own : other = thread
      · subst own
        simp [release]
        omega
      · simp [release, own, Ne.symm own]
  | restaged => rfl

theorem renewed_eq : after.lock.renewed = session.lock.renewed := by
  cases becomes with
  | same => rfl
  | acquired given =>
      obtain ⟨_, _, taken, rfl⟩ := inside?_eq_some.mp given
      exact Lock.renewed_withMutex (Mutex.isRecursive_of_acquire? taken)
  | released => exact Lock.renewed_withMutex (Mutex.isRecursive_release _)
  | restaged was _ _ flavor =>
      rw [was]
      exact congrArg Lock.newEmbedded flavor

theorem consistent (before : session.Consistent) : after.Consistent := by
  obtain ⟨holder, count, counts, holds⟩ := before.counted
  cases becomes with
  | same => exact before
  | @acquired thread _ given =>
      obtain ⟨ready, mutex, taken, rfl⟩ := inside?_eq_some.mp given
      obtain ⟨counted, alone⟩ := counts.acquired taken
      refine ⟨⟨thread, count + 1, by simpa using counted, fun other => ?_⟩, by simp [ready]⟩
      by_cases own : other = thread
      · rcases alone with rfl | rfl <;> simp [holds, own]
      · rcases alone with rfl | rfl <;> simp [holds, own]
  | @released thread held =>
      -- the thread is the one holder, and what it releases was counted
      have own : thread = holder := by
        apply Decidable.byContradiction
        intro other
        simp [holds, other] at held
      subst own
      have some : count ≠ 0 := by simpa [holds, Nat.pos_iff_ne_zero] using held
      obtain ⟨rest, rfl⟩ := Nat.exists_eq_succ_of_ne_zero some
      have locked := before.ready (counts.isLocked_iff.mpr (Nat.succ_pos rest))
      refine ⟨⟨thread, rest, by simpa [release] using counts.released, fun other => ?_⟩, ?_⟩
      · by_cases own : other = thread <;> simp [release, holds, own]
      · simp [release, locked]
  | restaged was unused free flavor =>
      have idle : session.lock.isLocked = false := by
        cases locked : session.lock.isLocked with
        | false => rfl
        | true => exact locked.symm.trans (unused (before.ready locked))
      exact .of_free free (before.holds_eq_zero idle)

end Becomes

end LockSession

end TypeReflection
