import TypeReflection.Proofs.Lock.Sharing

/-! # Life of an embedded lock

An embedded lock is held only between its activation and its end. What it is asked to do at another
time it refuses, and a refusal leaves everything as it was.
-/

namespace TypeReflection

variable {E R : Type}

/-! ## Bodies that release what they acquired -/

/-- A thread that holds a lock `count` times has these scopes open, innermost first: it was below
    each by one when it entered, and is not below any now. -/
def FloorsHold : (count : Nat) → (floors : List Nat) → Prop
  | _, [] => True
  | count, floor :: outer => 0 < floor ∧ floor ≤ count ∧ FloorsHold (floor - 1) outer

theorem FloorsHold.of_head {count other : Nat} {floors : List Nat} (hold : FloorsHold count floors)
    (above : ∀ floor ∈ floors.head?, floor ≤ other) : FloorsHold other floors := by
  cases floors with
  | nil => trivial
  | cons floor outer => exact ⟨hold.1, above floor rfl, hold.2.2⟩

theorem FloorsHold.mono {count more : Nat} {floors : List Nat} (hold : FloorsHold count floors)
    (le : count ≤ more) : FloorsHold more floors := by
  cases floors with
  | nil => trivial
  | cons floor outer => exact ⟨hold.1, Nat.le_trans hold.2.1 le, hold.2.2⟩

namespace SharedLock

variable {shared : SharedLock E R}

/-- In a scope a thread releases only what it acquired since the body began. -/
def tidy (shared : SharedLock E R) : LockEvent → Bool
  | .act thread .unlock =>
      ∀ floor ∈ (shared.floors thread).head?, floor < shared.session.holds thread
  | _ => true

/-- Every thread holds the lock for each of its scopes. -/
def HasFloors (shared : SharedLock E R) : Prop :=
  ∀ thread, FloorsHold (shared.session.holds thread) (shared.floors thread)

/-- A thread that has its scopes held can leave the innermost. -/
theorem HasFloors.leftByHolder (floors : shared.HasFloors) (event : LockEvent) :
    shared.leftByHolder event = true := by
  cases event with
  | act | enter => rfl
  | leave thread =>
      have hold := floors thread
      cases scopes : shared.floors thread with
      | nil => simp [SharedLock.leftByHolder, scopes]
      | cons floor outer =>
          rw [scopes] at hold
          simpa [SharedLock.leftByHolder, scopes] using Nat.lt_of_lt_of_le hold.1 hold.2.1

theorem HasFloors.withScopes {session : LockSession E R} {thread : Thread} {scopes : List Nat}
    (own : FloorsHold (session.holds thread) scopes)
    (others : ∀ other, other ≠ thread → FloorsHold (session.holds other) (shared.floors other)) :
    (shared.withScopes session thread scopes).HasFloors := by
  intro other
  by_cases same : other = thread
  · subst same
    simpa [SharedLock.withScopes] using own
  · simpa [SharedLock.withScopes, same] using others other same

variable [ExclusiveMutex E] [RecursiveMutex R]

/-- An action in a scope leaves the thread at or above the floor, as one release takes it down by
    one only. -/
theorem HasFloors.act {actor : Thread} {action : LockAction} (floors : shared.HasFloors)
    (tidied : shared.tidy (.act actor action) = true) :
    (shared.perform (.act actor action)).2.HasFloors := by
  intro thread
  have hold := floors thread
  have holds := (perform_becomes (floors.leftByHolder (.act actor action))).holds_eq thread
  change FloorsHold _ (shared.floors thread)
  by_cases lost : (LockEvent.act actor action).loss (shared.perform (.act actor action)).1
      = some thread
  · cases LockEvent.act_of_loss lost
    have above : ∀ floor ∈ (shared.floors actor).head?, floor < shared.session.holds actor :=
      of_decide_eq_true tidied
    rw [if_pos lost] at holds
    exact hold.of_head fun floor scope => by have := above floor scope; omega
  · rw [if_neg lost] at holds
    exact hold.mono (by omega)

theorem HasFloors.enter {actor : Thread} (floors : shared.HasFloors) :
    (shared.perform (.enter actor)).2.HasFloors := by
  cases given : shared.session.inside? actor with
  | none =>
      obtain ⟨_, same, _⟩ := perform_enter_refused given
      rw [same]
      exact floors
  | some inside =>
      rw [perform_enter given]
      obtain ⟨_, _, _, rfl⟩ := LockSession.inside?_eq_some.mp given
      refine .withScopes ?_ fun other different => ?_
      · simpa [FloorsHold] using floors actor
      · simpa [different] using floors other

theorem HasFloors.leave {actor : Thread} (floors : shared.HasFloors) :
    (shared.perform (.leave actor)).2.HasFloors := by
  cases scopes : shared.floors actor with
  | nil =>
      simp only [SharedLock.perform, scopes]
      exact floors
  | cons floor outer =>
      obtain ⟨_, inside, hold⟩ := scopes ▸ floors actor
      simp only [SharedLock.perform, scopes]
      refine .withScopes (hold.mono ?_) fun other different => ?_
      · simpa [LockSession.release] using Nat.sub_le_sub_right inside 1
      · simpa [LockSession.release, different] using floors other

theorem HasFloors.perform {event : LockEvent} (floors : shared.HasFloors)
    (tidied : shared.tidy event = true) : (shared.perform event).2.HasFloors := by
  cases event with
  | act => exact floors.act tidied
  | enter => exact floors.enter
  | leave => exact floors.leave

theorem allMeet_leftByHolder {events : List LockEvent} (floors : shared.HasFloors)
    (tidied : shared.allMeet tidy events = true) : shared.allMeet leftByHolder events = true := by
  induction events generalizing shared with
  | nil => rfl
  | cons event events ih =>
      obtain ⟨now, later⟩ := allMeet_cons.mp tidied
      exact allMeet_cons.mpr ⟨floors.leftByHolder event, ih (floors.perform now) later⟩

end SharedLock

/-! ## Stages -/

namespace LockSession

variable [ExclusiveMutex E] [RecursiveMutex R]

/-- The lock is not ready: no thread holds it, it can be activated, and it refuses all else. -/
structure IsClosed (isRecursive : Bool) (stage : LockStage) (session : LockSession E R) :
    Prop where
  unlocked : session.lock.isLocked = false
  unheld : ∀ thread, session.holds thread = 0
  activated : ∀ {α : Type} (thread : Thread),
    (session.act thread .activate : LockResult E R α × LockSession E R)
      = (.done, .start (.embedded (.free isRecursive) .ready))
  refused : ∀ {α : Type} (thread : Thread) (action : LockAction) {operation : LockOperation},
    action.operation? = some operation →
    (session.act thread action : LockResult E R α × LockSession E R)
      = (.failed (.lock (.notReady isRecursive operation stage)), session)
  scopeRefused : ∀ {α : Type} (thread : Thread) (body : List (LockStep α)) (ending : BodyEnd α),
    session.step (.scope thread body ending)
      = (.scoped [] (.error (.lock (.notReady isRecursive .withLock stage))), session)

/-- The lock is ready: it cannot be activated again, its life can end if no thread holds it, and it
    refuses nothing else. -/
structure IsOpen (isRecursive : Bool) (session : LockSession E R) : Prop where
  activateRefused : ∀ {α : Type} (thread : Thread),
    (session.act thread .activate : LockResult E R α × LockSession E R)
      = (.failed (.lock (.alreadyInitialized isRecursive)), session)
  destroyed : (∀ holder, session.holds holder = 0) → ∀ {α : Type} (thread : Thread),
    (session.act thread .destroy : LockResult E R α × LockSession E R)
      = (.done, .start (.embedded (.free isRecursive) .destroyed))
  destroyRefused : (∃ holder, 0 < session.holds holder) → ∀ {α : Type} (thread : Thread),
    (session.act thread .destroy : LockResult E R α × LockSession E R)
      = (.failed (.lock (.stillHeld isRecursive)), session)
  allowed : ∀ {α : Type} (thread : Thread) {action : LockAction} (failure : LockFailure),
    action ≠ .activate → action ≠ .destroy →
    (session.act thread action : LockResult E R α × LockSession E R).1 ≠ .failed failure
  scopeAllowed : ∀ {α : Type} (thread : Thread) (body : List (LockStep α)) (ending : BodyEnd α)
    (inner : List (LockResult E R α × Lock E R)) (error : LockError),
    (session.step (.scope thread body ending)).1 ≠ .scoped inner (.error (.lock error))

/-- The lock is an embedded one of this flavor, and what it does goes by its stage. -/
def FollowsStage (isRecursive : Bool) (session : LockSession E R) : Prop :=
  ∃ mutex stage, session.lock = .embedded mutex stage ∧ mutex.isRecursive = isRecursive ∧
    if stage = .ready then session.IsOpen isRecursive else session.IsClosed isRecursive stage

variable {mutex : Mutex E R} {stage : LockStage} {holds : Thread → Nat}

theorem isClosed_of_not_ready (consistent : Consistent ⟨.embedded mutex stage, holds⟩)
    (notReady : stage ≠ .ready) :
    IsClosed mutex.isRecursive stage ⟨.embedded mutex stage, holds⟩ := by
  have closed : (mk (.embedded mutex stage) holds).lock.isReady = false := decide_eq_false notReady
  have unlocked : (Lock.embedded mutex stage).isLocked = false := by
    cases locked : (Lock.embedded mutex stage).isLocked with
    | false => rfl
    | true => exact (consistent.ready locked).symm.trans closed
  have unheld := consistent.holds_eq_zero unlocked
  constructor
  case unlocked => exact unlocked
  case unheld => exact unheld
  case activated =>
      intro _ thread
      have none : holds = fun _ => 0 := funext unheld
      simp only [act, Lock.activate, notReady, if_false, none]
      rfl
  case refused =>
      intro _ thread action operation guarded
      obtain ⟨_, _, embedded, refused⟩ := act_of_not_ready closed action guarded
      cases embedded
      exact refused
  case scopeRefused =>
      intro _ thread body ending
      obtain ⟨_, _, embedded, refused⟩ := Lock.checkReady_of_not_ready closed .withLock
      cases embedded
      simp only [step, refused]

theorem isOpen_of_ready (consistent : Consistent ⟨.embedded mutex .ready, holds⟩) :
    IsOpen mutex.isRecursive ⟨.embedded mutex .ready, holds⟩ := by
  have ready : (mk (.embedded mutex .ready) holds).lock.isReady = true := rfl
  constructor
  case activateRefused => exact fun _ => rfl
  case destroyed =>
      intro unheld _ thread
      have none : holds = fun _ => 0 := funext unheld
      have unlocked : mutex.isLocked = false := by
        refine Bool.eq_false_iff.mpr fun locked => ?_
        obtain ⟨holder, held⟩ := consistent.isLocked_iff.mp locked
        exact Nat.ne_of_gt held (unheld holder)
      rw [← Mutex.eq_free unlocked, none]
      simp only [act, Lock.destroy, Lock.checkReady, unlocked]
      rfl
  case destroyRefused =>
      intro held _ thread
      have locked : mutex.isLocked = true := consistent.isLocked_iff.mpr held
      simp only [act, Lock.destroy, Lock.checkReady, locked]
      rfl
  case allowed =>
      intro _ thread action failure notActivate notDestroy
      cases action with
      | lock =>
          rw [act_lock ready]
          dsimp only
          split <;> simp
      | unlock =>
          rcases Nat.eq_zero_or_pos (holds thread) with free | held
          · simp [act_unlock_of_no_hold ready free]
          · simp [act_unlock ready held]
      | tryLock => simp [act_tryLock ready]
      | isLocked | isRecursive | isInitialized => simp [act]
      | activate => exact absurd rfl notActivate
      | destroy => exact absurd rfl notDestroy
  case scopeAllowed =>
      intro _ thread body ending inner error
      simp only [step, Lock.checkReady_of_ready ready]
      split
      · simp
      · cases ending <;> simp [endOfBody]

end LockSession

namespace SharedLock

variable [ExclusiveMutex E] [RecursiveMutex R]

/-- Wherever a run takes an embedded lock, what the lock does goes by its stage. -/
theorem lifecycle {isRecursive : Bool} {events : List LockEvent}
    (tidied : (start (.newEmbedded isRecursive : Lock E R)).allMeet tidy events = true) :
    ((start (.newEmbedded isRecursive : Lock E R)).run events).2.session.FollowsStage
      isRecursive := by
  have floors : (start (.newEmbedded isRecursive : Lock E R)).HasFloors := fun _ => trivial
  have held := allMeet_leftByHolder floors tidied
  have consistent := run_consistent held (.of_free (Mutex.isLocked_free _) fun _ => rfl)
  have renewed := (run_renewed held).trans (Lock.renewed_newEmbedded isRecursive)
  generalize ((start (.newEmbedded isRecursive : Lock E R)).run events).2.session = session
    at consistent renewed
  obtain ⟨lock, holds⟩ := session
  cases lock with
  | owned => cases renewed
  | embedded mutex stage =>
      have flavor : mutex.isRecursive = isRecursive := calc
        mutex.isRecursive = (Lock.embedded mutex stage).renewed.mutex.isRecursive :=
          (Lock.isRecursive_renewed (.embedded mutex stage)).symm
        _ = (Lock.newEmbedded isRecursive).mutex.isRecursive := by rw [renewed]
        _ = isRecursive := Mutex.isRecursive_free isRecursive
      refine ⟨mutex, stage, rfl, flavor, ?_⟩
      rw [← flavor]
      by_cases ready : stage = .ready
      · subst ready
        exact LockSession.isOpen_of_ready consistent
      · rw [if_neg ready]
        exact LockSession.isClosed_of_not_ready consistent ready

/-- A thread holds a recursive lock twice in a scope. Later the lock is destroyed and activated
    again. -/
theorem lifecycle_revived :
    let events : List LockEvent := [.act 1 .activate, .enter 2, .act 2 .lock, .act 1 .destroy,
      .act 2 .unlock, .leave 2, .act 1 .destroy, .act 2 .activate]
    let lock : Lock PlainMutex CountingMutex := .newEmbedded true
    let session := ((start lock).run events).2.session
    session.lock = .embedded (.free true) .ready ∧ session.FollowsStage true := by
  intro events lock session
  have tidied : (start lock).allMeet tidy events = true := rfl
  exact ⟨rfl, lifecycle tidied⟩

end SharedLock

end TypeReflection
