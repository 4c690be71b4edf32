import TypeReflection.Proofs.Lock.Accounts

/-! # Shared locks

Threads that share a lock take their steps in any order, and between the start and the end of a
scope any thread may do anything. A session in which bodies are nested is one such order of steps.
-/

namespace TypeReflection

variable {E R : Type}

/-- A step of one thread. A scope is entered, and left when its body is over. -/
inductive LockEvent where
  | act (thread : Thread) (action : LockAction)
  | enter (thread : Thread)
  | leave (thread : Thread)
  deriving Repr, DecidableEq

namespace LockEvent

/-- The thread that acquired the lock, if the event had this result. -/
def gain : LockEvent → LockResult E R Unit → Option Thread
  | .act thread .lock, .done | .act thread .tryLock, .flag true | .enter thread, .done =>
      some thread
  | _, _ => none

/-- The thread that released the lock, if the event had this result. -/
def loss : LockEvent → LockResult E R Unit → Option Thread
  | .act thread .unlock, .done | .leave thread, .done => some thread
  | _, _ => none

@[simp] theorem gain_failed (event : LockEvent) (failure : LockFailure) :
    event.gain (.failed failure : LockResult E R Unit) = none := by
  cases event with
  | act thread action => cases action <;> rfl
  | enter | leave => rfl

@[simp] theorem loss_failed (event : LockEvent) (failure : LockFailure) :
    event.loss (.failed failure : LockResult E R Unit) = none := by
  cases event with
  | act thread action => cases action <;> rfl
  | enter | leave => rfl

/-- The one action that releases the lock is to unlock it. -/
theorem act_of_loss {actor thread : Thread} {action : LockAction} {result : LockResult E R Unit}
    (lost : (act actor action).loss result = some thread) :
    act actor action = act thread .unlock := by
  cases action with
  | unlock =>
      cases result with
      | done => rw [Option.some.inj lost]
      | _ => cases lost
  | _ => cases lost

end LockEvent

/-- A lock and the scopes that threads have open. -/
structure SharedLock (E R : Type) where
  session : LockSession E R
  /-- For each open scope of a thread, innermost first, how often the thread held the lock when
      the body began. -/
  floors : Thread → List Nat

namespace SharedLock

/-- How often the thread acquired the lock. -/
def gains (thread : Thread) (trace : List (LockEvent × LockResult E R Unit)) : Nat :=
  trace.countP fun (event, result) => event.gain result = some thread

/-- How often the thread released the lock. -/
def losses (thread : Thread) (trace : List (LockEvent × LockResult E R Unit)) : Nat :=
  trace.countP fun (event, result) => event.loss result = some thread

theorem gains_cons (thread : Thread) (event : LockEvent) (result : LockResult E R Unit)
    (trace : List (LockEvent × LockResult E R Unit)) :
    gains thread ((event, result) :: trace)
      = gains thread trace + if event.gain result = some thread then 1 else 0 := by
  simp [gains, List.countP_cons]

theorem losses_cons (thread : Thread) (event : LockEvent) (result : LockResult E R Unit)
    (trace : List (LockEvent × LockResult E R Unit)) :
    losses thread ((event, result) :: trace)
      = losses thread trace + if event.loss result = some thread then 1 else 0 := by
  simp [losses, List.countP_cons]

theorem gains_append (thread : Thread) (first rest : List (LockEvent × LockResult E R Unit)) :
    gains thread (first ++ rest) = gains thread first + gains thread rest :=
  List.countP_append

theorem losses_append (thread : Thread) (first rest : List (LockEvent × LockResult E R Unit)) :
    losses thread (first ++ rest) = losses thread first + losses thread rest :=
  List.countP_append

variable [ExclusiveMutex E] [RecursiveMutex R]

/-- A lock that no thread holds, without scopes. -/
def start (lock : Lock E R) : SharedLock E R :=
  ⟨.start lock, fun _ => []⟩

/-- The shared lock in another session, and with other scopes of one thread. -/
def withScopes (shared : SharedLock E R) (session : LockSession E R) (thread : Thread)
    (floors : List Nat) : SharedLock E R :=
  ⟨session, fun other => if other = thread then floors else shared.floors other⟩

/-- What comes of an event, and the lock after it. -/
def perform (shared : SharedLock E R) : LockEvent → LockResult E R Unit × SharedLock E R
  | .act thread action =>
      let (result, session) := shared.session.act thread action
      (result, { shared with session })
  | .enter thread =>
      match shared.session.lock.checkReady .withLock with
      | .error error => (.failed (.lock error), shared)
      | .ok () =>
        match shared.session.acquire? thread with
        | none => (.refused, shared)
        | some inside =>
            (.done, shared.withScopes inside thread (inside.holds thread :: shared.floors thread))
  | .leave thread =>
      match shared.floors thread with
      | [] => (.refused, shared)
      | _ :: outer => (.done, shared.withScopes (shared.session.release thread) thread outer)

/-- Events in order: what comes of each, and the lock after all. -/
def run (shared : SharedLock E R) :
    List LockEvent → List (LockEvent × LockResult E R Unit) × SharedLock E R
  | [] => ([], shared)
  | event :: events =>
      let (result, after) := shared.perform event
      let (trace, final) := after.run events
      ((event, result) :: trace, final)

/-- Whether each event meets a condition when it comes. -/
def allMeet (condition : SharedLock E R → LockEvent → Bool) (shared : SharedLock E R) :
    List LockEvent → Bool
  | [] => true
  | event :: events =>
      condition shared event && (shared.perform event).2.allMeet condition events

/-- Only holders release: to leave a scope is to release the lock, whatever the body did to it. -/
def leftByHolder (shared : SharedLock E R) : LockEvent → Bool
  | .leave thread => shared.floors thread = [] ∨ 0 < shared.session.holds thread
  | _ => true

end SharedLock

/-! ## Single events -/

namespace LockSession

variable [ExclusiveMutex E] [RecursiveMutex R] {α β : Type} {session : LockSession E R}
  {thread : Thread}

theorem becomes_of_not_ready (closed : session.lock.isReady = false) {action : LockAction}
    {operation : LockOperation} (guarded : action.operation? = some operation) :
    session.Becomes ((LockEvent.act thread action).gain (session.act thread action).1)
      ((LockEvent.act thread action).loss (session.act thread action).1)
      (session.act thread action : LockResult E R Unit × LockSession E R).2 := by
  obtain ⟨_, _, _, refused⟩ := act_of_not_ready closed action guarded
  rw [refused, LockEvent.gain_failed, LockEvent.loss_failed]
  exact .same

theorem act_becomes (session : LockSession E R) (thread : Thread) (action : LockAction) :
    session.Becomes ((LockEvent.act thread action).gain (session.act thread action).1)
      ((LockEvent.act thread action).loss (session.act thread action).1)
      (session.act thread action : LockResult E R Unit × LockSession E R).2 := by
  cases action with
  | lock =>
      cases ready : session.lock.isReady with
      | false => exact becomes_of_not_ready ready rfl
      | true =>
          rw [act_lock ready]
          cases given : session.inside? thread with
          | none => exact .same
          | some inside => exact .acquired given
  | tryLock =>
      cases ready : session.lock.isReady with
      | false => exact becomes_of_not_ready ready rfl
      | true =>
          rw [act_tryLock ready]
          cases given : session.inside? thread with
          | none => exact .same
          | some inside => exact .acquired given
  | unlock =>
      cases ready : session.lock.isReady with
      | false => exact becomes_of_not_ready ready rfl
      | true =>
          rcases Nat.eq_zero_or_pos (session.holds thread) with free | held
          · rw [act_unlock_of_no_hold ready free]
            exact .same
          · rw [act_unlock ready held]
            exact .released held
  | isLocked | isRecursive | isInitialized => exact .same
  | activate =>
      obtain ⟨lock, holds⟩ := session
      cases lock with
      | owned => exact .same
      | embedded mutex stage =>
          cases stage with
          | ready => exact .same
          | uninitialized | destroyed =>
              refine .restaged rfl ?_ (Mutex.isLocked_free _) (Mutex.isRecursive_free _)
              exact nofun
  | destroy =>
      obtain ⟨lock, holds⟩ := session
      cases lock with
      | owned => exact .same
      | embedded mutex stage =>
          cases stage with
          | uninitialized | destroyed => exact .same
          | ready =>
              cases held : mutex.isLocked with
              | true =>
                  simp only [act, Lock.destroy, Lock.checkReady, held]
                  exact .same
              | false =>
                  simp only [act, Lock.destroy, Lock.checkReady, held]
                  exact .restaged rfl (fun _ => held) held rfl

/-- What an action does to the session has nothing to do with the values that bodies return. -/
theorem act_snd (session : LockSession E R) (thread : Thread) (action : LockAction) :
    (session.act thread action : LockResult E R α × LockSession E R).2
      = (session.act thread action : LockResult E R β × LockSession E R).2 := by
  cases action with
  | lock | tryLock | unlock =>
      simp only [act]
      split
      · rfl
      · split <;> rfl
  | isLocked | isRecursive | isInitialized => rfl
  | activate | destroy =>
      simp only [act]
      split <;> rfl

end LockSession

/-! ## Interleavings -/

namespace SharedLock

variable [ExclusiveMutex E] [RecursiveMutex R] {shared : SharedLock E R} {thread : Thread}
  {inside : LockSession E R}

/-- A scope is entered if the lock is ready and the thread need not wait. -/
theorem perform_enter (given : shared.session.inside? thread = some inside) :
    shared.perform (.enter thread)
      = (.done, shared.withScopes inside thread (inside.holds thread :: shared.floors thread)) := by
  have ready := (LockSession.inside?_eq_some.mp given).1
  rw [LockSession.inside?_of_ready ready] at given
  simp only [perform, Lock.checkReady_of_ready ready, given]

/-- A scope that is not entered changes nothing. -/
theorem perform_enter_refused (refused : shared.session.inside? thread = none) :
    ∃ result, shared.perform (.enter thread) = (result, shared) ∧ result ≠ .done := by
  cases ready : shared.session.lock.isReady with
  | false =>
      obtain ⟨_, _, _, unready⟩ := Lock.checkReady_of_not_ready ready .withLock
      simp [perform, unready]
  | true =>
      rw [LockSession.inside?_of_ready ready] at refused
      simp [perform, Lock.checkReady_of_ready ready, refused]

theorem perform_becomes {event : LockEvent} (held : shared.leftByHolder event = true) :
    shared.session.Becomes (event.gain (shared.perform event).1)
      (event.loss (shared.perform event).1) (shared.perform event).2.session := by
  cases event with
  | act thread action => exact shared.session.act_becomes thread action
  | enter thread =>
      cases given : shared.session.inside? thread with
      | some inside =>
          rw [perform_enter given]
          exact .acquired given
      | none =>
          obtain ⟨result, refused, notDone⟩ := perform_enter_refused given
          rw [refused]
          cases result with
          | done => exact absurd rfl notDone
          | _ => exact .same
  | leave thread =>
      cases scopes : shared.floors thread with
      | nil =>
          simp only [perform, scopes]
          exact .same
      | cons floor outer =>
          simp only [perform, scopes]
          exact .released (by simpa [leftByHolder, scopes] using held)

theorem run_cons (shared : SharedLock E R) (event : LockEvent) (events : List LockEvent) :
    shared.run (event :: events)
      = ((event, (shared.perform event).1) :: ((shared.perform event).2.run events).1,
        ((shared.perform event).2.run events).2) :=
  rfl

theorem run_append (shared : SharedLock E R) (first second : List LockEvent) :
    (shared.run (first ++ second)).2 = ((shared.run first).2.run second).2 := by
  induction first generalizing shared with
  | nil => rfl
  | cons event first ih => exact ih (shared.perform event).2

theorem allMeet_cons {condition : SharedLock E R → LockEvent → Bool} {event : LockEvent}
    {events : List LockEvent} : shared.allMeet condition (event :: events) = true
      ↔ condition shared event = true ∧ (shared.perform event).2.allMeet condition events = true :=
  Bool.and_eq_true_iff

theorem run_consistent {events : List LockEvent}
    (held : shared.allMeet leftByHolder events = true) (first : shared.session.Consistent) :
    (shared.run events).2.session.Consistent := by
  induction events generalizing shared with
  | nil => exact first
  | cons event events ih =>
      obtain ⟨now, later⟩ := allMeet_cons.mp held
      exact ih later ((perform_becomes now).consistent first)

theorem run_renewed {events : List LockEvent}
    (held : shared.allMeet leftByHolder events = true) :
    (shared.run events).2.session.lock.renewed = shared.session.lock.renewed := by
  induction events generalizing shared with
  | nil => rfl
  | cons event events ih =>
      obtain ⟨now, later⟩ := allMeet_cons.mp held
      exact (ih later).trans (perform_becomes now).renewed_eq

/-- The holds of a thread are its acquisitions less its releases. -/
theorem run_holds {events : List LockEvent} (held : shared.allMeet leftByHolder events = true)
    (thread : Thread) :
    (shared.run events).2.session.holds thread + losses thread (shared.run events).1
      = shared.session.holds thread + gains thread (shared.run events).1 := by
  induction events generalizing shared with
  | nil => rfl
  | cons event events ih =>
      obtain ⟨now, later⟩ := allMeet_cons.mp held
      have first := (perform_becomes now).holds_eq thread
      have rest := ih later
      simp only [run_cons, gains_cons, losses_cons]
      omega

end SharedLock

/-! ## Nested bodies -/

namespace LockSession

variable [ExclusiveMutex E] [RecursiveMutex R] {α : Type}

mutual

/-- The events of a step, in order. -/
def events (session : LockSession E R) : LockStep α → List LockEvent
  | .act thread action => [.act thread action]
  | .probe thread =>
      match session.inside? thread with
      | some _ => [.act thread .tryLock, .act thread .unlock]
      | none => [.act thread .tryLock]
  | .scope thread body _ | .hold thread body =>
      match session.inside? thread with
      | some inside => .enter thread :: inside.eventsOfAll body ++ [.leave thread]
      | none => [.enter thread]

/-- The events of steps in order. -/
def eventsOfAll (session : LockSession E R) : List (LockStep α) → List LockEvent
  | [] => []
  | first :: rest => session.events first ++ (session.step first).2.eventsOfAll rest

end

variable {session inside : LockSession E R} {thread : Thread}

theorem step_probe (session : LockSession E R) (thread : Thread) :
    (session.step (.probe thread : LockStep α)).2
      = match session.inside? thread with
        | some inside => inside.release thread
        | none => session := by
  cases ready : session.lock.isReady with
  | false =>
      obtain ⟨_, _, _, refused⟩ := Lock.checkReady_of_not_ready ready .tryLock
      simp only [step, probe, refused, inside?_of_not_ready ready]
  | true =>
      simp only [step, probe, Lock.checkReady_of_ready ready, inside?_of_ready ready]
      cases session.acquire? thread <;> rfl

theorem step_scope (session : LockSession E R) (thread : Thread) (body : List (LockStep α))
    (ending : BodyEnd α) :
    (session.step (.scope thread body ending)).2
      = match session.inside? thread with
        | some inside => (inside.run body).2.release thread
        | none => session := by
  cases ready : session.lock.isReady with
  | false =>
      obtain ⟨_, _, _, refused⟩ := Lock.checkReady_of_not_ready ready .withLock
      simp only [step, refused, inside?_of_not_ready ready]
  | true =>
      simp only [step, Lock.checkReady_of_ready ready, inside?_of_ready ready]
      cases session.acquire? thread <;> rfl

theorem step_hold (session : LockSession E R) (thread : Thread) (body : List (LockStep α)) :
    (session.step (.hold thread body)).2
      = match session.inside? thread with
        | some inside => (inside.run body).2.release thread
        | none => session := by
  cases ready : session.lock.isReady with
  | false => simp only [step, ready, inside?_of_not_ready ready]
  | true =>
      simp only [step, ready, inside?_of_ready ready]
      cases session.acquire? thread <;> rfl

/-- Trying takes the lock or leaves it alone. -/
theorem act_tryLock_snd (session : LockSession E R) (thread : Thread) :
    (session.act thread .tryLock : LockResult E R α × LockSession E R).2
      = (session.inside? thread).getD session := by
  cases ready : session.lock.isReady with
  | false =>
      obtain ⟨_, _, _, refused⟩ := act_of_not_ready ready .tryLock rfl
      rw [refused, inside?_of_not_ready ready]
      rfl
  | true => rw [act_tryLock ready]

/-- A thread that acquired the lock can release it. -/
theorem act_unlock_inside (given : session.inside? thread = some inside) :
    (inside.act thread .unlock : LockResult E R α × LockSession E R)
      = (.done, inside.release thread) := by
  obtain ⟨ready, _, _, rfl⟩ := inside?_eq_some.mp given
  exact act_unlock (by simp [ready]) (by simp)

end LockSession

namespace SharedLock

variable [ExclusiveMutex E] [RecursiveMutex R] {α : Type}
  {session inside after : LockSession E R} {floors : Thread → List Nat} {thread : Thread}

theorem run_enter_refused (refused : session.inside? thread = none) :
    (run ⟨session, floors⟩ [.enter thread]).2 = ⟨session, floors⟩ := by
  obtain ⟨_, same, _⟩ :
      ∃ result, perform ⟨session, floors⟩ (.enter thread) = (result, ⟨session, floors⟩) ∧ _ :=
    perform_enter_refused refused
  rw [run_cons, same]
  rfl

/-- The start of a scope, the events of its body and its end. -/
theorem run_scope {events : List LockEvent} (given : session.inside? thread = some inside)
    (body : ∀ floors, (run ⟨inside, floors⟩ events).2 = ⟨after, floors⟩) :
    (run ⟨session, floors⟩ (.enter thread :: events ++ [.leave thread])).2
      = ⟨after.release thread, floors⟩ := by
  have entered : perform ⟨session, floors⟩ (.enter thread) = _ := perform_enter given
  have restored : (fun other => if other = thread then floors thread
      else if other = thread then inside.holds thread :: floors thread
      else floors other) = floors := by
    funext other
    by_cases own : other = thread <;> simp [own]
  rw [List.cons_append, run_cons, run_append, entered, withScopes, body]
  simp [run, perform, withScopes, restored]

mutual

/-- A step does what its events do. -/
theorem run_events (session : LockSession E R) (floors : Thread → List Nat) (step : LockStep α) :
    (run ⟨session, floors⟩ (session.events step)).2 = ⟨(session.step step).2, floors⟩ := by
  cases step with
  | act thread action =>
      simp only [LockSession.events, LockSession.step, run, perform]
      rw [LockSession.act_snd session thread action]
  | probe thread =>
      rw [LockSession.events, LockSession.step_probe]
      cases given : session.inside? thread with
      | none => simp [run, perform, LockSession.act_tryLock_snd, given]
      | some inside =>
          simp [run, perform, LockSession.act_tryLock_snd, given,
            LockSession.act_unlock_inside given]
  | scope thread body ending =>
      rw [LockSession.events, LockSession.step_scope]
      cases given : session.inside? thread with
      | none => exact run_enter_refused given
      | some inside => exact run_scope given fun floors => run_eventsOfAll inside floors body
  | hold thread body =>
      rw [LockSession.events, LockSession.step_hold]
      cases given : session.inside? thread with
      | none => exact run_enter_refused given
      | some inside => exact run_scope given fun floors => run_eventsOfAll inside floors body

/-- Steps in order do what their events do. -/
theorem run_eventsOfAll (session : LockSession E R) (floors : Thread → List Nat)
    (steps : List (LockStep α)) :
    (run ⟨session, floors⟩ (session.eventsOfAll steps)).2 = ⟨(session.run steps).2, floors⟩ := by
  cases steps with
  | nil => rfl
  | cons first rest =>
      rw [LockSession.eventsOfAll, run_append, run_events session floors first,
        run_eventsOfAll _ floors rest, LockSession.run]

end

/-! ## Mutual exclusion -/

/-- The acquisitions that were not released are `count` of one thread, and the lock shows just
    that. -/
structure HeldBy (holder : Thread) (count : Nat) (isRecursive : Bool)
    (trace : List (LockEvent × LockResult E R Unit)) (session : LockSession E R) : Prop where
  outstanding : ∀ thread,
    gains thread trace = losses thread trace + if thread = holder then count else 0
  exclusive : isRecursive = false → count ≤ 1
  locked : session.lock.isLocked = true ↔ 0 < count
  tried : session.lock.isReady = true → ∀ {α : Type} (thread : Thread),
    (session.act thread .tryLock : LockResult E R α × LockSession E R).1
      = .flag (count = 0 ∨ isRecursive = true ∧ thread = holder)

/-- In every order of steps at most one thread holds the lock. Steps with nested bodies are steps in
    such an order. -/
theorem mutual_exclusion {lock : Lock E R} {isRecursive : Bool}
    (new : lock = .newOwned isRecursive ∨ lock = .newEmbedded isRecursive)
    {events : List LockEvent} (held : (start lock).allMeet leftByHolder events = true) :
    let (trace, shared) := (start lock).run events
    (∃ holder count, HeldBy holder count isRecursive trace shared.session) ∧
    ∀ {α : Type} (steps : List (LockStep α)),
      (shared.run (shared.session.eventsOfAll steps)).2
        = ⟨(shared.session.run steps).2, shared.floors⟩ := by
  have free : lock.isLocked = false := by
    rcases new with rfl | rfl <;> exact Mutex.isLocked_free _
  have first : lock.mutex.isRecursive = isRecursive := by
    rcases new with rfl | rfl <;> exact Mutex.isRecursive_free _
  have flavor : ((start lock).run events).2.session.lock.mutex.isRecursive = isRecursive := by
    rw [← Lock.isRecursive_renewed, run_renewed held, Lock.isRecursive_renewed]
    exact first
  have consistent := run_consistent held (.of_free free fun _ => rfl)
  obtain ⟨holder, count, counts, holds⟩ := consistent.counted
  refine ⟨⟨holder, count, ?_⟩, run_eventsOfAll _ _⟩
  constructor
  case outstanding =>
      intro thread
      have account := run_holds held thread
      rw [holds] at account
      simpa [start, LockSession.start, Nat.add_comm] using account.symm
  case exclusive => exact fun exclusive => counts.le_one (flavor.trans exclusive)
  case locked => exact counts.isLocked_iff
  case tried =>
      intro ready _ thread
      rw [LockSession.act_tryLock ready, LockResult.flag.injEq, Bool.eq_iff_iff,
        LockSession.isSome_inside?_iff, counts.isSome_acquire?_iff, flavor, decide_eq_true_iff]
      exact and_iff_right ready

/-- One thread has a recursive lock three times, once in a scope, when another thread tries. -/
theorem mutual_exclusion_threefold :
    let lock : Lock PlainMutex CountingMutex := .newOwned true
    let (trace, shared) := (start lock).run
      [.act 1 .lock, .enter 1, .act 1 .tryLock, .act 2 .tryLock]
    shared.session.holds 1 = 3 ∧ ∃ holder count, HeldBy holder count true trace shared.session := by
  intro lock
  have held : (start lock).allMeet leftByHolder
      [.act 1 .lock, .enter 1, .act 1 .tryLock, .act 2 .tryLock] = true := rfl
  exact ⟨rfl, (mutual_exclusion (.inl rfl) held).1⟩

end SharedLock

end TypeReflection
