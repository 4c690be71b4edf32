import TypeReflection.Lock.Basic

/-! # Sessions with a lock

A session is a lock in use by threads. Besides the lock it counts the acquisitions that each thread
has not released, so a step that would wait, or that would release what the thread does not hold, is
refused and changes nothing. A scope acquires the lock, runs a body and releases the lock again,
however the body ends.
-/

namespace TypeReflection

/-- How the body of a scope ends. -/
inductive BodyEnd (α : Type) where
  | returns (value : α)
  | fails (message : String)
  deriving Repr, DecidableEq

/-- What one thread does to the lock. -/
inductive LockAction where
  | lock
  | unlock
  | tryLock
  | isLocked
  | isRecursive
  | isInitialized
  | activate
  | destroy
  deriving Repr, DecidableEq

/-- One step of a session. -/
inductive LockStep (α : Type) where
  | act (thread : Thread) (action : LockAction)
  /-- The thread tries to acquire the lock, and releases it if it got it. -/
  | probe (thread : Thread)
  /-- The thread runs a body in a scope. -/
  | scope (thread : Thread) (body : List (LockStep α)) (ending : BodyEnd α)
  /-- The thread holds the lock while the body runs. -/
  | hold (thread : Thread) (body : List (LockStep α))

/-- Why a step ended without a value. -/
inductive LockFailure where
  /-- The lock refused the operation. -/
  | lock (error : LockError)
  /-- The body of a scope failed. -/
  | body (message : String)
  deriving Repr, DecidableEq

/-- Text of a failure. -/
def LockFailure.message : LockFailure → String
  | .lock error => error.message
  | .body message => message

/-- What a thread sees of a step. -/
inductive LockResult (E R α : Type) where
  | done
  | flag (value : Bool)
  | failed (failure : LockFailure)
  /-- The step would wait, would release what is not held, or does not exist for the lock. -/
  | refused
  /-- What was seen in the body, each with the lock after it, and how the scope ended. -/
  | scoped (inner : List (LockResult E R α × Lock E R)) (ended : Except LockFailure α)
  /-- What was seen in the body, each with the lock after it. -/
  | held (inner : List (LockResult E R α × Lock E R))

/-- A lock in use. -/
structure LockSession (E R : Type) where
  lock : Lock E R
  /-- Acquisitions that each thread has not released. -/
  holds : Thread → Nat

namespace LockSession

variable {E R : Type} [RawMutex E] [RawMutex R]

/-- A lock that no thread holds. -/
def start (lock : Lock E R) : LockSession E R :=
  ⟨lock, fun _ => 0⟩

/-- The session after `thread` acquired the lock, nothing if it would have to wait. -/
def acquire? (session : LockSession E R) (thread : Thread) : Option (LockSession E R) := do
  let mutex ← session.lock.mutex.acquire? thread
  return {
    lock := session.lock.withMutex mutex
    holds := fun other => if other = thread then session.holds other + 1 else session.holds other }

/-- The session after `thread` released one acquisition. -/
def release (session : LockSession E R) (thread : Thread) : LockSession E R where
  lock := session.lock.withMutex session.lock.mutex.release
  holds := fun other => if other = thread then session.holds other - 1 else session.holds other

variable {α : Type}

/-- A simple step of `thread`. -/
def act (session : LockSession E R) (thread : Thread) :
    LockAction → LockResult E R α × LockSession E R
  | .lock =>
      match session.lock.checkReady .lock with
      | .error error => (.failed (.lock error), session)
      | .ok () =>
        match session.acquire? thread with
        | some session => (.done, session)
        | none => (.refused, session)
  | .unlock =>
      match session.lock.checkReady .unlock with
      | .error error => (.failed (.lock error), session)
      | .ok () =>
          if session.holds thread = 0 then (.refused, session)
          else (.done, session.release thread)
  | .tryLock =>
      match session.lock.checkReady .tryLock with
      | .error error => (.failed (.lock error), session)
      | .ok () =>
        match session.acquire? thread with
        | some session => (.flag true, session)
        | none => (.flag false, session)
  | .isLocked => (.flag session.lock.isLocked, session)
  | .isRecursive => (.flag session.lock.isRecursive, session)
  | .isInitialized => (.flag session.lock.isReady, session)
  | .activate =>
      match session.lock, session.lock.activate with
      | .owned _, _ => (.refused, session)
      | .embedded .., .error error => (.failed (.lock error), session)
      | .embedded .., .ok lock => (.done, { session with lock })
  | .destroy =>
      match session.lock, session.lock.destroy with
      | .owned _, _ => (.refused, session)
      | .embedded .., .error error => (.failed (.lock error), session)
      | .embedded .., .ok lock => (.done, { session with lock })

/-- `thread` tries to acquire the lock, and releases it if it got it. -/
def probe (session : LockSession E R) (thread : Thread) : LockResult E R α × LockSession E R :=
  match session.lock.checkReady .tryLock with
  | .error error => (.failed (.lock error), session)
  | .ok () =>
    match session.acquire? thread with
    | some session => (.flag true, session.release thread)
    | none => (.flag false, session)

/-- What the caller of a scope sees of the end of its body. -/
def endOfBody : BodyEnd α → Except LockFailure α
  | .returns value => .ok value
  | .fails message => .error (.body message)

mutual

/-- One step of a session. -/
def step (session : LockSession E R) : LockStep α → LockResult E R α × LockSession E R
  | .act thread action => session.act thread action
  | .probe thread => session.probe thread
  | .scope thread body ending =>
      match session.lock.checkReady .withLock with
      | .error error => (.scoped [] (.error (.lock error)), session)
      | .ok () =>
        match session.acquire? thread with
        | none => (.refused, session)
        | some inside =>
            let (inner, after) := inside.run body
            (.scoped inner (endOfBody ending), after.release thread)
  | .hold thread body =>
      match session.lock.isReady, session.acquire? thread with
      | true, some inside =>
          let (inner, after) := inside.run body
          (.held inner, after.release thread)
      | _, _ => (.refused, session)

/-- Steps of a session in order: what is seen of each, with the lock after it. -/
def run (session : LockSession E R) :
    List (LockStep α) → List (LockResult E R α × Lock E R) × LockSession E R
  | [] => ([], session)
  | first :: rest =>
      let (result, after) := session.step first
      let (results, final) := after.run rest
      ((result, after.lock) :: results, final)

end

end LockSession

end TypeReflection
