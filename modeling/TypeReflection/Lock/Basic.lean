import TypeReflection.Lock.Mutex

/-! # Locks

An owned lock is ready from the start. An embedded lock is part of another value and has to be
activated before use and destroyed after it; between the two it is ready.
-/

namespace TypeReflection

/-- Stage in the life of an embedded lock. -/
inductive LockStage where
  | uninitialized
  | ready
  | destroyed
  deriving Repr, DecidableEq

/-- Text of a stage. -/
def LockStage.text : LockStage → String
  | .uninitialized => "Uninitialized"
  | .ready => "Ready"
  | .destroyed => "Destroyed"

/-- State of a lock. -/
inductive Lock (E R : Type) where
  | owned (mutex : Mutex E R)
  | embedded (mutex : Mutex E R) (stage : LockStage)
  deriving Repr, DecidableEq

/-- What is done to a lock, where a lock that is not ready refuses it. -/
inductive LockOperation where
  | destroy
  | lock
  | tryLock
  | unlock
  | withLock
  deriving Repr, DecidableEq

/-- Name of an operation. -/
def LockOperation.name : LockOperation → String
  | .destroy => "destroy"
  | .lock => "lock"
  | .tryLock => "try_lock"
  | .unlock => "unlock"
  | .withLock => "with_lock"

/-- Why an operation on an embedded lock is refused. -/
inductive LockError where
  | notReady (isRecursive : Bool) (operation : LockOperation) (stage : LockStage)
  | alreadyInitialized (isRecursive : Bool)
  | stillHeld (isRecursive : Bool)
  deriving Repr, DecidableEq

/-- Name of the kind of an embedded lock. -/
def embeddedLockName (isRecursive : Bool) : String :=
  if isRecursive then "UnsafeRecursiveLock" else "UnsafeLock"

/-- Text of an error. -/
def LockError.message : LockError → String
  | .notReady isRecursive operation stage =>
      s!"{embeddedLockName isRecursive}::{operation.name} on a lock in state {stage.text}"
  | .alreadyInitialized isRecursive =>
      s!"{embeddedLockName isRecursive}::init on a lock that is already initialized"
  | .stillHeld isRecursive =>
      s!"{embeddedLockName isRecursive}::destroy on a lock that is still held"

namespace Lock

variable {E R : Type} [RawMutex E] [RawMutex R]

/-- An owned lock that is free. -/
def newOwned (isRecursive : Bool) : Lock E R :=
  .owned (.free isRecursive)

/-- An embedded lock that is not initialized yet. -/
def newEmbedded (isRecursive : Bool) : Lock E R :=
  .embedded (.free isRecursive) .uninitialized

def mutex : Lock E R → Mutex E R
  | .owned mutex | .embedded mutex _ => mutex

/-- The lock with its mutex in another state. -/
def withMutex (lock : Lock E R) (mutex : Mutex E R) : Lock E R :=
  match lock with
  | .owned _ => .owned mutex
  | .embedded _ stage => .embedded mutex stage

def isRecursive (lock : Lock E R) : Bool :=
  lock.mutex.isRecursive

def isLocked (lock : Lock E R) : Bool :=
  lock.mutex.isLocked

/-- Whether the lock may be acquired and released. -/
def isReady : Lock E R → Bool
  | .owned _ => true
  | .embedded _ stage => stage = .ready

/-- Nothing, if the lock is ready. -/
def checkReady (lock : Lock E R) (operation : LockOperation) : Except LockError Unit :=
  match lock with
  | .owned _ | .embedded _ .ready => .ok ()
  | .embedded mutex stage => .error (.notReady mutex.isRecursive operation stage)

/-- The embedded lock ready for use, with a free mutex. An owned lock is ready as it is. -/
def activate (lock : Lock E R) : Except LockError (Lock E R) :=
  match lock with
  | .owned mutex => .ok (.owned mutex)
  | .embedded mutex stage =>
      if stage = .ready then .error (.alreadyInitialized mutex.isRecursive)
      else .ok (.embedded (.free mutex.isRecursive) .ready)

/-- The embedded lock at the end of its life, which has to be free. An owned lock stays as it is. -/
def destroy (lock : Lock E R) : Except LockError (Lock E R) := do
  lock.checkReady .destroy
  match lock with
  | .owned mutex => return .owned mutex
  | .embedded mutex _ =>
      if mutex.isLocked then throw (.stillHeld mutex.isRecursive)
      else return .embedded mutex .destroyed

/-- Text of a lock. -/
def text : Lock E R → String
  | .owned mutex =>
      s!"Lock \x7b recursive: {mutex.isRecursive}, locked: {mutex.isLocked} \x7d"
  | .embedded mutex stage =>
      s!"{embeddedLockName mutex.isRecursive} \x7b state: {stage.text}, "
        ++ s!"locked: {mutex.isLocked} \x7d"

end Lock

end TypeReflection
