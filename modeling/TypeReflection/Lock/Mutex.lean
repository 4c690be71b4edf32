import TypeReflection.Lock.RawMutex

/-! # Mutexes

A mutex is a raw mutex of either kind. In what follows `E` is the type of the exclusive raw mutexes
and `R` the type of the recursive ones.
-/

namespace TypeReflection

/-- State of a mutex. -/
inductive Mutex (E R : Type) where
  | exclusive (raw : E)
  | recursive (raw : R)
  deriving Repr, DecidableEq

namespace Mutex

variable {E R : Type} [RawMutex E] [RawMutex R]

/-- A free mutex of either kind. -/
def free (isRecursive : Bool) : Mutex E R :=
  if isRecursive then .recursive RawMutex.free else .exclusive RawMutex.free

def isRecursive : Mutex E R → Bool
  | .exclusive _ => false
  | .recursive _ => true

def isLocked : Mutex E R → Bool
  | .exclusive raw => RawMutex.isLocked raw
  | .recursive raw => RawMutex.isLocked raw

/-- The mutex after `thread` acquired it, nothing if it would have to wait. -/
def acquire? (thread : Thread) : Mutex E R → Option (Mutex E R)
  | .exclusive raw => .exclusive <$> RawMutex.acquire? thread raw
  | .recursive raw => .recursive <$> RawMutex.acquire? thread raw

/-- The mutex after one acquisition was released. -/
def release : Mutex E R → Mutex E R
  | .exclusive raw => .exclusive (RawMutex.release raw)
  | .recursive raw => .recursive (RawMutex.release raw)

end Mutex

end TypeReflection
