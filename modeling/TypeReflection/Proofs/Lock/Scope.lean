import TypeReflection.Proofs.Lock.Sharing

/-! # Scopes give back what they take

A body in a scope may lock and unlock as it likes, as long as it releases no more than it acquired.
However it ends, and however the scopes in it end, the thread then holds the lock as often as
before, but for what the body itself acquired and kept.
-/

namespace TypeReflection

variable {E R : Type}

/-- A lock that is ready is known by its mutex and its flavor. -/
theorem Lock.eq_of_ready [ExclusiveMutex E] [RecursiveMutex R] {first second : Lock E R}
    (one : first.isReady = true) (other : second.isReady = true)
    (flavor : first.renewed = second.renewed) (same : first.mutex = second.mutex) :
    first = second := by
  cases first with
  | owned mutex =>
    cases second with
    | owned => exact congrArg Lock.owned same
    | embedded => cases flavor
  | embedded mutex stage =>
    cases second with
    | owned => cases flavor
    | embedded mutex' stage' =>
      have ready : stage = .ready := by simpa [isReady] using one
      have ready' : stage' = .ready := by simpa [isReady] using other
      rw [ready, ready', show mutex = mutex' from same]

namespace LockSession

open SharedLock (gains losses gains_append losses_append)

variable {α : Type} {session middle after inside : LockSession E R} {thread actor : Thread}
  {trace first rest : List (LockEvent × LockResult E R Unit)}

/-- The thread holds the lock before the actions and after each of them. -/
def HeldThrough (thread : Thread) (session : LockSession E R)
    (trace : List (LockEvent × LockResult E R Unit)) : Prop :=
  ∀ prior, prior <+: trace → losses thread prior < session.holds thread + gains thread prior

namespace HeldThrough

theorem now (held : HeldThrough thread session trace) : 0 < session.holds thread :=
  held [] (List.nil_prefix)

theorem left (held : HeldThrough thread session (first ++ rest)) :
    HeldThrough thread session first :=
  fun prior front => held prior (front.trans (List.prefix_append first rest))

end HeldThrough

variable [ExclusiveMutex E] [RecursiveMutex R]

mutual

/-- The actions of a step and of the bodies in it, each with what comes of it. What a scope or a
    probe takes and gives back itself is left out. -/
def actions (session : LockSession E R) : LockStep α → List (LockEvent × LockResult E R Unit)
  | .act thread action => [(.act thread action, (session.act thread action).1)]
  | .probe _ => []
  | .scope thread body _ | .hold thread body =>
      match session.inside? thread with
      | some inside => inside.actionsOfAll body
      | none => []

/-- The actions that steps take in order. -/
def actionsOfAll (session : LockSession E R) :
    List (LockStep α) → List (LockEvent × LockResult E R Unit)
  | [] => []
  | first :: rest => session.actions first ++ (session.step first).2.actionsOfAll rest

end

/-- What actions of the thread do to a session in which it holds the lock, other threads being shut
    out. -/
structure Keeps (thread : Thread) (trace : List (LockEvent × LockResult E R Unit))
    (session after : LockSession E R) : Prop where
  consistent : after.Consistent
  ready : after.lock.isReady = true
  flavor : after.lock.renewed = session.lock.renewed
  account : after.holds thread + losses thread trace = session.holds thread + gains thread trace
  others : ∀ other, other ≠ thread → after.holds other = session.holds other

namespace Keeps

theorem refl (consistent : session.Consistent) (ready : session.lock.isReady = true) :
    Keeps thread [] session session where
  consistent := consistent
  ready := ready
  flavor := rfl
  account := rfl
  others _ _ := rfl

theorem trans (now : Keeps thread first session middle) (later : Keeps thread rest middle after) :
    Keeps thread (first ++ rest) session after where
  consistent := later.consistent
  ready := later.ready
  flavor := later.flavor.trans now.flavor
  account := by
    have nowAccount := now.account
    have laterAccount := later.account
    rw [gains_append, losses_append]
    omega
  others other apart := (later.others other apart).trans (now.others other apart)

end Keeps

theorem HeldThrough.right (held : HeldThrough thread session (first ++ rest))
    (keeps : Keeps thread first session middle) : HeldThrough thread middle rest := by
  intro prior front
  have whole := held (first ++ prior) ((List.prefix_append_right_inj first).mpr front)
  have account := keeps.account
  rw [gains_append, losses_append] at whole
  omega

/-! ## One thread at a time -/

/-- While a thread holds the lock it is the only one that gets it. -/
theorem Consistent.eq_of_inside? (consistent : session.Consistent)
    (holding : 0 < session.holds thread) (given : session.inside? actor = some inside) :
    actor = thread := by
  obtain ⟨holder, count, counts, holds⟩ := consistent.counted
  obtain ⟨-, mutex, taken, -⟩ := inside?_eq_some.mp given
  rw [holds] at holding
  split at holding
  case isTrue own =>
    rcases (counts.acquired taken).2 with none | same
    · omega
    · exact same.trans own.symm
  case isFalse => omega

/-- While a thread holds the lock it is the only one that can release it. -/
theorem Consistent.eq_of_held (consistent : session.Consistent)
    (holding : 0 < session.holds thread) (held : 0 < session.holds actor) : actor = thread := by
  obtain ⟨holder, count, -, holds⟩ := consistent.counted
  rw [holds] at holding held
  split at holding
  case isTrue own =>
    split at held
    case isTrue same => exact same.trans own.symm
    case isFalse => omega
  case isFalse => omega

/-- What one event does to a session in which the thread holds the lock. -/
theorem Becomes.keeps {gain loss : Option Thread} (becomes : session.Becomes gain loss after)
    (consistent : session.Consistent) (ready : session.lock.isReady = true)
    (holding : 0 < session.holds thread)
    (gained : gains thread trace = if gain = some thread then 1 else 0)
    (lost : losses thread trace = if loss = some thread then 1 else 0) :
    Keeps thread trace session after := by
  have locked := consistent.isLocked_iff.mpr ⟨thread, holding⟩
  constructor
  case consistent => exact becomes.consistent consistent
  case flavor => exact becomes.renewed_eq
  case account =>
    rw [gained, lost]
    exact becomes.holds_eq thread
  case ready =>
    cases becomes with
    | same => exact ready
    | acquired given =>
      obtain ⟨-, mutex, -, rfl⟩ := inside?_eq_some.mp given
      simpa using ready
    | released => simpa [release] using ready
    | restaged was unused =>
      rw [unused ready] at locked
      cases locked
  case others =>
    intro other apart
    have account := becomes.holds_eq other
    cases becomes with
    | same => rfl
    | acquired given =>
      obtain rfl := consistent.eq_of_inside? holding given
      simpa [Ne.symm apart] using account
    | released held =>
      obtain rfl := consistent.eq_of_held holding held
      simpa [Ne.symm apart] using account
    | restaged => rfl

/-! ## Scopes -/

/-- A scope that is left by the holder gives back what it took. -/
theorem Keeps.leave (body : Keeps thread trace inside after)
    (given : session.inside? thread = some inside)
    (kept : losses thread trace ≤ session.holds thread + gains thread trace) :
    Keeps thread trace session (after.release thread) := by
  have entering : session.Becomes (some thread) none inside := .acquired given
  have taken := entering.holds_eq thread
  have account := body.account
  have held : 0 < after.holds thread := by
    simp at taken
    omega
  have leaving : after.Becomes none (some thread) (after.release thread) := .released held
  have gone := leaving.holds_eq thread
  constructor
  case consistent => exact leaving.consistent body.consistent
  case ready => simpa [release] using body.ready
  case flavor => exact leaving.renewed_eq.trans (body.flavor.trans entering.renewed_eq)
  case account =>
    simp at taken gone
    omega
  case others =>
    intro other apart
    have before := entering.holds_eq other
    have behind := leaving.holds_eq other
    have between := body.others other apart
    simp [Ne.symm apart] at before behind
    omega

theorem entered (consistent : session.Consistent) (given : session.inside? thread = some inside) :
    inside.Consistent ∧ inside.lock.isReady = true ∧
      inside.holds thread = session.holds thread + 1 := by
  have entering : session.Becomes (some thread) none inside := .acquired given
  have taken := entering.holds_eq thread
  obtain ⟨ready, mutex, -, opened⟩ := inside?_eq_some.mp given
  refine ⟨entering.consistent consistent, ?_, by simpa using taken⟩
  rw [opened]
  simpa using ready

/-- A body that is run between taking the lock once more and giving it back. -/
theorem Keeps.bracket (consistent : session.Consistent) (held : HeldThrough thread session trace)
    (given : session.inside? actor = some inside)
    (body : inside.Consistent → inside.lock.isReady = true → HeldThrough thread inside trace →
      Keeps thread trace inside after) : Keeps thread trace session (after.release actor) := by
  obtain rfl := consistent.eq_of_inside? held.now given
  obtain ⟨sound, opened, taken⟩ := entered consistent given
  have heldInside : HeldThrough actor inside trace := by
    intro prior front
    have outer := held prior front
    omega
  exact (body sound opened heldInside).leave given (Nat.le_of_lt (held _ List.prefix_rfl))

mutual

/-- While the thread holds the lock, a step changes what the thread's own actions change. -/
theorem step_keeps (session : LockSession E R) (consistent : session.Consistent)
    (ready : session.lock.isReady = true) (step : LockStep α)
    (held : HeldThrough thread session (session.actions step)) :
    Keeps thread (session.actions step) session (session.step step).2 := by
  cases step with
  | act actor action =>
    rw [LockSession.step, act_snd session actor action]
    refine (session.act_becomes actor action).keeps consistent ready held.now ?_ ?_
    · simp [actions, gains]
    · simp [actions, losses]
  | probe actor =>
    rw [step_probe]
    rw [actions] at held ⊢
    cases given : session.inside? actor with
    | none => exact .refl consistent ready
    | some inside =>
      exact .bracket consistent held given fun sound opened _ => .refl sound opened
  | scope actor body ending =>
    rw [step_scope]
    rw [actions] at held ⊢
    cases given : session.inside? actor with
    | none => exact .refl consistent ready
    | some inside =>
      rw [given] at held
      exact .bracket consistent held given fun sound opened heldInside =>
        run_keeps inside sound opened body heldInside
  | hold actor body =>
    rw [step_hold]
    rw [actions] at held ⊢
    cases given : session.inside? actor with
    | none => exact .refl consistent ready
    | some inside =>
      rw [given] at held
      exact .bracket consistent held given fun sound opened heldInside =>
        run_keeps inside sound opened body heldInside

/-- Steps in order change what the thread's own actions change. -/
theorem run_keeps (session : LockSession E R) (consistent : session.Consistent)
    (ready : session.lock.isReady = true) (steps : List (LockStep α))
    (held : HeldThrough thread session (session.actionsOfAll steps)) :
    Keeps thread (session.actionsOfAll steps) session (session.run steps).2 := by
  cases steps with
  | nil => exact .refl consistent ready
  | cons first rest =>
    rw [actionsOfAll] at held ⊢
    have now := step_keeps session consistent ready first held.left
    have later := run_keeps _ now.consistent now.ready rest (held.right now)
    exact now.trans later

end

/-! ## The whole session -/

/-- A thread that may get the lock is the only one that has it. -/
theorem Consistent.alone_of_inside? (consistent : session.Consistent)
    (given : session.inside? thread = some inside) (other : Thread) (apart : other ≠ thread) :
    session.holds other = 0 :=
  Nat.eq_zero_of_not_pos fun held => apart (consistent.eq_of_inside? held given).symm

/-- If no other thread has the lock, the mutex has counted the holds of this one. -/
theorem Consistent.counts_of_alone (consistent : session.Consistent)
    (alone : ∀ other, other ≠ thread → session.holds other = 0) :
    session.lock.mutex.Counts thread (session.holds thread) := by
  obtain ⟨holder, count, counts, holds⟩ := consistent.counted
  by_cases own : holder = thread
  · subst own
    simpa [holds] using counts
  · have free : count = 0 := by simpa [holds] using alone holder own
    have unlocked : session.lock.mutex.isLocked = false := by
      simpa [free] using counts.isLocked_iff
    rw [holds, if_neg (Ne.symm own)]
    exact Mutex.counts_of_free unlocked thread

/-- A session in which the lock is ready is known by the holds of its threads and the flavor of the
    lock, if one thread at most has the lock. -/
theorem Consistent.eq {one other : LockSession E R} (consistent : one.Consistent)
    (consistent' : other.Consistent) (ready : one.lock.isReady = true)
    (ready' : other.lock.isReady = true) (flavor : one.lock.renewed = other.lock.renewed)
    (alone : ∀ outsider, outsider ≠ thread → one.holds outsider = 0)
    (same : one.holds = other.holds) : one = other := by
  have counts := consistent.counts_of_alone alone
  have counts' := consistent'.counts_of_alone (same ▸ alone)
  have kind : one.lock.mutex.isRecursive = other.lock.mutex.isRecursive := by
    rw [← Lock.isRecursive_renewed, flavor, Lock.isRecursive_renewed]
  rw [same] at counts
  have lock := Lock.eq_of_ready ready ready' flavor (counts.eq counts' kind)
  cases one
  cases other
  cases lock
  cases same
  rfl

/-- The session after a scope of the thread: the thread holds the lock as before, but for what the
    actions of the body acquired and kept. -/
structure Restores (thread : Thread) (trace : List (LockEvent × LockResult E R Unit))
    (session after : LockSession E R) : Prop where
  account : after.holds thread + losses thread trace = session.holds thread + gains thread trace
  others : ∀ other, other ≠ thread → after.holds other = session.holds other
  ready : after.lock.isReady = true
  flavor : after.lock.renewed = session.lock.renewed
  /-- The mutex is in the state that belongs to so many acquisitions. -/
  counted : after.lock.mutex.Counts thread (after.holds thread)
  locked : after.lock.isLocked = true ↔ 0 < after.holds thread
  /-- A body that released all that it acquired leaves everything as it was. -/
  balanced : losses thread trace = gains thread trace → after = session

/-- If no other thread has the lock, what a scope keeps is all that matters. -/
theorem Keeps.restores (keeps : Keeps thread trace session after) (consistent : session.Consistent)
    (ready : session.lock.isReady = true)
    (alone : ∀ other, other ≠ thread → session.holds other = 0) :
    Restores thread trace session after := by
  have aloneAfter : ∀ other, other ≠ thread → after.holds other = 0 :=
    fun other apart => (keeps.others other apart).trans (alone other apart)
  have counts := keeps.consistent.counts_of_alone aloneAfter
  constructor
  case account => exact keeps.account
  case others => exact keeps.others
  case ready => exact keeps.ready
  case flavor => exact keeps.flavor
  case counted => exact counts
  case locked => exact counts.isLocked_iff
  case balanced =>
    intro even
    refine keeps.consistent.eq consistent keeps.ready ready keeps.flavor aloneAfter ?_
    funext other
    have account := keeps.account
    by_cases same : other = thread
    · subst same
      omega
    · exact keeps.others other same

theorem step_scope_entered (given : session.inside? thread = some inside)
    (body : List (LockStep α)) (ending : BodyEnd α) :
    session.step (.scope thread body ending)
      = (.scoped (inside.run body).1 (endOfBody ending), (inside.run body).2.release thread) := by
  have ready := (inside?_eq_some.mp given).1
  rw [inside?_of_ready ready] at given
  rw [step, Lock.checkReady_of_ready ready, given]

end LockSession

namespace SharedLock

open LockSession

variable [ExclusiveMutex E] [RecursiveMutex R]

/-- A scope gives back what it took, whether its body returns or fails and whatever the scopes in
    the body do, as long as the body releases no more than it acquired. The caller gets the value
    that the body returns, or its failure. A failure that nobody catches is the end of every body
    that it passes through. -/
theorem scope_restores {lock : Lock E R} {isRecursive : Bool}
    (new : lock = .newOwned isRecursive ∨ lock = .newEmbedded isRecursive)
    {events : List LockEvent} (held : (start lock).allMeet leftByHolder events = true)
    {thread : Thread} {inside : LockSession E R}
    (entered : ((start lock).run events).2.session.inside? thread = some inside)
    {α : Type} {body : List (LockStep α)}
    (own : ∀ prior, prior <+: inside.actionsOfAll body →
      losses thread prior ≤ gains thread prior) :
    let session := ((start lock).run events).2.session
    let inner := (inside.run body).1
    (∀ value, (session.step (.scope thread body (.returns value))).1
        = .scoped inner (.ok value)) ∧
      (∀ message, (session.step (.scope thread body (.fails message))).1
        = .scoped inner (.error (.body message))) ∧
      ∀ ending, Restores thread (inside.actionsOfAll body) session
        (session.step (.scope thread body ending)).2 := by
  have free : lock.isLocked = false := by
    rcases new with rfl | rfl <;> exact Mutex.isLocked_free _
  have consistent := run_consistent held (.of_free free fun _ => rfl)
  obtain ⟨sound, opened, taken⟩ := LockSession.entered consistent entered
  have heldInside : HeldThrough thread inside (inside.actionsOfAll body) := by
    intro prior front
    have fewer := own prior front
    omega
  have bodyKeeps := run_keeps inside sound opened body heldInside
  have fewer := own _ List.prefix_rfl
  have keeps := bodyKeeps.leave entered (Nat.le_trans fewer (Nat.le_add_left _ _))
  have ready := (inside?_eq_some.mp entered).1
  have seen := step_scope_entered entered body
  refine ⟨fun value => by rw [seen]; rfl, fun message => by rw [seen]; rfl, fun ending => ?_⟩
  rw [seen]
  exact keeps.restores consistent ready (consistent.alone_of_inside? entered)

/-- A body that locks and, in a scope of its own that fails, unlocks again, then tries the lock. It
    may return after that, or let the failure pass. -/
def nestedBody : List (LockStep Nat) :=
  [.act 1 .lock, .scope 1 [.act 1 .unlock] (.fails "inner"), .act 1 .tryLock]

/-- The thread held the lock once, and keeps the one acquisition of the body that was not released,
    whichever way the body ends. -/
theorem scope_restores_bothEnds :
    let lock : Lock PlainMutex CountingMutex := .newOwned true
    let session := ((start lock).run [.act 1 .lock]).2.session
    let (returned, after) := session.step (.scope 1 nestedBody (.returns 5))
    let (failed, behind) := session.step (.scope 1 nestedBody (.fails "inner"))
    session.holds 1 = 1 ∧
      (∃ inner, returned = .scoped inner (.ok 5)) ∧
      after.holds 1 = 2 ∧ after.lock.isLocked = true ∧
      (∃ inner, failed = .scoped inner (.error (.body "inner"))) ∧
      behind.holds 1 = 2 ∧ behind.lock.isLocked = true := by
  intro lock session
  obtain ⟨inside, entered⟩ : ∃ inside, session.inside? 1 = some inside := ⟨_, rfl⟩
  have trace : inside.actionsOfAll nestedBody
      = [(.act 1 .lock, .done), (.act 1 .unlock, .done), (.act 1 .tryLock, .flag true)] := by
    obtain rfl := Option.some.inj entered
    rfl
  have own : ∀ prior, prior <+: inside.actionsOfAll nestedBody →
      losses 1 prior ≤ gains 1 prior := by
    intro prior front
    rw [trace] at front
    simp only [List.prefix_cons_iff, List.prefix_nil] at front
    rcases front with rfl | ⟨_, rfl, rfl | ⟨_, rfl, rfl | ⟨_, rfl, rfl⟩⟩⟩ <;> decide
  obtain ⟨returned, failed, restores⟩ := scope_restores (.inl rfl) rfl entered own
  have twice (ending : BodyEnd Nat) :
      (session.step (.scope 1 nestedBody ending)).2.holds 1 = 2 := by
    have account := (restores ending).account
    rw [trace] at account
    exact Nat.succ.inj account
  have locked (ending : BodyEnd Nat) :
      (session.step (.scope 1 nestedBody ending)).2.lock.isLocked = true :=
    (restores ending).locked.mpr (twice ending ▸ Nat.zero_lt_two)
  exact ⟨rfl, ⟨_, returned 5⟩, twice _, locked _, ⟨_, failed "inner"⟩, twice _, locked _⟩

end SharedLock

end TypeReflection
