import TypeReflection.Chain
import TypeReflection.Fault

/-! # Readings that avoid faults

`Avoids bad reading post` says of a reading that it does not stop at a fault of the kind `bad`, and
that what it gives satisfies `post`. The rules follow the way in which readings are put together, so
that a reading is judged part by part.
-/

namespace TypeReflection

variable {ε α β γ : Type} {bad : ε → Prop}

theorem bind_eq_ok {reading : Except ε α} {next : α → Except ε β} {result : β} :
    reading >>= next = .ok result ↔ ∃ value, reading = .ok value ∧ next value = .ok result := by
  cases reading with
  | ok value => exact ⟨fun given => ⟨value, rfl, given⟩, fun ⟨_, rfl, given⟩ => given⟩
  | error error => exact ⟨nofun, nofun⟩

theorem bind_of_ok {reading : Except ε α} {value : α} {rest : α → Except ε β}
    (given : reading = .ok value) : reading >>= rest = rest value := by
  rw [given]
  rfl

theorem pure_eq_ok {value result : α} :
    (Pure.pure value : Except ε α) = .ok result ↔ value = result :=
  ⟨Except.ok.inj, congrArg _⟩

@[simp] theorem map_ok {f : α → β} {value : α} :
    f <$> (.ok value : Except ε α) = .ok (f value) :=
  rfl

theorem map_eq_ok {reading : Except ε α} {f : α → β} {result : β} :
    f <$> reading = .ok result ↔ ∃ value, reading = .ok value ∧ f value = result := by
  cases reading with
  | ok value => simp
  | error error => exact ⟨nofun, nofun⟩

theorem ok_of_toOption {reading : Except ε α} {value : α}
    (given : reading.toOption = some value) : reading = .ok value := by
  cases reading with
  | ok found => exact congrArg _ (Option.some.inj given)
  | error error => cases given

theorem mapM_eq_ok {f : α → Except ε β} {g : α → β} {items : List α}
    (each : ∀ item ∈ items, f item = .ok (g item)) : items.mapM f = .ok (items.map g) := by
  induction items with
  | nil => rfl
  | cons item items ih =>
      have rest := ih fun other member => each other (List.mem_cons_of_mem _ member)
      rw [List.mapM_cons, each item (List.mem_cons_self ..), rest]
      rfl

/-- What each step of a fold keeps holds of its result. -/
theorem foldlM_keeps {f : β → α → Except ε β} {motive : β → Prop} {items : List α}
    {start result : β} (first : motive start)
    (step : ∀ state item next, motive state → f state item = .ok next → motive next)
    (folded : items.foldlM f start = .ok result) : motive result := by
  induction items generalizing start with
  | nil =>
      cases folded
      exact first
  | cons item items ih =>
      rw [List.foldlM_cons] at folded
      obtain ⟨next, given, rest⟩ := bind_eq_ok.mp folded
      exact ih (step start item next first given) rest

/-- The reading stops, if it does, at an error that is not `bad`, and gives, if it does, a value
    that satisfies `post`. -/
def Avoids (bad : ε → Prop) (reading : Except ε α) (post : α → Prop) : Prop :=
  match reading with
  | .ok value => post value
  | .error error => ¬ bad error

/-- Any result will do. -/
def anything : α → Prop :=
  fun _ => True

namespace Avoids

theorem error_of {reading : Except ε α} {post : α → Prop} (avoids : Avoids bad reading post)
    {error : ε} (stopped : reading = .error error) : ¬ bad error := by
  subst stopped
  exact avoids

theorem ok_of {reading : Except ε α} {post : α → Prop} (avoids : Avoids bad reading post)
    {value : α} (given : reading = .ok value) : post value := by
  subst given
  exact avoids

theorem of_ok {reading : Except ε α} {post : α → Prop} {value : α} (given : reading = .ok value)
    (holds : post value) : Avoids bad reading post := by
  subst given
  exact holds

theorem ok {post : α → Prop} {value : α} (holds : post value) :
    Avoids bad (.ok value) post :=
  holds

theorem pure {post : α → Prop} {value : α} (holds : post value) :
    Avoids bad (Pure.pure value) post :=
  holds

theorem mono {reading : Except ε α} {post weaker : α → Prop} (avoids : Avoids bad reading post)
    (weaken : ∀ value, reading = .ok value → post value → weaker value) :
    Avoids bad reading weaker := by
  cases reading with
  | ok value => exact weaken value rfl avoids
  | error error => exact avoids

theorem anyway {reading : Except ε α} {post : α → Prop} (avoids : Avoids bad reading post) :
    Avoids bad reading anything :=
  avoids.mono fun _ _ _ => trivial

/-- The rule for readings in sequence. -/
theorem bind {reading : Except ε α} {next : α → Except ε β} {middle : α → Prop}
    {post : β → Prop} (first : Avoids bad reading middle)
    (rest : ∀ value, reading = .ok value → middle value → Avoids bad (next value) post) :
    Avoids bad (reading >>= next) post := by
  cases reading with
  | ok value => exact rest value rfl first
  | error error => exact first

theorem map {reading : Except ε α} {f : α → β} {post : β → Prop}
    (avoids : Avoids bad reading fun value => post (f value)) :
    Avoids bad (f <$> reading) post := by
  cases reading with
  | ok value => exact avoids
  | error error => exact avoids

theorem mapped {reading : Except ε α} {f : α → β} (avoids : Avoids bad reading anything) :
    Avoids bad (f <$> reading) anything :=
  map avoids

theorem mapError {reading : Except ε α} {f : ε → γ} {bad' : γ → Prop} {post : α → Prop}
    (avoids : Avoids (fun error => bad' (f error)) reading post) :
    Avoids bad' (reading.mapError f) post := by
  cases reading with
  | ok value => exact avoids
  | error error => exact avoids

/-- The rule for lists read item by item. -/
theorem mapM {f : α → Except ε β} {items : List α}
    (each : ∀ item ∈ items, Avoids bad (f item) anything) :
    Avoids bad (items.mapM f) anything := by
  induction items with
  | nil => exact trivial
  | cons item items ih =>
      rw [List.mapM_cons]
      refine bind (each item (List.mem_cons_self ..)) fun _ _ _ => ?_
      refine bind (ih fun other member => each other (List.mem_cons_of_mem _ member)) ?_
      exact fun _ _ _ => trivial

end Avoids

/-! ## Walks -/

namespace Walk

variable {next : α → Except ε (Option α)} {visit : α → Except ε β} {good : α → Prop}
  {seen : β → Prop}

/-- A walk along good items is cut off by no bad error, and hands out what visits of good items
    give. -/
theorem along_avoids (steps : ∀ item, good item →
      Avoids bad (next item) fun following => ∀ item ∈ following, good item)
    (visits : ∀ item, good item → Avoids bad (visit item) seen)
    (limit : Nat) (item : α) (start : good item) :
    (∀ error, (along next visit limit item).ending = .failed error → ¬ bad error) ∧
      ∀ visited ∈ (along next visit limit item).items, seen visited := by
  induction limit generalizing item with
  | zero => simp [along]
  | succ limit ih =>
      have step := steps item start
      have visited := visits item start
      unfold along
      split
      case h_1 error stopped =>
          simpa using step.error_of stopped
      case h_2 following given =>
          split
          case h_1 error stopped =>
              simpa using visited.error_of stopped
          case h_2 value found =>
              split
              case h_1 =>
                  simpa using visited.ok_of found
              case h_2 following =>
                  have rest := ih following (step.ok_of given following rfl)
                  refine ⟨rest.1, ?_⟩
                  intro other member
                  rcases List.mem_cons.mp member with rfl | later
                  · exact visited.ok_of found
                  · exact rest.2 other later

theorem result_avoids {walk : Walk ε α}
    (avoids : (∀ error, walk.ending = .failed error → ¬ bad error) ∧
      ∀ item ∈ walk.items, good item) :
    Avoids bad walk.result fun items => ∀ item ∈ items, good item := by
  unfold result
  split
  case h_1 error failed => exact avoids.1 error failed
  case h_2 => exact avoids.2
  case h_3 => exact avoids.2

theorem wholeResult_avoids {walk : Walk ε α} {unfinished : ε} (harmless : ¬ bad unfinished)
    (avoids : (∀ error, walk.ending = .failed error → ¬ bad error) ∧
      ∀ item ∈ walk.items, good item) :
    Avoids bad (walk.wholeResult unfinished) fun items => ∀ item ∈ items, good item := by
  unfold wholeResult
  split
  case h_1 error failed => exact avoids.1 error failed
  case h_2 => exact avoids.2
  case h_3 => exact harmless

end Walk

/-! ## Checking readers -/

/-- A plain reading gives the same value inside a checking reader. -/
theorem liftM_eq_ok {reading : Except Fault α} {value : α} (given : reading = .ok value) :
    (liftM reading : Except Failure α) = .ok value := by
  subst given
  rfl

theorem eq_ok_of_liftM {reading : Except Fault α} {value : α}
    (given : (liftM reading : Except Failure α) = .ok value) : reading = .ok value := by
  cases reading with
  | ok found => exact congrArg Except.ok (Except.ok.inj given)
  | error fault => cases given

theorem lift_bind_of_ok {reading : Except Fault α} {value : α} {rest : α → Except Failure β}
    (given : reading = .ok value) :
    (liftM reading : Except Failure α) >>= rest = rest value :=
  bind_of_ok (liftM_eq_ok given)

/-- A byte was read where no memory is mapped. -/
def Fault.IsUnmapped : Fault → Prop
  | .unmapped _ => True
  | _ => False

/-- The failure is a fault of the kind `bad`, not a failed check. -/
def Failure.Stops (bad : Fault → Prop) : Failure → Prop
  | .rejected _ => False
  | .faulted fault => bad fault

namespace Avoids

variable {bad : Fault → Prop}

theorem rejected {post : α → Prop} (error : MetadataError) :
    Avoids (Failure.Stops bad) (.error (.rejected error) : Except Failure α) post :=
  fun stops => stops

theorem thrown {post : α → Prop} (error : MetadataError) :
    Avoids (Failure.Stops bad) (throw (.rejected error) : Except Failure α) post :=
  fun stops => stops

/-- A plain reading inside a checking reader. -/
theorem lift {reading : Except Fault α} {post : α → Prop} (avoids : Avoids bad reading post) :
    Avoids (Failure.Stops bad) (liftM reading : Except Failure α) post :=
  mapError avoids

/-- A check that reads nothing inside a checking reader. -/
theorem liftCheck {check : Except MetadataError α} {post : α → Prop}
    (accepted : ∀ value, check = .ok value → post value) :
    Avoids (Failure.Stops bad) (liftM check : Except Failure α) post := by
  cases check with
  | ok value => exact accepted value rfl
  | error error => exact fun stops => stops

/-- A checking reader whose failed checks are faults too. -/
theorem strict {checked : Except Failure α} {post : α → Prop}
    (harmless : ∀ error, ¬ bad (.malformed error))
    (avoids : Avoids (Failure.Stops bad) checked post) :
    Avoids bad (TypeReflection.strict checked) post := by
  cases checked with
  | ok value => exact avoids
  | error failure =>
      cases failure with
      | rejected error => exact harmless error
      | faulted fault => exact avoids

end Avoids

end TypeReflection
