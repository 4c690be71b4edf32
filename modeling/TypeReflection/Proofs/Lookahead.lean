import Mathlib.Logic.Function.Iterate
import TypeReflection.Context.Basic
import TypeReflection.Metadata.Class
import TypeReflection.Proofs.Traversal

/-! # Walks that look ahead

A walk follows the link of an item before it hands the item out, so a malformed link takes the item
in front of it along. What a walk of at most `limit` items gives is told from the chain alone: the
item at each number of steps from the start, and the first link on it that is malformed.
-/

namespace TypeReflection

variable {ε α β : Type}

namespace Walk

theorem result_cons {rest : Walk ε α} {first : α} :
    result ⟨first :: rest.items, rest.ending⟩ = (first :: ·) <$> rest.result := by
  obtain ⟨items, ending⟩ := rest
  cases ending <;> rfl

/-- The item so many links away from one, if the chain goes that far. -/
def itemAt (next : α → Except ε (Option α)) (item : α) : Nat → Option α
  | 0 => some item
  | index + 1 =>
      match next item with
      | .ok (some following) => itemAt next following index
      | .ok none | .error _ => none

/-- The links of the items in front of a limit are not malformed. -/
def SoundUpTo (next : α → Except ε (Option α)) (item : α) (limit : Nat) : Prop :=
  ∀ index < limit, ∀ reached ∈ itemAt next item index, ∃ following, next reached = .ok following

section Chains

variable {next : α → Except ε (Option α)} {item last following : α} {before : List α}
  {index limit : Nat}

theorem itemAt_succ (goesOn : next item = .ok (some following)) :
    itemAt next item (index + 1) = itemAt next following index := by
  simp only [itemAt, goesOn]

theorem itemAt_succ_of_end (ends : next item = .ok none) : itemAt next item (index + 1) = none := by
  simp only [itemAt, ends]

/-- A path leads to each of its items in as many steps as items come before it. -/
theorem Path.itemAt_eq (path : Path next item before last) (within : index ≤ before.length) :
    itemAt next item index = (before ++ [last])[index]? := by
  induction path generalizing index with
  | here =>
      obtain rfl := Nat.le_zero.mp within
      rfl
  | step goesOn path ih =>
      cases index with
      | zero => rfl
      | succ index => exact (itemAt_succ goesOn).trans (ih (Nat.le_of_succ_le_succ within))

theorem exists_path_of_itemAt (reached : itemAt next item index = some last) :
    ∃ before, Path next item before last ∧ before.length = index := by
  induction index generalizing item with
  | zero =>
      cases reached
      exact ⟨[], .here, rfl⟩
  | succ index ih =>
      cases step : next item with
      | error error => simp [itemAt, step] at reached
      | ok following =>
          cases following with
          | none => simp [itemAt, step] at reached
          | some following =>
              rw [itemAt_succ step] at reached
              obtain ⟨before, path, rfl⟩ := ih reached
              exact ⟨item :: before, .step step path, rfl⟩

theorem SoundUpTo.tail (sound : SoundUpTo next item (limit + 1))
    (goesOn : next item = .ok (some following)) : SoundUpTo next following limit := by
  intro index inside reached there
  exact sound (index + 1) (Nat.succ_lt_succ inside) reached ((itemAt_succ goesOn).trans there)

/-- Behind links that are not malformed a walk hands out the items at the numbers under the
    limit. -/
theorem SoundUpTo.result_eq (sound : SoundUpTo next item limit) :
    ∃ items, (along next (.ok : α → Except ε α) limit item).result = .ok items ∧
      ∀ index, items[index]? = if index < limit then itemAt next item index else none := by
  induction limit generalizing item with
  | zero => exact ⟨[], rfl, fun index => by simp⟩
  | succ limit ih =>
      obtain ⟨following, step⟩ := sound 0 (Nat.succ_pos limit) item rfl
      cases following with
      | none =>
          refine ⟨[item], by simp [along, step, result], fun index => ?_⟩
          cases index with
          | zero => simp [itemAt]
          | succ index => simp [itemAt_succ_of_end step]
      | some following =>
          obtain ⟨items, given, each⟩ := ih (sound.tail step)
          refine ⟨item :: items, ?_, fun index => ?_⟩
          · simp only [along, step, result_cons, given, map_ok]
          · cases index with
            | zero => simp [itemAt]
            | succ index => simp [itemAt_succ step, each]

/-- A walk hands out the items in front of the first malformed link. -/
theorem Path.along_of_break {error : ε} (path : Path next item before last)
    (breaks : next last = .error error) (enough : before.length < limit) :
    along next (.ok : α → Except ε α) limit item = ⟨before, .failed error⟩ := by
  induction path generalizing limit with
  | here =>
      obtain ⟨limit, rfl⟩ := Nat.exists_eq_succ_of_ne_zero (Nat.ne_of_gt enough)
      simp [along, breaks]
  | step goesOn path ih =>
      obtain ⟨limit, rfl⟩ := Nat.exists_eq_succ_of_ne_zero (Nat.ne_of_gt (Nat.zero_lt_of_lt enough))
      simp [along, goesOn, ih breaks (Nat.lt_of_succ_lt_succ enough)]

/-- A walk under a lower limit gives the first items of what it gives under a higher one. -/
theorem result_take {visit : α → Except ε β} {results : List β} {fewer : Nat}
    (given : (along next visit limit item).result = .ok results) (less : fewer ≤ limit) :
    (along next visit fewer item).result = .ok (results.take fewer) := by
  induction fewer generalizing limit item results with
  | zero => rfl
  | succ fewer ih =>
      obtain ⟨limit, rfl⟩ := Nat.exists_eq_succ_of_ne_zero (Nat.ne_of_gt (Nat.zero_lt_of_lt less))
      simp only [along] at given ⊢
      split at given
      case h_1 => cases given
      case h_2 =>
          split at given
          case h_1 => cases given
          case h_2 =>
              split at given
              case h_1 =>
                  cases given
                  simp [result]
              case h_2 =>
                  rw [result_cons] at given ⊢
                  obtain ⟨rest, handed, rfl⟩ := map_eq_ok.mp given
                  rw [ih handed (Nat.le_of_succ_le_succ less), map_ok, List.take_succ_cons]

end Chains

/-! ## One link for each item -/

/-- A walk under way. -/
structure Lookahead (ε α : Type) where
  /-- The item to hand out next. -/
  upcoming : Option α
  /-- The items handed out so far. -/
  handed : List α
  /-- The items whose links were followed so far. -/
  followed : List α
  /-- The error of the link that was malformed. -/
  failure : Option ε

namespace Lookahead

variable {next next' : α → Except ε (Option α)} {state : Lookahead ε α} {item : α} {limit : Nat}

/-- A walk that is about to hand out its first item. -/
def start (item : α) : Lookahead ε α :=
  ⟨some item, [], [], none⟩

/-- The walk after one more item was asked for: its link is followed first. -/
def pull (next : α → Except ε (Option α)) (state : Lookahead ε α) : Lookahead ε α :=
  match state.upcoming with
  | none => state
  | some item =>
      match next item with
      | .error error => ⟨none, state.handed, state.followed ++ [item], some error⟩
      | .ok following =>
          ⟨following, state.handed ++ [item], state.followed ++ [item], state.failure⟩

/-- The walk from `item` on after `limit` items were asked for. -/
def pulled (next : α → Except ε (Option α)) (item : α) (limit : Nat) : Lookahead ε α :=
  (pull next)^[limit] (start item)

/-- What a walk under way has come to. -/
def outcome (state : Lookahead ε α) : Walk ε α :=
  ⟨state.handed,
    match state.failure, state.upcoming with
    | some error, _ => .failed error
    | none, none => .finished
    | none, some _ => .limited⟩

/-- The links followed are those of the items handed out, and the malformed one if there was one. -/
def Accounted (next : α → Except ε (Option α)) (state : Lookahead ε α) : Prop :=
  match state.failure with
  | none => state.followed = state.handed
  | some error => state.upcoming = none ∧
      ∃ broken, state.followed = state.handed ++ [broken] ∧ next broken = .error error

theorem pull_of_none (ended : state.upcoming = none) : pull next state = state := by
  simp only [pull, ended]

theorem pull_accounted (accounted : Accounted next state) : Accounted next (pull next state) := by
  cases upcoming : state.upcoming with
  | none => rwa [pull_of_none upcoming]
  | some item =>
      have unfailed : state.failure = none := by
        cases failed : state.failure with
        | none => rfl
        | some error =>
            simp only [Accounted, failed, upcoming] at accounted
            cases accounted.1
      have same : state.followed = state.handed := by
        simpa only [Accounted, unfailed] using accounted
      cases step : next item with
      | error error => simp [Accounted, pull, upcoming, step, same]
      | ok following => simp [Accounted, pull, upcoming, step, same, unfailed]

theorem pulled_accounted (next : α → Except ε (Option α)) (item : α) (limit : Nat) :
    Accounted next (pulled next item limit) := by
  induction limit with
  | zero => rfl
  | succ limit ih =>
      rw [pulled, Function.iterate_succ_apply']
      exact pull_accounted ih

theorem outcome_iterate (upcoming : state.upcoming = some item) (unfailed : state.failure = none)
    (limit : Nat) : ((pull next)^[limit] state).outcome = ⟨state.handed
      ++ (along next .ok limit item).items, (along next .ok limit item).ending⟩ := by
  induction limit generalizing state item with
  | zero => simp [outcome, along, upcoming, unfailed]
  | succ limit ih =>
      rw [Function.iterate_succ_apply]
      cases step : next item with
      | error error =>
          rw [Function.iterate_fixed (pull_of_none (by simp only [pull, upcoming, step]))]
          simp [outcome, along, pull, upcoming, step]
      | ok following =>
          cases following with
          | none =>
              rw [Function.iterate_fixed (pull_of_none (by simp only [pull, upcoming, step]))]
              simp [outcome, along, pull, upcoming, step, unfailed]
          | some following =>
              have goesOn : (pull next state).upcoming = some following := by
                simp only [pull, upcoming, step]
              have unbroken : (pull next state).failure = none := by
                simp only [pull, upcoming, step, unfailed]
              rw [ih goesOn unbroken]
              simp [along, pull, upcoming, step]

/-- Asking item by item comes to what the walk gives. -/
theorem outcome_pulled (next : α → Except ε (Option α)) (item : α) (limit : Nat) :
    (pulled next item limit).outcome = along next .ok limit item :=
  outcome_iterate rfl rfl limit

theorem followed_subset_pull : state.followed ⊆ (pull next state).followed := by
  cases upcoming : state.upcoming with
  | none => rw [pull_of_none upcoming]; exact List.Subset.refl _
  | some item => cases step : next item <;> simp [pull, upcoming, step]

/-- No link is read but those that are followed. -/
theorem pulled_congr
    (agree : ∀ other ∈ (pulled next item limit).followed, next' other = next other) :
    pulled next' item limit = pulled next item limit := by
  induction limit with
  | zero => rfl
  | succ limit ih =>
      simp only [pulled, Function.iterate_succ_apply'] at ih agree ⊢
      rw [ih fun other member => agree other (followed_subset_pull member)]
      cases upcoming : ((pull next)^[limit] (start item)).upcoming with
      | none => rw [pull_of_none upcoming, pull_of_none upcoming]
      | some reached =>
          have same : next' reached = next reached :=
            agree reached (by cases step : next reached <;> simp [pull, upcoming, step])
          simp only [pull, upcoming, same]

end Lookahead

/-! ## Walks under every limit -/

/-- What walks of any length from `start` on give of the chain of links that stands in memory. -/
structure Bounded (link : Memory → α → Except Fault (Option α)) (start : α)
    (walk : Memory → Nat → Walk Fault α) (memory : Memory) : Prop where
  /-- Without links malformed under the limit a walk hands out the items under the limit. -/
  of_sound : ∀ limit, SoundUpTo (link memory) start limit →
    ∃ items, (walk memory limit).result = .ok items ∧
      (∀ index, items[index]? = if index < limit then itemAt (link memory) start index else none) ∧
      (∀ length, (∀ index, (itemAt (link memory) start index).isSome ↔ index < length) →
        items.length = min limit length) ∧
      ((∀ index, (itemAt (link memory) start index).isSome) → items.length = limit)
  /-- At a malformed link a walk stops with its error, after the items in front of it. -/
  of_broken : ∀ limit index item error, index < limit →
    itemAt (link memory) start index = some item → link memory item = .error error →
    ∃ items, walk memory limit = ⟨items, .failed error⟩ ∧ items.length = index ∧
      ∀ earlier < index, items[earlier]? = itemAt (link memory) start earlier
  /-- The walk asks item by item, and follows one link for each item it hands out. -/
  pulls : ∀ limit, (Lookahead.pulled (link memory) start limit).outcome = walk memory limit ∧
    Lookahead.Accounted (link memory) (Lookahead.pulled (link memory) start limit)
  /-- No other link matters. -/
  reads : ∀ limit other, (∀ item ∈ (Lookahead.pulled (link memory) start limit).followed,
    link other item = link memory item) → walk other limit = walk memory limit
  /-- A walk that asks for nothing follows no link. -/
  unasked : walk memory 0 = ⟨[], .limited⟩ ∧
    (Lookahead.pulled (link memory) start 0).followed = []
  /-- A lower limit gives the first items. -/
  lower : ∀ fewer limit items, fewer ≤ limit → (walk memory limit).result = .ok items →
    ∃ firsts, (walk memory fewer).result = .ok firsts ∧ firsts <+: items

theorem length_eq_of_getElem? {items : List α} {known : Nat → Option α} {bound : Nat}
    (each : ∀ index, items[index]? = known index)
    (reaches : ∀ index, (known index).isSome ↔ index < bound) : items.length = bound := by
  have same : ∀ index, index < items.length ↔ index < bound := by
    intro index
    rw [← reaches, ← each, Option.isSome_iff_ne_none, ne_eq, List.getElem?_eq_none_iff, Nat.not_le]
  have atBound := same bound
  have atLength := same items.length
  omega

theorem bounded_along (link : Memory → α → Except Fault (Option α)) (start : α)
    (memory : Memory) :
    Bounded link start (fun memory limit => along (link memory) .ok limit start) memory where
  of_sound limit sound := by
    obtain ⟨items, given, each⟩ := sound.result_eq
    refine ⟨items, given, each, fun length reaches => ?_, fun endless => ?_⟩
    · refine length_eq_of_getElem? each fun index => ?_
      rw [Nat.lt_min]
      by_cases inside : index < limit <;> simp [inside, reaches]
    · refine length_eq_of_getElem? each fun index => ?_
      by_cases inside : index < limit <;> simp [inside, endless]
  of_broken limit index item error inside reached breaks := by
    obtain ⟨before, path, rfl⟩ := exists_path_of_itemAt reached
    refine ⟨before, path.along_of_break breaks inside, rfl, fun earlier sooner => ?_⟩
    rw [path.itemAt_eq (Nat.le_of_lt sooner), List.getElem?_append_left sooner]
  pulls limit := ⟨Lookahead.outcome_pulled _ _ _, Lookahead.pulled_accounted _ _ _⟩
  reads limit other agree := by
    rw [← Lookahead.outcome_pulled, Lookahead.pulled_congr agree, Lookahead.outcome_pulled]
  unasked := ⟨rfl, rfl⟩
  lower fewer limit items less given := ⟨_, result_take given less, List.take_prefix _ _⟩

end Walk

/-! ## Classes and contexts -/

/-- Walks along superclasses and along enclosing contexts give the items in front of the limit or
    of the first malformed link, follow one link for each, and give more under a higher limit. A
    superclass that fails its check stops the walk with the text of the check. -/
theorem ancestors_bounded (memory : Memory) :
    (∀ type : ClassType, Walk.Bounded (fun memory inner => inner.superclass memory) type
      (fun memory limit => type.ancestors memory limit) memory) ∧
    (∀ (type : ClassType) (error : MetadataError),
      type.checkSuperclass memory = .error (.rejected error) →
      ∃ fault, type.superclass memory = .error fault ∧ fault.message = error.message) ∧
    ∀ context : Context, Walk.Bounded (fun memory inner => inner.parent memory) context
      (fun memory limit => context.ancestors memory limit) memory := by
  refine ⟨fun type => Walk.bounded_along _ type memory, ?_,
    fun context => Walk.bounded_along _ context memory⟩
  intro type error rejected
  refine ⟨.malformed error, ?_, rfl⟩
  rw [ClassType.superclass, rejected]
  rfl

/-- A class whose superclass names a superclass of its own that is not word aligned. -/
def brokenChain : Memory :=
  Memory.store (Memory.store ⟨fun _ => some 0⟩ 0x1008 #[0x30, 0x10]) 0x1038 #[0x33, 0x10]

/-- One class is handed out. The second is not, because its own link is followed first. -/
theorem ancestors_bounded_brokenChain :
    let type : ClassType := ⟨⟨⟨0x1000, by decide⟩⟩, none⟩
    let broken : ClassType := ⟨⟨⟨0x1030, by decide⟩⟩, none⟩
    let error : MetadataError := .misaligned RecordName.typeMetadata 0x1033 Format.wordSize
    type.superclass brokenChain = .ok (some broken) ∧
      broken.checkSuperclass brokenChain = .error (.rejected error) ∧
      (∃ items, (type.ancestors brokenChain 1).result = .ok items ∧ items[0]? = some type) ∧
      ∃ items fault, type.ancestors brokenChain 2 = ⟨items, .failed fault⟩ ∧ items.length = 1 ∧
        fault.message = error.message := by
  intro type broken error
  have goesOn : type.superclass brokenChain = .ok (some broken) :=
    ok_of_toOption (by decide +kernel)
  have rejected : broken.checkSuperclass brokenChain = .error (.rejected error) := by
    decide +kernel
  obtain ⟨classes, texts, -⟩ := ancestors_bounded brokenChain
  obtain ⟨fault, stopped, text⟩ := texts broken error rejected
  have sound : Walk.SoundUpTo (fun inner => inner.superclass brokenChain) type 1 := by
    intro index first reached there
    obtain rfl := Nat.lt_one_iff.mp first
    cases there
    exact ⟨_, goesOn⟩
  obtain ⟨one, given, each, -⟩ := (classes type).of_sound 1 sound
  obtain ⟨items, walked, length, -⟩ := (classes type).of_broken 2 1 broken fault (by decide)
    (Walk.itemAt_succ goesOn) stopped
  exact ⟨goesOn, rejected, ⟨one, given, each 0⟩, items, fault, walked, length, text⟩

end TypeReflection
