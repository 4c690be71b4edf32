import Mathlib.Data.List.Forall2
import Mathlib.Data.List.Nodup
import Mathlib.Data.List.Perm.Subperm
import TypeReflection.Proofs.Reading

/-! # Lists and paths read item by item

A list is read if each of its items is. A walk reads the items of its path in the same way, to the
end of the chain or to where the chain breaks. A chain that comes to an end or breaks does not come
back to an item, so it is no longer than there are items.
-/

namespace TypeReflection

variable {ε α β : Type}

section Lists

variable {f : α → Except ε β} {items : List α} {results : List β}

/-- A list is read if each of its items is. -/
theorem mapM_eq_ok_iff :
    items.mapM f = .ok results ↔
      List.Forall₂ (fun item result => f item = .ok result) items results := by
  induction items generalizing results with
  | nil =>
    rw [List.mapM_nil, pure_eq_ok, List.forall₂_nil_left_iff]
    exact eq_comm
  | cons item items ih =>
    simp only [List.mapM_cons, bind_eq_ok, pure_eq_ok, ih, List.forall₂_cons_left_iff]
    constructor
    · rintro ⟨first, read, rest, others, rfl⟩
      exact ⟨first, rest, read, others, rfl⟩
    · rintro ⟨first, rest, read, others, rfl⟩
      exact ⟨first, read, rest, others, rfl⟩

theorem exists_mapM_eq_ok (each : ∀ item ∈ items, ∃ result, f item = .ok result) :
    ∃ results, items.mapM f = .ok results := by
  induction items with
  | nil => exact ⟨[], rfl⟩
  | cons item items ih =>
    obtain ⟨first, read⟩ := each item List.mem_cons_self
    obtain ⟨rest, others⟩ := ih fun other member => each other (List.mem_cons_of_mem _ member)
    refine ⟨first :: rest, ?_⟩
    rw [List.mapM_cons, read, others]
    rfl

theorem exists_error_of_mapM {error : ε} (stopped : items.mapM f = .error error) :
    ∃ item ∈ items, f item = .error error := by
  induction items with
  | nil => cases stopped
  | cons item items ih =>
    rw [List.mapM_cons] at stopped
    cases visited : f item with
    | error first =>
      rw [visited] at stopped
      cases stopped
      exact ⟨item, List.mem_cons_self, visited⟩
    | ok value =>
      rw [visited] at stopped
      cases others : items.mapM f with
      | error later =>
        rw [others] at stopped
        cases stopped
        obtain ⟨other, member, failed⟩ := ih others
        exact ⟨other, List.mem_cons_of_mem _ member, failed⟩
      | ok values =>
        rw [others] at stopped
        cases stopped

/-- An item that is not read is enough to stop the reading of a list. -/
theorem exists_mapM_eq_error {item : α} {error : ε} (member : item ∈ items)
    (failed : f item = .error error) : ∃ first, items.mapM f = .error first := by
  cases read : items.mapM f with
  | error first => exact ⟨first, rfl⟩
  | ok results =>
    have each := mapM_eq_ok_iff.mp read
    obtain ⟨index, inside, rfl⟩ := List.mem_iff_getElem.mp member
    have given := each.get inside (each.length_eq ▸ inside)
    rw [List.get_eq_getElem, failed] at given
    cases given

end Lists

namespace Walk

/-- The items from one up to another that its chain leads to, which is not among them. -/
inductive Path (next : α → Except ε (Option α)) : α → List α → α → Prop where
  | here {item : α} : Path next item [] item
  | step {item following last : α} {before : List α}
      (goesOn : next item = .ok (some following)) (path : Path next following before last) :
      Path next item (item :: before) last

/-- No item comes after this one. -/
def Stops (next : α → Except ε (Option α)) (item : α) : Prop :=
  ∀ following, next item ≠ .ok (some following)

section

variable {next : α → Except ε (Option α)} {item : α}

theorem stops_of_end (ends : next item = .ok none) : Stops next item := by
  intro following goesOn
  rw [ends] at goesOn
  cases goesOn

theorem stops_of_break {error : ε} (breaks : next item = .error error) : Stops next item := by
  intro following goesOn
  rw [breaks] at goesOn
  cases goesOn

end

namespace Path

variable {next : α → Except ε (Option α)} {visit : α → Except ε β} {item other last : α}
  {before before' : List α} {unfinished error : ε} {limit : Nat}

theorem unique (path : Path next item before last) (path' : Path next item before' last)
    (stops : Stops next last) : before = before' := by
  induction path generalizing before' with
  | here =>
    cases path' with
    | here => rfl
    | step goesOn => exact absurd goesOn (stops _)
  | step goesOn path ih =>
    cases path' with
    | here => exact absurd goesOn (stops _)
    | step goesOn' path' =>
      rw [goesOn] at goesOn'
      cases goesOn'
      rw [ih path' stops]

/-- From every item of a path the rest of it leads to the same end. -/
theorem suffix (path : Path next item before last) (member : other ∈ before ++ [last]) :
    ∃ rest, Path next other rest last ∧ rest.length ≤ before.length := by
  induction path with
  | here =>
    obtain rfl := List.mem_singleton.mp member
    exact ⟨[], .here, Nat.le_refl _⟩
  | step goesOn path ih =>
    rcases List.mem_cons.mp member with rfl | later
    · exact ⟨_, .step goesOn path, Nat.le_refl _⟩
    · obtain ⟨rest, onward, shorter⟩ := ih later
      exact ⟨rest, onward, Nat.le_succ_of_le shorter⟩

/-- A chain that stops never comes back to an item. -/
theorem nodup (path : Path next item before last) (stops : Stops next last) :
    (before ++ [last]).Nodup := by
  induction path with
  | here => exact List.nodup_cons.mpr ⟨List.not_mem_nil, List.nodup_nil⟩
  | @step item _ _ before goesOn path ih =>
    refine List.nodup_cons.mpr ⟨?_, ih stops⟩
    intro again
    obtain ⟨rest, round, shorter⟩ := path.suffix again
    have same := (Path.step goesOn path).unique round stops
    rw [← same, List.length_cons] at shorter
    omega

/-- A chain that stops is no longer than there are numbers for its items. -/
theorem length_lt (path : Path next item before last) (stops : Stops next last)
    {number : α → Nat} {bound : Nat} (small : ∀ item, number item < bound)
    (distinct : Function.Injective number) : before.length < bound := by
  have numbered : ((before ++ [last]).map number).Nodup := (path.nodup stops).map distinct
  have within : (before ++ [last]).map number ⊆ List.range bound := by
    intro value member
    obtain ⟨item, -, rfl⟩ := List.mem_map.mp member
    exact List.mem_range.mpr (small item)
  have fits := (List.subperm_of_subset numbered within).length_le
  simp only [List.length_map, List.length_append, List.length_singleton, List.length_range] at fits
  omega

/-- What a walk hands out of a path that is a whole chain. -/
theorem along_of_end {results : List β} (path : Path next item before last)
    (ends : next last = .ok none)
    (visited : List.Forall₂ (fun item result => visit item = .ok result) (before ++ [last]) results)
    (limit : Nat) : along next visit limit item
      = ⟨results.take limit, if before.length < limit then .finished else .limited⟩ := by
  induction path generalizing results limit with
  | here =>
    obtain ⟨result, rest, given, none, rfl⟩ := List.forall₂_cons_left_iff.mp visited
    cases none
    cases limit with
    | zero => rfl
    | succ limit => simp [along, ends, given]
  | step goesOn path ih =>
    obtain ⟨result, rest, given, others, rfl⟩ := List.forall₂_cons_left_iff.mp visited
    cases limit with
    | zero => rfl
    | succ limit => simp [along, goesOn, given, ih ends others limit]

/-- A walk without visits hands out the path itself. -/
theorem along_ok (path : Path next item before last) (ends : next last = .ok none)
    (limit : Nat) : along next (.ok : α → Except ε α) limit item
      = ⟨(before ++ [last]).take limit, if before.length < limit then .finished else .limited⟩ :=
  path.along_of_end ends (List.forall₂_same.mpr fun _ _ => rfl) limit

/-- A walk visits an item and goes on behind it. -/
theorem wholeResult_step (goesOn : next item = .ok (some other)) :
    (along next visit (limit + 1) item).wholeResult unfinished = (do
      let value ← visit item
      let rest ← (along next visit limit other).wholeResult unfinished
      return value :: rest) := by
  rw [along, goesOn]
  cases visited : visit item with
  | error => rfl
  | ok value =>
    cases ended : (along next visit limit other).ending <;> simp [wholeResult, ended] <;> rfl

/-- A walk along a whole chain visits its items in order. -/
theorem wholeResult_of_end (path : Path next item before last) (ends : next last = .ok none)
    (enough : before.length < limit) :
    (along next visit limit item).wholeResult unfinished = (before ++ [last]).mapM visit := by
  induction path generalizing limit with
  | @here item =>
    cases limit with
    | zero => cases enough
    | succ limit =>
      rw [along, ends, List.nil_append, List.mapM_cons, List.mapM_nil]
      cases visit item <;> rfl
  | step goesOn path ih =>
    cases limit with
    | zero => cases enough
    | succ limit =>
      rw [wholeResult_step goesOn, ih ends (Nat.lt_of_succ_lt_succ enough), List.cons_append,
        List.mapM_cons]

/-- A walk along a chain that breaks visits the items in front of the break. -/
theorem wholeResult_of_break (path : Path next item before last)
    (breaks : next last = .error error) (enough : before.length < limit) :
    (along next visit limit item).wholeResult unfinished
      = before.mapM visit >>= fun _ => .error error := by
  induction path generalizing limit with
  | here =>
    cases limit with
    | zero => cases enough
    | succ limit =>
      rw [along, breaks]
      rfl
  | @step item _ _ before goesOn path ih =>
    cases limit with
    | zero => cases enough
    | succ limit =>
      rw [wholeResult_step goesOn, ih breaks (Nat.lt_of_succ_lt_succ enough), List.mapM_cons]
      cases visit item with
      | error => rfl
      | ok value => cases before.mapM visit <;> rfl

end Path

end Walk

end TypeReflection
