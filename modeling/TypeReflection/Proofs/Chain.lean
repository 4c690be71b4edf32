import TypeReflection.Proofs.Traversal

/-! # Chains that end

A chain ends if some item on it has no next one. A walk that may take enough steps then hands out
what visits of all its items give, in order.
-/

namespace TypeReflection.Walk

variable {ε α β ι : Type}

/-- The items from one on to the end of its chain. -/
inductive Follows (next : α → Except ε (Option α)) : α → List α → Prop where
  | last {item : α} (ends : next item = .ok none) : Follows next item [item]
  | step {item following : α} {rest : List α} (goesOn : next item = .ok (some following))
      (followed : Follows next following rest) : Follows next item (item :: rest)

namespace Follows

variable {next : α → Except ε (Option α)} {visit : α → Except ε β} {item : α}

theorem path {chain : List α} (follows : Follows next item chain) :
    ∃ before last, chain = before ++ [last] ∧ Path next item before last ∧
      next last = .ok none := by
  induction follows with
  | @last item ends => exact ⟨[], item, rfl, .here, ends⟩
  | @step item _ _ goesOn followed ih =>
      obtain ⟨before, last, rfl, path, ends⟩ := ih
      exact ⟨item :: before, last, rfl, .step goesOn path, ends⟩

/-- The walk along a chain of views of known things. -/
theorem along_map {view : ι → α} {seen : ι → β} {known : List ι}
    (follows : Follows next item (known.map view))
    (visits : ∀ thing ∈ known, visit (view thing) = .ok (seen thing))
    {limit : Nat} (enough : known.length ≤ limit) :
    along next visit limit item = ⟨known.map seen, .finished⟩ := by
  obtain ⟨before, last, whole, path, ends⟩ := follows.path
  have visited : List.Forall₂ (fun item result => visit item = .ok result) (before ++ [last])
      (known.map seen) := by
    rw [← whole, List.forall₂_map_left_iff, List.forall₂_map_right_iff, List.forall₂_same]
    exact visits
  have long : known.length = before.length + 1 := by simpa using congrArg List.length whole
  rw [path.along_of_end ends visited, if_pos (by omega), List.take_of_length_le]
  rwa [List.length_map]

end Follows

end TypeReflection.Walk
