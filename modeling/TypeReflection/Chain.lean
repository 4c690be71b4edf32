/-! # Walks along chains

A chain is followed by a step that gives the item after an item. The step is taken before an item is
handed out, so a broken step hides the item in front of it too.
-/

namespace TypeReflection

/-- How a walk came to its end. -/
inductive WalkEnd (ε : Type) where
  /-- The last item of the chain was handed out. -/
  | finished
  /-- As many items were handed out as were asked for. -/
  | limited
  /-- A step or a visit failed. -/
  | failed (error : ε)
  deriving Repr, DecidableEq

/-- What a walk handed out, and how it ended. -/
structure Walk (ε α : Type) where
  items : List α
  ending : WalkEnd ε
  deriving Repr, DecidableEq

namespace Walk

variable {ε α β : Type}

/-- The walk from `item` on that hands out what `visit` makes of at most `limit` items. -/
def along (next : α → Except ε (Option α)) (visit : α → Except ε β) :
    (limit : Nat) → (item : α) → Walk ε β
  | 0, _ => ⟨[], .limited⟩
  | limit + 1, item =>
      match next item with
      | .error error => ⟨[], .failed error⟩
      | .ok following =>
        match visit item with
        | .error error => ⟨[], .failed error⟩
        | .ok visited =>
          match following with
          | none => ⟨[visited], .finished⟩
          | some following =>
              let rest := along next visit limit following
              ⟨visited :: rest.items, rest.ending⟩

/-- The items of a walk that did not fail. -/
def result (walk : Walk ε α) : Except ε (List α) :=
  match walk.ending with
  | .failed error => .error error
  | .finished | .limited => .ok walk.items

/-- The items of a walk that reached the end of the chain, `unfinished` if it ran out of steps. -/
def wholeResult (walk : Walk ε α) (unfinished : ε) : Except ε (List α) :=
  match walk.ending with
  | .failed error => .error error
  | .finished => .ok walk.items
  | .limited => .error unfinished

end Walk

end TypeReflection
