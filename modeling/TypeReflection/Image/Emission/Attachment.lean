import TypeReflection.EncodedName
import TypeReflection.Image.Definition
import TypeReflection.Image.Emission.Basic

/-! # Attachments

An attachment is a link of an emitted record together with what the link leads to, which is emitted
behind the record.
-/

namespace TypeReflection

/-- A link and what it leads to, which is emitted further on. -/
structure Attachment where
  /-- The stored link. -/
  link : List UInt8
  /-- What the link leads to, with the zeros that align it. -/
  bytes : List UInt8
  relocations : List Relocation
  deriving Repr, DecidableEq

namespace Attachment

/-- A link that leads nowhere. -/
def absent : Attachment :=
  ⟨storedOffset 0, [], []⟩

/-- A string at `position`, linked from `anchor`. -/
def ofString (anchor position : Nat) (string : List UInt8) : Except BuildError Attachment := do
  let offset ← linkOffset anchor position
  return ⟨storedOffset offset, string ++ [0], []⟩

/-- An encoded name at `position`, linked from `anchor`, if there is one. -/
def ofEncodedName (anchor position : Nat) :
    Option (List UInt8) → Except BuildError Attachment
  | none => .ok absent
  | some bytes =>
      if EncodedName.isWellFormed bytes then ofString anchor position bytes
      else .error (.truncatedReference bytes)

/-- The enclosing context, linked from `anchor` directly or through a slot emitted at `position` or
    behind it. -/
def ofParent (image : UInt32) (anchor position : Nat) :
    Option ParentReference → Except BuildError Attachment
  | none => .ok absent
  | some (.direct context) => do
      let target ← context.resolve image .context
      let offset ← linkOffset anchor target
      return ⟨storedOffset offset, [], []⟩
  | some (.indirect context) => do
      let target ← context.resolve image .context
      let slot := alignUp position Format.wordSize
      let offset ← linkOffset anchor slot
      let stored := padding position Format.wordSize ++ zeros Format.wordSize
      return ⟨storedOffset (offset ||| 1), stored, [⟨slot, target⟩]⟩

end Attachment

end TypeReflection
