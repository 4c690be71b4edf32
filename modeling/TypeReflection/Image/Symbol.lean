import TypeReflection.Text.Numeral

/-! # Symbols

A symbol is the place of an emitted record inside one image, with the role of the record. It is of
use only in the image that it was issued for.
-/

namespace TypeReflection

/-- What stands at a symbol. -/
inductive Role where
  | context
  | structMetadata
  | classMetadata
  deriving Repr, DecidableEq

/-- Text of a role. -/
def Role.text : Role → String
  | .context => "Context"
  | .structMetadata => "StructMetadata"
  | .classMetadata => "ClassMetadata"

/-- Place of a record in an image. -/
structure Symbol where
  /-- Number of the image. -/
  image : UInt32
  /-- Bytes from the start of the image. -/
  offset : Nat
  role : Role
  deriving Repr, DecidableEq

/-- Text of a symbol. -/
def Symbol.text (symbol : Symbol) : String :=
  s!"Symbol({symbol.role.text} @ {hex symbol.offset})"

/-- Why a symbol is of no use where it was given. -/
inductive SymbolError where
  /-- It was issued for another image. -/
  | foreign (symbol : Symbol) (image : UInt32)
  /-- It has another role. -/
  | wrongRole (symbol : Symbol) (expected : Role)
  /-- It is a context where metadata is asked for. -/
  | notMetadata (symbol : Symbol)
  deriving Repr, DecidableEq

/-- Text of an error. -/
def SymbolError.message : SymbolError → String
  | .foreign symbol image =>
      s!"{symbol.text} belongs to image {symbol.image.toNat}, not image {image.toNat}"
  | .wrongRole symbol expected =>
      s!"{symbol.text} is a {symbol.role.text}, expected a {expected.text}"
  | .notMetadata symbol => s!"{symbol.text} is a context, not type metadata"

namespace Symbol

/-- The place of a symbol in the given image, after a check of its image and its role. -/
def resolve (symbol : Symbol) (image : UInt32) (role : Role) : Except SymbolError Nat :=
  if symbol.image ≠ image then .error (.foreign symbol image)
  else if symbol.role ≠ role then .error (.wrongRole symbol role)
  else .ok symbol.offset

/-- The place of metadata in the given image, after a check of the symbol's role and its image. -/
def resolveMetadata (symbol : Symbol) (image : UInt32) : Except SymbolError Nat :=
  match symbol.role with
  | .structMetadata | .classMetadata => symbol.resolve image symbol.role
  | .context => .error (.notMetadata symbol)

end Symbol

end TypeReflection
