import TypeReflection.Image.Symbol
import TypeReflection.Metadata.Kind

/-! # Errors of definitions

Why a definition cannot be emitted.
-/

namespace TypeReflection

/-- Why a definition cannot be emitted. -/
inductive BuildError where
  /-- A symbol is of no use where it was given. -/
  | symbol (error : SymbolError)
  /-- A record is too far away for a relative link. -/
  | offsetTooLarge (offset : Int)
  /-- An encoded name ends among the bytes of a reference. -/
  | truncatedReference (bytes : List UInt8)
  /-- A kind word stands for the other shape than the definition. -/
  | kindWordMismatch (raw : UInt64) (kind : TypeKind)
  /-- The offset vector has another length than the list of fields. -/
  | offsetCountMismatch (name : String) (offsets fields : Nat)
  deriving Repr, DecidableEq

/-- Text of an error. -/
def BuildError.message : BuildError → String
  | .symbol error => error.message
  | .offsetTooLarge offset => s!"relative offset {offset} does not fit in 32 bits"
  | .truncatedReference bytes =>
      let shown := ", ".intercalate (bytes.map fun byte => hexDigits byte.toNat)
      s!"encoded name [{shown}] ends inside a symbolic reference"
  | .kindWordMismatch raw kind =>
      s!"kind word {hex raw.toNat} does not describe a {kind.name}"
  | .offsetCountMismatch name offsets fields =>
      s!"assertion `left == right` failed: offset vector of `{name}` must cover every field\n"
        ++ s!"  left: {offsets}\n right: {fields}"

instance : MonadLift (Except SymbolError) (Except BuildError) where
  monadLift resolved := resolved.mapError .symbol

end TypeReflection
