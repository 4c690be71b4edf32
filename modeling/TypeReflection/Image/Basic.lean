import TypeReflection.Context.Basic
import TypeReflection.Image.AlignedBytes
import TypeReflection.Image.Builder
import TypeReflection.Metadata.Handle

/-! # Images

An image is a run of finished metadata at an address of its own. Symbols issued for it lead to type
handles and contexts.
-/

namespace TypeReflection

/-- Finished metadata. -/
structure Image where
  /-- Number of the image. -/
  id : UInt32
  /-- Address of the first byte. -/
  base : Address
  storage : AlignedBytes

/-- The image of a builder at `base`, every listed pointer filled in. There is none if a pointer
    does not lie inside the emitted bytes. -/
def Builder.finish? (builder : Builder) (base : Address) : Option Image := do
  let storage ←
    builder.relocations.foldlM
      (fun storage relocation =>
        storage.writeWord? relocation.position (base.bits + .ofNat relocation.target))
      (AlignedBytes.ofList builder.bytes)
  return ⟨builder.image, base, storage⟩

/-- Why an image does not lead from a symbol to a record. -/
inductive LookupError where
  /-- The symbol is of no use here. -/
  | misused (error : SymbolError)
  /-- No record can be at the place of the symbol. -/
  | faulted (fault : Fault)
  deriving Repr, DecidableEq

/-- Text of an error. -/
def LookupError.message : LookupError → String
  | .misused error => error.message
  | .faulted fault => fault.message

instance : MonadLift (Except SymbolError) (Except LookupError) where
  monadLift resolved := resolved.mapError .misused

instance : MonadLift (Except Fault) (Except LookupError) where
  monadLift reading := reading.mapError .faulted

namespace Image

variable (image : Image)

/-- Number of bytes. -/
def size : Nat :=
  image.storage.size

/-- The bytes, pointers included. -/
def bytes : List UInt8 :=
  image.storage.toList

/-- Memory in which the image lies at its base and nothing else is mapped. -/
def memory : Memory :=
  ⟨fun address => image.storage.get? (address - image.base.bits).toNat⟩

/-- The type whose metadata is at `symbol`. -/
def handle (symbol : Symbol) : Except LookupError TypeHandle := do
  let offset ← symbol.resolveMetadata image.id
  let address ← image.base.add (.ofNat offset)
  return ⟨address⟩

/-- The context at `symbol`. -/
def context (symbol : Symbol) : Except LookupError Context := do
  let offset ← symbol.resolve image.id .context
  let address ← image.base.add (.ofNat offset)
  (Context.check address).mapError fun error => .faulted (.malformed error)

/-- Text of an image. -/
def text : String :=
  s!"MetadataImage \x7b id: {image.id.toNat}, storage: AlignedVec \x7b len: {image.size}, "
    ++ s!"aligned: {image.base.isAligned Format.imageAlignment} \x7d \x7d"

end Image

end TypeReflection
