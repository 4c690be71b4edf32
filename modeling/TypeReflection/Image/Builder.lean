import TypeReflection.Image.Emission.Type

/-! # Image builders

A builder takes declarations one after the other, puts what is emitted for each behind the bytes so
far and issues symbols for the emitted records.
-/

namespace TypeReflection

/-- One thing to emit. Types are given by their name and by settings, which are made in order. -/
inductive Declaration where
  | module (name : String)
  | extension (parent : Symbol)
  | structType (name : String) (settings : List StructSetting)
  | classType (name : String) (settings : List ClassSetting)
  deriving Repr, DecidableEq

/-- Symbols issued for a declaration. -/
inductive Issued where
  | context (symbol : Symbol)
  | type (metadata descriptor : Symbol)
  deriving Repr, DecidableEq

/-- The issued symbols. -/
def Issued.symbols : Issued → List Symbol
  | .context symbol => [symbol]
  | .type metadata descriptor => [metadata, descriptor]

/-- An image in the making. -/
structure Builder where
  /-- Number of the image. -/
  image : UInt32
  bytes : List UInt8
  relocations : List Relocation
  deriving Repr, DecidableEq

namespace Builder

/-- The builder of the image with the given number, with nothing emitted. -/
def empty (image : UInt32) : Builder :=
  ⟨image, [], []⟩

/-- The builder with an emission behind its bytes. -/
def append (builder : Builder) (emission : Emission) : Builder where
  image := builder.image
  bytes := builder.bytes ++ emission.bytes
  relocations := builder.relocations ++ emission.relocations

/-- The builder after a declaration, and the symbols issued for it. -/
def declare (builder : Builder) : Declaration → Except BuildError (Builder × Issued)
  | .module name => do
      let emission ← emitModule builder.bytes.length name
      let start := alignUp builder.bytes.length Format.descriptorAlignment
      return (builder.append emission, .context ⟨builder.image, start, .context⟩)
  | .extension parent => do
      let emission ← emitExtension builder.image builder.bytes.length parent
      let start := alignUp builder.bytes.length Format.descriptorAlignment
      return (builder.append emission, .context ⟨builder.image, start, .context⟩)
  | .structType name settings => do
      let definition ← StructDefinition.ofSettings name settings
      let type ← definition.emit builder.image builder.bytes.length
      return (builder.append type.emission,
        .type ⟨builder.image, type.metadata, .structMetadata⟩
          ⟨builder.image, type.descriptor, .context⟩)
  | .classType name settings => do
      let definition ← ClassDefinition.ofSettings name settings
      let type ← definition.emit builder.image builder.bytes.length
      return (builder.append type.emission,
        .type ⟨builder.image, type.metadata, .classMetadata⟩
          ⟨builder.image, type.descriptor, .context⟩)

/-- The builder after declarations in order, and the symbols issued for each. -/
def declareAll (builder : Builder) :
    List Declaration → Except BuildError (Builder × List Issued)
  | [] => .ok (builder, [])
  | declaration :: declarations => do
      let (builder, issued) ← builder.declare declaration
      let (builder, rest) ← builder.declareAll declarations
      return (builder, issued :: rest)

end Builder

end TypeReflection
