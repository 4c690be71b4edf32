import TypeReflection.Context.Flags
import TypeReflection.Image.Emission.Attachment

/-! # Emission of modules and extensions

A module is a context with a name and no parent, an extension one with a parent and no name.
-/

namespace TypeReflection

/-- The stored flags of an emitted context: its kind, and that it is unique. -/
def emittedFlags (kind : ContextKind) : List UInt8 :=
  littleEndian 4 ((ContextFlags.ofKind kind).bits ||| ContextFlags.uniqueMask).toNat

/-- A module behind an image of `size` bytes. -/
def emitModule (size : Nat) (name : String) : Except BuildError Emission := do
  let start := alignUp size Format.descriptorAlignment
  let name ←
    Attachment.ofString (start + Format.Context.name) (start + Format.Context.moduleSize)
      (utf8Bytes name)
  return {
    bytes :=
      padding size Format.descriptorAlignment ++ emittedFlags .module ++ Attachment.absent.link
        ++ name.link ++ name.bytes
    relocations := [] }

/-- An extension behind an image of `size` bytes. -/
def emitExtension (image : UInt32) (size : Nat) (parent : Symbol) :
    Except BuildError Emission := do
  let start := alignUp size Format.descriptorAlignment
  let parent ←
    Attachment.ofParent image (start + Format.Context.parent)
      (start + Format.Context.extensionSize) (some (.direct parent))
  return {
    bytes :=
      padding size Format.descriptorAlignment ++ emittedFlags .extension ++ parent.link
        ++ Attachment.absent.link
    relocations := parent.relocations }

end TypeReflection
