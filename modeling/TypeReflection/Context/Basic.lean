import TypeReflection.Chain
import TypeReflection.Context.Flags
import TypeReflection.EncodedName
import TypeReflection.Link

/-! # Contexts

A context descriptor starts with its flags and a link to the enclosing context. Modules, protocols
and types store a link to their name after that. The enclosing contexts give every type its
qualified name.
-/

namespace TypeReflection

/-- View of a context descriptor. -/
structure Context where
  address : Address
  deriving Repr, DecidableEq

namespace Context

/-- The context descriptor at `address`, after a check of its alignment. -/
def check (address : Address) : Except MetadataError Context :=
  if address.isAligned Format.descriptorAlignment then .ok ⟨address⟩
  else .error (.misaligned RecordName.contextDescriptor address.bits Format.descriptorAlignment)

/-- The context descriptor that a link leads to. -/
def ofTarget (address : Address) : Except Fault Context :=
  if address.isAligned Format.descriptorAlignment then .ok ⟨address⟩
  else .error (.misalignedContext address)

variable (context : Context) (memory : Memory)

def flags : Except Fault ContextFlags :=
  (⟨·⟩) <$> memory.readU32 context.address Format.Context.flags

def kind : Except Fault ContextKind :=
  ContextFlags.kind <$> context.flags memory

/-- The link to the enclosing context. -/
def parentLink : Except Fault IndirectableLink := do
  let anchor ← context.address.add (.ofNat Format.Context.parent)
  IndirectableLink.read memory anchor

/-- The enclosing context, nothing at the end of the chain. -/
def parent : Except Fault (Option Context) := do
  let link ← context.parentLink memory
  link.get? memory ofTarget

/-- The link to the name of a context that has one. -/
def nameLink : Except Fault DirectLink :=
  DirectLink.readAt memory context.address Format.Context.name

/-- The name of a module, a protocol or a type, if it is present. -/
def name : Except Fault (Option (List UInt8)) := do
  let kind ← context.kind memory
  if kind.hasName then
    let link ← context.nameLink memory
    link.get? memory.cString
  else
    return none

/-- At most `limit` of the contexts from this one outwards. -/
def ancestors (limit : Nat) : Walk Fault Context :=
  .along (fun inner => inner.parent memory) .ok limit context

/-- The names of the contexts from this one outwards. -/
def namesOutward : Except Fault (List (Option (List UInt8))) :=
  (Walk.along (fun inner => inner.parent memory) (fun inner => inner.name memory) UInt64.size
    context).wholeResult .endlessChain

/-- The names of this context and the enclosing ones, outermost first and joined by dots. Contexts
    without a name are passed over. -/
def qualifiedName : Except Fault String := do
  let names ← context.namesOutward memory
  return ".".intercalate ((names.filterMap id).reverse.map utf8Lossy)

end Context

end TypeReflection
