import TypeReflection.Memory

/-! # Relative links

Records refer to each other by signed 32-bit offsets, measured from the address of the offset
itself, so that they mean the same wherever the records lie. Offset zero stands for no target. A
link that may be indirect marks with its low bit that the rest of the offset leads to a slot holding
the address of the target.
-/

namespace TypeReflection

/-- Whether an offset stands for no target. -/
def isAbsentOffset (offset : Int32) : Bool :=
  offset == 0

/-- Where an offset stored at `anchor` leads, modulo 2^64. -/
def resolveOffset (anchor : UInt64) (offset : Int32) : Except Fault UInt64 :=
  if isAbsentOffset offset then .error (.absentOffset anchor)
  else .ok (anchor + offset.toInt64.toUInt64)

/-- Where an offset stored at `anchor` leads, nothing if it stands for no target. -/
def resolveOffset? (anchor : UInt64) (offset : Int32) : Option UInt64 :=
  (resolveOffset anchor offset).toOption

/-- A link that leads to its target directly. -/
structure DirectLink where
  /-- Where the offset is stored. -/
  anchor : Address
  offset : Int32
  deriving Repr, DecidableEq

/-- The offset stored at `anchor`. -/
def Memory.readOffset (memory : Memory) (anchor : Address) : Except Fault Int32 :=
  (fun bits => (UInt32.ofNat bits).toInt32) <$> memory.read .i32 anchor

namespace DirectLink

/-- The link stored at `anchor`. -/
def read (memory : Memory) (anchor : Address) : Except Fault DirectLink :=
  (⟨anchor, ·⟩) <$> memory.readOffset anchor

/-- The link at a position of the record at `record`. -/
def readAt (memory : Memory) (record : Address) (position : Nat) : Except Fault DirectLink := do
  let anchor ← record.add (.ofNat position)
  read memory anchor

def isAbsent (link : DirectLink) : Bool :=
  isAbsentOffset link.offset

/-- The address that the link leads to. -/
def target (link : DirectLink) : Except Fault Address :=
  if link.isAbsent then .error (.absentLink link.anchor)
  else link.anchor.offset link.offset.toInt64

/-- What `view` makes of the target. -/
def get {α : Type} (link : DirectLink) (view : Address → Except Fault α) : Except Fault α := do
  let target ← link.target
  view target

/-- What `view` makes of the target, nothing if the link is absent. -/
def get? {α : Type} (link : DirectLink) (view : Address → Except Fault α) :
    Except Fault (Option α) :=
  if link.isAbsent then .ok none else some <$> link.get view

/-- Text of the stored link. -/
def text (link : DirectLink) : String :=
  s!"RelativeDirectPointer \x7b anchor: {link.anchor.text}, offset: {link.offset.toInt} \x7d"

end DirectLink

/-- A link that leads to its target directly or through a slot. -/
structure IndirectableLink where
  /-- Where the offset is stored. -/
  anchor : Address
  offset : Int32
  deriving Repr, DecidableEq

namespace IndirectableLink

/-- The link stored at `anchor`. -/
def read (memory : Memory) (anchor : Address) : Except Fault IndirectableLink :=
  (⟨anchor, ·⟩) <$> memory.readOffset anchor

def isAbsent (link : IndirectableLink) : Bool :=
  isAbsentOffset link.offset

/-- Whether the link leads through a slot. -/
def isIndirect (link : IndirectableLink) : Bool :=
  link.offset &&& 1 != 0

/-- Where the slot of an indirect link stands. -/
def slot (link : IndirectableLink) : Except Fault Address :=
  link.anchor.offset (link.offset &&& ~~~1).toInt64

/-- The address that the link leads to. -/
def target (link : IndirectableLink) (memory : Memory) : Except Fault Address :=
  if link.isAbsent then
    .error (.absentLink link.anchor)
  else if link.isIndirect then do
    let slot ← link.slot
    if slot.isAligned Format.wordSize then
      match ← memory.readPointer slot 0 with
      | some target => return target
      | none => throw (.nullSlot slot)
    else
      throw (.misalignedSlot slot)
  else
    link.anchor.offset link.offset.toInt64

/-- What `view` makes of the target. -/
def get {α : Type} (link : IndirectableLink) (memory : Memory)
    (view : Address → Except Fault α) : Except Fault α := do
  let target ← link.target memory
  view target

/-- What `view` makes of the target, nothing if the link is absent. -/
def get? {α : Type} (link : IndirectableLink) (memory : Memory)
    (view : Address → Except Fault α) : Except Fault (Option α) :=
  if link.isAbsent then .ok none else some <$> link.get memory view

/-- Text of the stored link. -/
def text (link : IndirectableLink) : String :=
  s!"RelativeIndirectablePointer \x7b anchor: {link.anchor.text}, "
    ++ s!"offset: {link.offset.toInt}, indirect: {link.isIndirect} \x7d"

end IndirectableLink

end TypeReflection
