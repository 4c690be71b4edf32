import TypeReflection.Memory
import TypeReflection.Text.Utf8

/-! # Encoded type names

An encoded name is a byte string that ends at a zero byte. It may refer to other records: a control
byte from 1 to 23 is followed by a relative offset of four bytes, and one from 24 to 31 by an
address of the size of a machine word. Such a payload may hold zeros, so the end of a name is found
by passing over the payloads. The names are shown as they are and not decoded.
-/

namespace TypeReflection

/-- How many bytes follow a control byte, if `byte` is one. -/
def payloadLength? (byte : UInt8) : Option Nat :=
  if byte = 0 then none
  else if byte ≤ 0x17 then some 4
  else if byte ≤ 0x1F then some Format.wordSize
  else none

/-- A reference inside an encoded name. -/
structure SymbolicReference where
  /-- The control byte. -/
  control : UInt8
  /-- The bytes after it, fewer than it asks for if the name ends among them. -/
  payload : List UInt8
  deriving Repr, DecidableEq

/-- An encoded type name, without the zero byte that ends it. -/
structure EncodedName where
  bytes : List UInt8
  deriving Repr, DecidableEq

namespace EncodedName

/-- The bytes from `address` to the zero byte that ends the name, the next `pending` bytes belonging
    to a payload. The end is looked for among the next `limit` bytes. -/
def scan (memory : Memory) (address : UInt64) (pending : Nat) :
    (limit : Nat) → Except Fault (List UInt8)
  | 0 => .error (.unmapped address)
  | limit + 1 => do
      let first ← memory.byte address
      match pending with
      | pending + 1 =>
          let rest ← scan memory (address + 1) pending limit
          return first :: rest
      | 0 =>
          if first = 0 then
            return []
          else
            let rest ← scan memory (address + 1) ((payloadLength? first).getD 0) limit
            return first :: rest

/-- The name at `address`. -/
def read (memory : Memory) (address : Address) : Except Fault EncodedName :=
  (⟨·⟩) <$> scan memory address.bits 0 (Memory.room address.bits)

/-- Whether every control byte is followed by its whole payload, the next `pending` bytes belonging
    to a payload. -/
def isWellFormedFrom : (pending : Nat) → List UInt8 → Bool
  | pending, [] => pending == 0
  | pending + 1, _ :: rest => isWellFormedFrom pending rest
  | 0, byte :: rest => isWellFormedFrom ((payloadLength? byte).getD 0) rest

/-- Whether every control byte is followed by its whole payload. -/
def isWellFormed (bytes : List UInt8) : Bool :=
  isWellFormedFrom 0 bytes

/-- The references in a byte string, in order, the next `pending` bytes belonging to a payload. -/
def referencesFrom : (pending : Nat) → List UInt8 → List SymbolicReference
  | _, [] => []
  | pending + 1, _ :: rest => referencesFrom pending rest
  | 0, byte :: rest =>
      match payloadLength? byte with
      | some length => ⟨byte, rest.take length⟩ :: referencesFrom length rest
      | none => referencesFrom 0 rest

/-- The references in a name, in order. -/
def references (name : EncodedName) : List SymbolicReference :=
  referencesFrom 0 name.bytes

def hasReferences (name : EncodedName) : Bool :=
  !name.references.isEmpty

/-- The name as text, if it is plain UTF-8 without references. -/
def plainText? (name : EncodedName) : Option String :=
  if name.hasReferences then none else utf8? name.bytes

/-- A byte as shown: printable ASCII as it is, any other byte as `\x` and two digits. -/
def shownByte (byte : UInt8) : List Char :=
  if 0x20 ≤ byte && byte ≤ 0x7E then [Char.ofNat byte.toNat] else '\\' :: 'x' :: hexPair byte

/-- The name as shown. -/
def shown (name : EncodedName) : String :=
  String.ofList (name.bytes.flatMap shownByte)

/-- The name as shown, marked as an encoded name. -/
def text (name : EncodedName) : String :=
  "MangledName(\"" ++ name.shown ++ "\")"

end EncodedName

end TypeReflection
