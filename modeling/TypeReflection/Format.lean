/-! # The metadata format

Sizes, alignments and byte positions of the records that describe types, for 64-bit little-endian
machines without the Objective-C interoperation words.
-/

namespace TypeReflection.Format

/-- Bytes of a machine word. -/
def wordSize : Nat := 8

/-- Whether class metadata carries the Objective-C interoperation words. -/
def objectiveCInterop : Bool := false

/-- Alignment of context descriptors, field descriptors and field records. -/
def descriptorAlignment : Nat := 4

/-- Alignment of the first byte of an image. -/
def imageAlignment : Nat := 16

/-! ## Kind words -/

/-- Kinds with this bit set are not heap objects. -/
def nonHeapKind : Nat := 0x200

/-- Kinds with this bit set are private to the runtime. -/
def runtimePrivateKind : Nat := 0x100

/-- Kinds with this bit set do not describe types. -/
def nonTypeKind : Nat := 0x400

/-- Largest kind word that is not an isa pointer. -/
def lastEnumeratedKind : Nat := 0x7FF

/-- Struct kind of metadata emitted before the non-heap bit existed. -/
def legacyStructKind : Nat := 1

/-! ## Context descriptors

Positions are in bytes from the start of the record, here and below. -/

namespace Context

def flags : Nat := 0
def parent : Nat := 4
def name : Nat := 8

/-- Size of the part that every context descriptor has: flags and parent link. -/
def baseSize : Nat := 8

/-- Size of a module descriptor: the base and a name link. -/
def moduleSize : Nat := 12

/-- Size of an extension descriptor: the base and a link to the extended context. -/
def extensionSize : Nat := 12

def accessFunction : Nat := 12
def fields : Nat := 16

/-- Size of the part that the descriptors of all types share. -/
def typeSize : Nat := 20

end Context

namespace StructDescriptor

def fieldCount : Nat := 20
def offsetVectorLocator : Nat := 24
def size : Nat := 28

end StructDescriptor

namespace ClassDescriptor

def superclassType : Nat := 20
def negativeWords : Nat := 24
def positiveWords : Nat := 28
def immediateMembers : Nat := 32
def size : Nat := 44

end ClassDescriptor

/-! ## Field descriptors and records -/

namespace FieldDescriptor

def typeName : Nat := 0
def superclass : Nat := 4
def kind : Nat := 8
def recordSize : Nat := 10
def fieldCount : Nat := 12
def headerSize : Nat := 16

end FieldDescriptor

namespace FieldRecord

def flags : Nat := 0
def typeName : Nat := 4
def name : Nat := 8

/-- Least size of a field record. -/
def size : Nat := 12

end FieldRecord

/-! ## Metadata -/

namespace StructMetadata

def descriptor : Nat := wordSize

end StructMetadata

namespace ClassMetadata

def superclass : Nat := wordSize

/-- Position of the first field after the word-sized ones. -/
def flags : Nat := (if objectiveCInterop then 5 else 2) * wordSize

def instanceAddressPoint : Nat := flags + 4
def instanceSize : Nat := flags + 8
def instanceAlignmentMask : Nat := flags + 12
def classSize : Nat := flags + 16
def classAddressPoint : Nat := flags + 20
def descriptor : Nat := flags + 24
def ivarDestroyer : Nat := descriptor + wordSize

/-- Size of the fixed part from the address point on. -/
def size : Nat := ivarDestroyer + wordSize

/-- Words before the address point. -/
def negativeWords : Nat := 2

end ClassMetadata

end TypeReflection.Format
