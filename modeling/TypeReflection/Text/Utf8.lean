/-! # UTF-8 text in byte strings

Names are stored as bytes. `utf8?` reads them strictly; `utf8Lossy` puts one replacement character
for each maximal ill-formed part, that is for the longest start of a well-formed character, or for
a single byte that starts none.
-/

namespace TypeReflection

/-- Inclusive range of bytes. -/
structure ByteRange where
  least : UInt8
  greatest : UInt8
  deriving Repr, DecidableEq

namespace ByteRange

/-- Whether a byte lies in the range. -/
def contains (range : ByteRange) (byte : UInt8) : Bool :=
  range.least ≤ byte && byte ≤ range.greatest

/-- Any continuation byte. -/
def continuation : ByteRange := ⟨0x80, 0xBF⟩

end ByteRange

/-- The bytes that may follow `lead` in a well-formed character, in order. The first of them is
    confined where a wider choice would give an overlong form, a surrogate or a value above the
    last code point. -/
def utf8Followers (lead : UInt8) : List ByteRange :=
  if lead < 0xC2 then []
  else if lead < 0xE0 then [.continuation]
  else if lead = 0xE0 then [⟨0xA0, 0xBF⟩, .continuation]
  else if lead = 0xED then [⟨0x80, 0x9F⟩, .continuation]
  else if lead < 0xF0 then [.continuation, .continuation]
  else if lead = 0xF0 then [⟨0x90, 0xBF⟩, .continuation, .continuation]
  else if lead < 0xF4 then [.continuation, .continuation, .continuation]
  else if lead = 0xF4 then [⟨0x80, 0x8F⟩, .continuation, .continuation]
  else []

/-- How many leading bytes lie in the ranges given for them. -/
def matchingCount : List ByteRange → List UInt8 → Nat
  | range :: ranges, byte :: bytes =>
      if range.contains byte then matchingCount ranges bytes + 1 else 0
  | _, _ => 0

/-- The character at the start of `bytes`, if a well-formed one stands there. -/
def utf8Front? (bytes : List UInt8) : Option Char :=
  (bytes.take 4).toByteArray.utf8DecodeChar? 0

/-- The characters of bytes, the next `pending` of them belonging to the character before. Each
    maximal ill-formed part is read as U+FFFD. -/
def utf8CharsFrom : (pending : Nat) → List UInt8 → List Char
  | _, [] => []
  | pending + 1, _ :: rest => utf8CharsFrom pending rest
  | 0, lead :: rest =>
      match utf8Front? (lead :: rest) with
      | some char => char :: utf8CharsFrom (char.utf8Size - 1) rest
      | none => '\uFFFD' :: utf8CharsFrom (matchingCount (utf8Followers lead) rest) rest

/-- The text of `bytes`, each maximal ill-formed part read as U+FFFD. -/
def utf8Lossy (bytes : List UInt8) : String :=
  String.ofList (utf8CharsFrom 0 bytes)

/-- The text whose UTF-8 form is `bytes`, if there is one. -/
def utf8? (bytes : List UInt8) : Option String :=
  String.fromUTF8? bytes.toByteArray

/-- The UTF-8 form of a text. -/
def utf8Bytes (text : String) : List UInt8 :=
  text.toUTF8.data.toList

end TypeReflection
