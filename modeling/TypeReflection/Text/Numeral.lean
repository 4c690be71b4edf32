/-! # Numerals

Addresses, machine words and flag words are written in lower-case hexadecimal without padding, all
other numbers in decimal. Byte strings are written as two hexadecimal digits for each byte.
-/

namespace TypeReflection

/-- Hexadecimal digits of `n`, without leading zeros. -/
def hexDigits (n : Nat) : String :=
  String.ofList (Nat.toDigits 16 n)

/-- Hexadecimal digits of `n` after `0x`. -/
def hex (n : Nat) : String :=
  "0x" ++ hexDigits n

/-- The two hexadecimal digits of a byte. -/
def hexPair (byte : UInt8) : List Char :=
  [Nat.digitChar (byte.toNat / 16), Nat.digitChar (byte.toNat % 16)]

/-- The hexadecimal digits of bytes, two for each. -/
def hexPairs (bytes : List UInt8) : String :=
  String.ofList (bytes.flatMap hexPair)

/-- The value of a hexadecimal digit of either case. -/
def hexValue? (char : Char) : Option Nat :=
  if '0' ≤ char ∧ char ≤ '9' then some (char.toNat - '0'.toNat)
  else if 'a' ≤ char ∧ char ≤ 'f' then some (char.toNat - 'a'.toNat + 10)
  else if 'A' ≤ char ∧ char ≤ 'F' then some (char.toNat - 'A'.toNat + 10)
  else none

/-- The number with the given hexadecimal digits. -/
def ofHexDigits? (digits : List Char) : Option Nat :=
  digits.foldlM (fun number digit => (number * 16 + ·) <$> hexValue? digit) 0

/-- The number that `0x` and hexadecimal digits stand for. -/
def ofHex? (text : String) : Option Nat :=
  match text.toList with
  | '0' :: 'x' :: digits => ofHexDigits? digits
  | _ => none

/-- The bytes with the given hexadecimal digits, two for each. -/
def ofHexPairs? : List Char → Option (List UInt8)
  | [] => some []
  | [_] => none
  | high :: low :: rest => do
      let byte ← ofHexDigits? [high, low]
      let bytes ← ofHexPairs? rest
      return .ofNat byte :: bytes

end TypeReflection
