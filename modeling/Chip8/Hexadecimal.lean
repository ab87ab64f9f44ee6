/-!
# Hexadecimal numerals

Addresses and opcodes are written in lower-case hexadecimal, padded with zeros to a least width. A
number that needs more digits than that gets them, so nothing is ever cut off.
-/

namespace Chip8

namespace Hexadecimal

/-- The hexadecimal digits of `n`, with zeros in front up to `width` digits. -/
def digits (width n : Nat) : List Char :=
  let shortest := Nat.toDigits 16 n
  List.replicate (width - shortest.length) '0' ++ shortest

/-- A numeral of at least `width` digits. -/
def numeral (width n : Nat) : String :=
  String.ofList (digits width n)

/-- An address has at least three digits, as many as the twelve bits in use need. -/
def address (a : UInt16) : String :=
  numeral 3 a.toNat

/-- An opcode has four digits. -/
def opcode (w : UInt16) : String :=
  numeral 4 w.toNat

end Hexadecimal

end Chip8
