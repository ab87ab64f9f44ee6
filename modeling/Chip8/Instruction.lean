import Chip8.Arithmetic
import Chip8.Registers

/-!
# Instructions

An instruction is a 16-bit word. Its four digits in base sixteen are an operation and its operands:
`X` and `Y` stand for registers, `N` for a digit, `NN` for a byte and `NNN` for an address of twelve
bits.

`Instruction.decode` is total and leaves nothing open: a word either is the form of exactly one
instruction or is none, which includes the machine code calls `0NNN`.
-/

namespace Chip8

/-- An instruction with its operands. -/
inductive Instruction where
  /-- `00E0`: make the screen dark. -/
  | clearScreen
  /-- `00EE`: go back to where the last call came from. -/
  | ret
  /-- `1NNN`: go to an address. -/
  | jump (target : BitVec 12)
  /-- `2NNN`: go to an address, and remember where to come back to. -/
  | call (target : BitVec 12)
  /-- `3XNN`: skip the next instruction if `VX` is `NN`. -/
  | skipIfImmediate (x : Register) (value : UInt8)
  /-- `4XNN`: skip the next instruction if `VX` is not `NN`. -/
  | skipUnlessImmediate (x : Register) (value : UInt8)
  /-- `5XY0`: skip the next instruction if `VX` is `VY`. -/
  | skipIfEqual (x y : Register)
  /-- `6XNN`: put `NN` into `VX`. -/
  | loadImmediate (x : Register) (value : UInt8)
  /-- `7XNN`: add `NN` to `VX`, without a flag. -/
  | addImmediate (x : Register) (value : UInt8)
  /-- `8XY0` to `8XY5` and `8XY7`: combine `VX` with `VY`. -/
  | arithmetic (operation : Arithmetic) (x y : Register)
  /-- `8XY6`, `8XYE`: shift by one bit. -/
  | shift (direction : Direction) (x y : Register)
  /-- `9XY0`: skip the next instruction if `VX` is not `VY`. -/
  | skipUnlessEqual (x y : Register)
  /-- `ANNN`: put an address into `I`. -/
  | loadIndex (target : BitVec 12)
  /-- `BNNN`: go to an address with `V0` added to it. -/
  | jumpOffset (target : BitVec 12)
  /-- `CXNN`: put a random byte into `VX`, with only the bits of `NN`. -/
  | random (x : Register) (mask : UInt8)
  /-- `DXYN`: draw the sprite of `N` rows at `I`, in column `VX` and row `VY`. -/
  | draw (x y : Register) (rows : Fin 16)
  /-- `EX9E`: skip the next instruction if key `VX` is down. -/
  | skipIfKey (x : Register)
  /-- `EXA1`: skip the next instruction if key `VX` is up. -/
  | skipUnlessKey (x : Register)
  /-- `FX07`: put the delay timer into `VX`. -/
  | readDelay (x : Register)
  /-- `FX0A`: wait for a key, and put its number into `VX`. -/
  | waitForKey (x : Register)
  /-- `FX15`: set the delay timer to `VX`. -/
  | setDelay (x : Register)
  /-- `FX18`: set the sound timer to `VX`. -/
  | setSound (x : Register)
  /-- `FX1E`: add `VX` to `I`. -/
  | addIndex (x : Register)
  /-- `FX29`: put the address of the picture of the digit in `VX` into `I`. -/
  | loadGlyph (x : Register)
  /-- `FX33`: write the three decimal digits of `VX` to memory. -/
  | storeDecimal (x : Register)
  /-- `FX55`: write `V0` to `VX` to memory. -/
  | storeRegisters (x : Register)
  /-- `FX65`: read `V0` to `VX` from memory. -/
  | loadRegisters (x : Register)
  deriving DecidableEq, Repr

namespace Instruction

/-! ### Digits of a word -/

/-- The digit of a word in base sixteen at a place, which is a power of sixteen. -/
def digit (word : UInt16) (place : Nat) : Fin 16 :=
  ⟨word.toNat / place % 16, Nat.mod_lt _ (by decide)⟩

/-- The low byte of a word, `NN`. -/
def lowByte (word : UInt16) : UInt8 :=
  word.toUInt8

/-- The low twelve bits of a word, `NNN`. -/
def lowAddress (word : UInt16) : BitVec 12 :=
  word.toBitVec.setWidth 12

/-! ### Decoding -/

/-- The operation of `8XYN`, by its last digit. -/
def decodeArithmetic (x y : Register) : Fin 16 → Option Instruction
  | 0x0 => some (arithmetic .copy x y)
  | 0x1 => some (arithmetic .or x y)
  | 0x2 => some (arithmetic .and x y)
  | 0x3 => some (arithmetic .xor x y)
  | 0x4 => some (arithmetic .add x y)
  | 0x5 => some (arithmetic .subtract x y)
  | 0x6 => some (shift .right x y)
  | 0x7 => some (arithmetic .subtractFrom x y)
  | 0xE => some (shift .left x y)
  | _ => none

/-- The operation of `EXNN`, by its low byte. -/
def decodeKey (x : Register) : UInt8 → Option Instruction
  | 0x9E => some (skipIfKey x)
  | 0xA1 => some (skipUnlessKey x)
  | _ => none

/-- The operation of `FXNN`, by its low byte. -/
def decodeMiscellaneous (x : Register) : UInt8 → Option Instruction
  | 0x07 => some (readDelay x)
  | 0x0A => some (waitForKey x)
  | 0x15 => some (setDelay x)
  | 0x18 => some (setSound x)
  | 0x1E => some (addIndex x)
  | 0x29 => some (loadGlyph x)
  | 0x33 => some (storeDecimal x)
  | 0x55 => some (storeRegisters x)
  | 0x65 => some (loadRegisters x)
  | _ => none

/-- The instruction that a word is the form of. -/
def decode (word : UInt16) : Option Instruction :=
  let x := digit word 0x100
  let y := digit word 0x10
  let n := digit word 1
  let nn := lowByte word
  let nnn := lowAddress word
  match digit word 0x1000 with
  | 0x0 =>
    if word = 0x00E0 then some clearScreen
    else if word = 0x00EE then some ret
    else none
  | 0x1 => some (jump nnn)
  | 0x2 => some (call nnn)
  | 0x3 => some (skipIfImmediate x nn)
  | 0x4 => some (skipUnlessImmediate x nn)
  | 0x5 => if n.val = 0 then some (skipIfEqual x y) else none
  | 0x6 => some (loadImmediate x nn)
  | 0x7 => some (addImmediate x nn)
  | 0x8 => decodeArithmetic x y n
  | 0x9 => if n.val = 0 then some (skipUnlessEqual x y) else none
  | 0xA => some (loadIndex nnn)
  | 0xB => some (jumpOffset nnn)
  | 0xC => some (random x nn)
  | 0xD => some (draw x y n)
  | 0xE => decodeKey x nn
  | _ => decodeMiscellaneous x nn -- the digit left is `F`

end Instruction

end Chip8
