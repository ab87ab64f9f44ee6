import Chip8.Hexadecimal

/-!
# Faults

The three reasons why a machine cannot execute an instruction. Each carries the address of the
instruction, and the first also the word that stands there.
-/

namespace Chip8

/-- Why an instruction cannot be executed. -/
inductive Fault where
  /-- The word at the address is no instruction. -/
  | invalidOpcode (opcode address : UInt16)
  /-- The call at the address finds no free slot. -/
  | stackOverflow (address : UInt16)
  /-- The return at the address finds no return address. -/
  | stackUnderflow (address : UInt16)
  deriving DecidableEq, Repr

namespace Fault

/-- An address or opcode as it stands in messages. -/
def hex (numeral : String) : String :=
  "0x" ++ numeral

/-- The text of a fault. -/
def message : Fault → String
  | invalidOpcode w a =>
    s!"invalid opcode {hex (Hexadecimal.opcode w)} at {hex (Hexadecimal.address a)}"
  | stackOverflow a =>
    s!"stack overflow: call at {hex (Hexadecimal.address a)} with all 16 return slots in use"
  | stackUnderflow a =>
    s!"stack underflow: return at {hex (Hexadecimal.address a)} with an empty call stack"

end Fault

end Chip8
