import Chip8.Fault

/-!
# Log records

What a machine reports about its work, as data. `Record.line` is how a record is written: its level
and its text.
-/

namespace Chip8

/-- How much a record matters. -/
inductive Level where
  | trace
  | debug
  | info
  | warn
  deriving DecidableEq, Repr

/-- The name of a level. -/
def Level.name : Level → String
  | trace => "TRACE"
  | debug => "DEBUG"
  | info => "INFO"
  | warn => "WARN"

/-- One thing that a machine reports. -/
inductive Record where
  /-- The word at the address is about to be executed. -/
  | fetched (address opcode : UInt16)
  /-- The machine has just run into a fault. -/
  | halting (fault : Fault)
  /-- The machine has started to wait for a key at the address. -/
  | waiting (address : UInt16)
  /-- A program of this size was loaded. -/
  | loaded (size : Nat)
  /-- The machine was switched off and on again. -/
  | reset
  /-- A snapshot was restored, and the program counter is this address now. -/
  | restored (pc : UInt16)
  deriving DecidableEq, Repr

namespace Record

/-- How much a record matters. -/
def level : Record → Level
  | fetched _ _ => .trace
  | halting _ => .warn
  | waiting _ => .debug
  | loaded _ => .info
  | reset => .info
  | restored _ => .debug

/-- The text of a record. -/
def text : Record → String
  | fetched a w => s!"{Hexadecimal.address a}: {Hexadecimal.opcode w}"
  | halting f => s!"halting: {f.message}"
  | waiting a => s!"{Hexadecimal.address a}: waiting for a key"
  | loaded n => s!"loaded {n} byte ROM"
  | reset => "reset"
  | restored pc => s!"restored snapshot, pc = {Hexadecimal.address pc}"

/-- A record as it is written. -/
def line (r : Record) : String :=
  s!"{r.level.name} {r.text}"

end Record

end Chip8
