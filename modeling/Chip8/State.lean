import Chip8.CallStack
import Chip8.Keypad
import Chip8.Memory
import Chip8.RandomStream
import Chip8.Registers
import Chip8.Screen
import Chip8.Timers

/-!
# The state of a machine

Everything that a program can read or change, and nothing else: two machines in the same state and
of the same dialect behave alike from then on. Whether a machine is halted is not part of the
state, because a halted machine stands on the instruction that it cannot execute.
-/

namespace Chip8

/-- Everything that a program can read or change. -/
structure State where
  memory : Memory
  registers : Registers
  /-- `I`, the address that instructions on memory use. -/
  index : UInt16
  /-- The address of the next instruction. -/
  pc : UInt16
  stack : CallStack
  timers : Timers
  screen : Screen
  keypad : Keypad
  random : RandomStream
  deriving DecidableEq, Repr

namespace State

/-- The state in which a program starts. -/
def powerOn (rom : Rom) (seed : UInt64) : State where
  memory := Memory.ofRom rom
  registers := Registers.zero
  index := 0
  pc := UInt16.ofNat programStart
  stack := CallStack.empty
  timers := {}
  screen := Screen.blank
  keypad := Keypad.released
  random := chaCha8.ofSeed seed

/-- The word that is executed next. -/
def fetch (s : State) : UInt16 :=
  s.memory.readWord s.pc

/-- The word that is executed first is the first word of the program. -/
theorem fetch_powerOn (rom : Rom) (seed : UInt64) :
    (powerOn rom seed).fetch =
      (rom.bytes.getD 0 0).toUInt16 <<< 8 ||| (rom.bytes.getD 1 0).toUInt16 := by
  have hword : (Memory.ofRom rom).readWord (UInt16.ofNat programStart) = _ :=
    Memory.readWord_ofRom_program rom (by decide) (by decide)
  exact hword

/-- The value of a register. -/
def v (s : State) (x : Register) : UInt8 :=
  s.registers.get x

/-- Give a register a value. -/
def setV (s : State) (x : Register) (b : UInt8) : State :=
  { s with registers := s.registers.set x b }

/-- Write the flag. -/
def setFlag (s : State) (condition : Bool) : State :=
  { s with registers := s.registers.setFlag condition }

/-- Go to the next instruction. -/
def advance (s : State) : State :=
  { s with pc := s.pc + 2 }

/-- Go to the next instruction, or to the one after it if the condition holds. -/
def skipWhen (s : State) (condition : Bool) : State :=
  if condition then s.advance.advance else s.advance

/-- Skipping moves the program counter and nothing else. -/
theorem skipWhen_eq (s : State) (condition : Bool) :
    s.skipWhen condition = { s with pc := s.pc + if condition then 4 else 2 } := by
  cases condition with
  | false => rfl
  | true =>
    show { s with pc := s.pc + 2 + 2 } = { s with pc := s.pc + 4 }
    rw [UInt16.add_assoc]
    rfl

/-- Both timers go down by one. -/
def tick (s : State) : State :=
  { s with timers := s.timers.tick }

end State

end Chip8
