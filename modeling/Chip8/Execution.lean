import Chip8.Config
import Chip8.Fault
import Chip8.Instruction
import Chip8.State

/-!
# Execution

`State.execute` fetches a word, decodes it and performs the instruction. There are four outcomes:
the machine **advances** to another state, it advances because its wait for a key is **answered**,
it **stalls** because it waits for a key and none is down, or it **faults**. The two last ones do
not carry a state: a step that does not advance cannot have changed anything.

Operands are read from the state before the instruction, and a flag is written after the result.
-/

namespace Chip8

/-- What executing an instruction leads to. -/
inductive Effect where
  /-- The machine is in another state. -/
  | advanced (s : State)
  /-- The machine waited for a key, one is down, and the machine is in another state. -/
  | answered (s : State)
  /-- The machine waits for a key, and nothing has changed. -/
  | stalled
  /-- The instruction cannot be executed, and nothing has changed. -/
  | faulted (f : Fault)
  deriving DecidableEq, Repr

namespace State

/-- An address in an instruction, as wide as the registers that hold addresses. -/
def widen (target : BitVec 12) : UInt16 :=
  UInt16.ofBitVec (target.setWidth 16)

/-- Combine `VX` and `VY`. -/
def combine (s : State) (operation : Arithmetic) (x y : Register) : State :=
  let t := s.setV x (operation.result (s.v x) (s.v y))
  match operation.flag? (s.v x) (s.v y) with
  | some flag => t.setFlag flag
  | none => t

/-- Combining changes registers and nothing else. -/
theorem combine_eq (s : State) (operation : Arithmetic) (x y : Register) :
    s.combine operation x y =
      { s with registers := (s.combine operation x y).registers } := by
  rw [combine]
  split <;> rfl

/-- Shift a register into `VX`. -/
def shift (s : State) (direction : Direction) (x source : Register) : State :=
  (s.setV x (direction.result (s.v source))).setFlag (direction.flag (s.v source))

/-- Put a random byte into `VX`, with only the bits of a mask. -/
def drawRandom (s : State) (x : Register) (mask : UInt8) : State :=
  let drawn := chaCha8.draw s.random
  { s.setV x (drawn.1 &&& mask) with random := drawn.2 }

/-- Draw the sprite of `rows` rows at `I`, and set the flag if it hits a lit pixel. -/
def drawSprite (s : State) (x y : Register) (rows : Nat) : State :=
  let mask := Screen.mask (s.v x) (s.v y) (s.memory.readBlock s.index rows)
  { s.setFlag (s.screen.overlaps mask) with screen := s.screen.flip mask }

/-- The decimal digits of a byte, the hundreds first. -/
def decimalDigits (b : UInt8) : List UInt8 :=
  [b / 100, b / 10 % 10, b % 10]

/-- Move `I` behind the bytes of `V0` to `VX`, in the dialects that do so. -/
def passIndex (s : State) (d : Dialect) (x : Register) : State :=
  if d.transferMovesIndex then { s with index := s.index + UInt16.ofNat (x.val + 1) } else s

/-- Moving `I` changes nothing else. -/
theorem passIndex_eq (s : State) (d : Dialect) (x : Register) :
    s.passIndex d x = { s with index := (s.passIndex d x).index } := by
  rw [passIndex]
  split <;> rfl

/-- Perform an instruction. -/
def perform (d : Dialect) (s : State) : Instruction → Effect
  | .clearScreen => .advanced { s with screen := Screen.blank }.advance
  | .ret =>
    match s.stack.pop? with
    | some (target, stack) => .advanced { s with stack := stack, pc := target }
    | none => .faulted (.stackUnderflow s.pc)
  | .jump target => .advanced { s with pc := widen target }
  | .call target =>
    match s.stack.push? (s.pc + 2) with
    | some stack => .advanced { s with stack := stack, pc := widen target }
    | none => .faulted (.stackOverflow s.pc)
  | .skipIfImmediate x value => .advanced (s.skipWhen (s.v x == value))
  | .skipUnlessImmediate x value => .advanced (s.skipWhen (s.v x != value))
  | .skipIfEqual x y => .advanced (s.skipWhen (s.v x == s.v y))
  | .loadImmediate x value => .advanced (s.setV x value).advance
  | .addImmediate x value => .advanced (s.setV x (s.v x + value)).advance
  | .arithmetic operation x y => .advanced (s.combine operation x y).advance
  | .shift direction x y =>
    .advanced (s.shift direction x (if d.shiftReadsY then y else x)).advance
  | .skipUnlessEqual x y => .advanced (s.skipWhen (s.v x != s.v y))
  | .loadIndex target => .advanced { s with index := widen target }.advance
  | .jumpOffset target => .advanced { s with pc := widen target + (s.v V0).toUInt16 }
  | .random x mask => .advanced (s.drawRandom x mask).advance
  | .draw x y rows => .advanced (s.drawSprite x y rows).advance
  | .skipIfKey x => .advanced (s.skipWhen (s.keypad.isDown (s.v x)))
  | .skipUnlessKey x => .advanced (s.skipWhen (!s.keypad.isDown (s.v x)))
  | .readDelay x => .advanced (s.setV x s.timers.delay).advance
  | .waitForKey x =>
    match s.keypad.firstDown? with
    | some key => .answered (s.setV x key).advance
    | none => .stalled
  | .setDelay x => .advanced { s with timers := { s.timers with delay := s.v x } }.advance
  | .setSound x => .advanced { s with timers := { s.timers with sound := s.v x } }.advance
  | .addIndex x => .advanced { s with index := s.index + (s.v x).toUInt16 }.advance
  | .loadGlyph x => .advanced { s with index := Memory.glyphAddress (s.v x) }.advance
  | .storeDecimal x =>
    .advanced { s with memory := s.memory.writeBlock s.index (decimalDigits (s.v x)) }.advance
  | .storeRegisters x =>
    let memory := s.memory.writeBlock s.index (s.registers.upTo x)
    .advanced ({ s with memory := memory }.passIndex d x).advance
  | .loadRegisters x =>
    let registers := s.registers.setFrom (s.memory.readBlock s.index (x.val + 1))
    .advanced ({ s with registers := registers }.passIndex d x).advance

/-- Execute the word at the program counter. -/
def execute (d : Dialect) (s : State) : Effect :=
  match Instruction.decode s.fetch with
  | some instruction => s.perform d instruction
  | none => .faulted (.invalidOpcode s.fetch s.pc)

end State

end Chip8
