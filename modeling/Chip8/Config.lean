/-!
# Configuration of a machine

What is chosen before a machine is switched on and never changes afterwards: how fast it runs, how
it reads the two kinds of instruction on which interpreters disagree, and where its random numbers
start.

A machine is driven sixty frames a second, and a frame is a fixed number of instructions.
`Config.stepsPerFrame_pos` is the fact that a frame is **never empty**, whatever the clock rate:
without it a halted machine could finish a frame.
-/

namespace Chip8

/-! ### Dialects -/

/-- How an interpreter reads the instructions whose meaning changed over time. -/
structure Dialect where
  /-- `8XY6` and `8XYE` shift `VY` into `VX`; otherwise they shift `VX` in place. -/
  shiftReadsY : Bool := false
  /-- `FX55` and `FX65` leave `I` behind the last byte; otherwise they leave `I` alone. -/
  transferMovesIndex : Bool := false
  deriving DecidableEq, Repr

/-- The interpreter of the COSMAC VIP. -/
def Dialect.cosmacVip : Dialect where
  shiftReadsY := true
  transferMovesIndex := true

/-! ### Configurations -/

/-- The choices made before a machine is switched on. -/
structure Config where
  /-- Instructions in a second. -/
  clockRate : UInt32 := 600
  dialect : Dialect := {}
  /-- Where the random stream starts. Without a seed it starts anywhere. -/
  seed : Option UInt64 := none
  deriving DecidableEq, Repr

/-- Frames, and ticks of the timers, in a second. -/
def frameRate : Nat := 60

/-- The number of instructions in a frame: the clock rate over the frame rate, and one if the clock
is slower than the frames. -/
def Config.stepsPerFrame (c : Config) : Nat :=
  max 1 (c.clockRate.toNat / frameRate)

/-- **A frame is never empty.** -/
theorem Config.stepsPerFrame_pos (c : Config) : 0 < c.stepsPerFrame :=
  Nat.lt_of_lt_of_le Nat.zero_lt_one (Nat.le_max_left _ _)

end Chip8
