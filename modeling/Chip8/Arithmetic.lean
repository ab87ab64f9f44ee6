/-!
# Arithmetic on registers

What the instructions `8XYN` compute from the values `a` of `VX` and `b` of `VY`: a result and, for
some of them, a flag. Results wrap at eight bits. The flag of a sum is the carry and the flag of a
difference is set if there is **no** borrow; `toNat_result_add` and its neighbours say that result
and flag together are the exact sum or difference.
-/

namespace Chip8

/-- What `8XYN` does with `VX` and `VY`. -/
inductive Arithmetic where
  /-- `8XY0` -/
  | copy
  /-- `8XY1` -/
  | or
  /-- `8XY2` -/
  | and
  /-- `8XY3` -/
  | xor
  /-- `8XY4`: the flag is the carry. -/
  | add
  /-- `8XY5`: `VX - VY`, and the flag is set if there is no borrow. -/
  | subtract
  /-- `8XY7`: `VY - VX`, and the flag is set if there is no borrow. -/
  | subtractFrom
  deriving DecidableEq, Repr

/-- Where the bits of a register are shifted. -/
inductive Direction where
  /-- `8XY6`: down by one, and the flag is the lowest bit. -/
  | right
  /-- `8XYE`: up by one, and the flag is the highest bit. -/
  | left
  deriving DecidableEq, Repr

namespace Arithmetic

/-- What goes to `VX`. -/
def result (operation : Arithmetic) (a b : UInt8) : UInt8 :=
  match operation with
  | copy => b
  | or => a ||| b
  | and => a &&& b
  | xor => a ^^^ b
  | add => a + b
  | subtract => a - b
  | subtractFrom => b - a

/-- What goes to the flag, if anything does. -/
def flag? (operation : Arithmetic) (a b : UInt8) : Option Bool :=
  match operation with
  | copy | or | and | xor => none
  | add => some (256 ≤ a.toNat + b.toNat)
  | subtract => some (b ≤ a)
  | subtractFrom => some (a ≤ b)

theorem toNat_result_add (a b : UInt8) :
    (result add a b).toNat + (if 256 ≤ a.toNat + b.toNat then 256 else 0) = a.toNat + b.toNat := by
  have ha := a.toNat_lt
  have hb := b.toNat_lt
  rw [result, UInt8.toNat_add]
  split <;> omega

theorem toNat_result_subtract (a b : UInt8) :
    (result subtract a b).toNat + b.toNat = a.toNat + (if b ≤ a then 0 else 256) := by
  have ha := a.toNat_lt
  have hb := b.toNat_lt
  simp only [result, UInt8.toNat_sub, UInt8.le_iff_toNat_le]
  split <;> omega

theorem result_subtractFrom (a b : UInt8) : result subtractFrom a b = result subtract b a := rfl

end Arithmetic

namespace Direction

/-- What goes to `VX`. -/
def result (direction : Direction) (b : UInt8) : UInt8 :=
  match direction with
  | right => b >>> 1
  | left => b <<< 1

/-- The bit that is shifted out, which goes to the flag. -/
def flag (direction : Direction) (b : UInt8) : Bool :=
  match direction with
  | right => b.toNat % 2 = 1
  | left => 128 ≤ b.toNat

end Direction

end Chip8
