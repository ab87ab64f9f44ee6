import Chip8.Codec

/-!
# Registers

The sixteen registers `V0` to `VF`. `VF` is also the flag: several instructions write it after their
result, so the flag is what stays if the result was to go to `VF` too.
-/

namespace Chip8

/-- A register, by its number. -/
abbrev Register := Fin 16

/-- The register whose value `BNNN` adds to its address. -/
abbrev V0 : Register := 0x0

/-- The register that is the flag. -/
abbrev VF : Register := 0xF

/-- The values of `V0` to `VF`. -/
structure Registers where
  values : Vector UInt8 16
  deriving DecidableEq, Repr

namespace Registers

/-- Every register holds zero. -/
def zero : Registers where
  values := Vector.replicate 16 0

/-- The value of a register. -/
def get (r : Registers) (x : Register) : UInt8 :=
  r.values[x]

/-- Give a register a value. -/
def set (r : Registers) (x : Register) (b : UInt8) : Registers where
  values := r.values.set x b

/-- Write the flag: one if the condition holds, and zero if not. -/
def setFlag (r : Registers) (condition : Bool) : Registers :=
  r.set VF (if condition then 1 else 0)

/-- The values of `V0` up to and including a register. -/
def upTo (r : Registers) (x : Register) : List UInt8 :=
  r.values.toList.take (x.val + 1)

/-- Give `V0` and the registers after it the values of a list. Values beyond `VF` are dropped. -/
def setFrom (r : Registers) (bs : List UInt8) : Registers where
  values := Vector.ofFn fun x ↦ bs.getD x.val (r.get x)

@[ext] theorem ext {r s : Registers} (h : ∀ x, r.get x = s.get x) : r = s := by
  obtain ⟨r⟩ := r
  obtain ⟨s⟩ := s
  congr 1
  exact Vector.ext fun x hx ↦ h ⟨x, hx⟩

@[simp] theorem get_zero (x : Register) : zero.get x = 0 := by
  simp [get, zero]

theorem get_set (r : Registers) (x y : Register) (b : UInt8) :
    (r.set x b).get y = if x = y then b else r.get y := by
  simp [get, set, Vector.getElem_set, Fin.ext_iff]

@[simp] theorem get_setFrom (r : Registers) (bs : List UInt8) (x : Register) :
    (r.setFrom bs).get x = bs.getD x.val (r.get x) := by
  simp [get, setFrom]

@[simp] theorem length_upTo (r : Registers) (x : Register) : (r.upTo x).length = x.val + 1 := by
  rw [upTo, List.length_take, Vector.length_toList]
  exact Nat.min_eq_left x.isLt

theorem getElem_upTo (r : Registers) {x k : Register} (h : k.val < (r.upTo x).length) :
    (r.upTo x)[k.val] = r.get k := by
  simp [upTo, get]

/-- The registers are written in order. -/
def codec : Codec Registers 16 :=
  (Codec.bytes 16).via values mk (fun _ ↦ rfl) fun _ ↦ rfl

end Registers

end Chip8
