/-!
# Program images

A `Rom` is a program that **fits**: the bound on its size is part of the type, so a machine that
holds one can always load it again. `Rom.ofBytes` is the only place where the bound is checked.
-/

namespace Chip8

/-- The number of bytes in the address space. -/
def memorySize : Nat := 4096

/-- The address of a program's first byte. -/
def programStart : Nat := 0x200

/-- The number of bytes between `programStart` and the end of memory. -/
def maxRomSize : Nat := memorySize - programStart

/-- A program that fits between `programStart` and the end of memory. -/
structure Rom where
  bytes : Array UInt8
  size_le : bytes.size ≤ maxRomSize
  deriving DecidableEq, Repr

/-- A program was refused because it has this many bytes. -/
structure OversizedRom where
  size : Nat
  deriving DecidableEq, Repr

/-- The text of a refusal. -/
def OversizedRom.message (e : OversizedRom) : String :=
  s!"ROM is too large ({e.size} bytes), max size is {maxRomSize} bytes"

namespace Rom

/-- The program without a byte, which a machine holds before it is given another. -/
def empty : Rom where
  bytes := #[]
  size_le := Nat.zero_le _

/-- The program with these bytes, if it fits. -/
def ofBytes (bytes : Array UInt8) : Except OversizedRom Rom :=
  if h : bytes.size ≤ maxRomSize then .ok ⟨bytes, h⟩ else .error ⟨bytes.size⟩

theorem ofBytes_eq_ok_iff {bytes : Array UInt8} {rom : Rom} :
    ofBytes bytes = .ok rom ↔ rom.bytes = bytes := by
  obtain ⟨b, hb⟩ := rom
  unfold ofBytes
  split
  · simp [eq_comm]
  · simp only [reduceCtorEq, false_iff]
    rintro rfl
    contradiction

theorem ofBytes_eq_error_iff {bytes : Array UInt8} {e : OversizedRom} :
    ofBytes bytes = .error e ↔ maxRomSize < bytes.size ∧ e = ⟨bytes.size⟩ := by
  unfold ofBytes
  split
  · simp only [reduceCtorEq, false_iff]
    omega
  · simp only [Except.error.injEq]
    constructor
    · rintro rfl
      exact ⟨by omega, rfl⟩
    · rintro ⟨-, rfl⟩
      rfl

end Rom

end Chip8
