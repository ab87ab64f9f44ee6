import Chip8.Codec
import Chip8.Rom

/-!
# Memory

The address space has 4096 cells. Addresses are 16 bits wide and only the low **twelve** of them
select a cell, so an address beyond the last cell wraps around to the first ones instead of failing.

Every read and every write goes through `Memory.cell`, which is where the wrapping happens. The same
cells are also counted by addresses without bound, and `byteAt_write` says in terms of these what a
write changes.

At power-on memory holds the font, zeros, the program at `programStart`, and zeros after it.
-/

namespace Chip8

/-- The address space. -/
structure Memory where
  cells : Vector UInt8 memorySize
  deriving DecidableEq, Repr

namespace Memory

/-! ### Cells -/

/-- The cell that an address selects. -/
def cell (a : UInt16) : Fin memorySize :=
  ⟨a.toNat % memorySize, Nat.mod_lt _ (by decide)⟩

@[simp] theorem val_cell (a : UInt16) : (cell a).val = a.toNat % memorySize := rfl

/-- The byte at an address. -/
def read (m : Memory) (a : UInt16) : UInt8 :=
  m.cells[cell a]

/-- Put a byte at an address. -/
def write (m : Memory) (a : UInt16) (b : UInt8) : Memory where
  cells := m.cells.set (cell a) b

/-- Two addresses that select the same cell hold the same byte. -/
theorem read_congr (m : Memory) {a c : UInt16} (h : cell a = cell c) : m.read a = m.read c := by
  simp only [read, h]

/-- The byte at an address without bound, which wraps around as often as it has to. -/
def byteAt (m : Memory) (k : Nat) : UInt8 :=
  m.cells[(⟨k % memorySize, Nat.mod_lt _ (by decide)⟩ : Fin memorySize)]

theorem read_eq_byteAt (m : Memory) (a : UInt16) : m.read a = m.byteAt a.toNat := rfl

/-- Addresses of the same cell hold the same byte. -/
theorem byteAt_congr {m : Memory} {k l : Nat} (h : k % memorySize = l % memorySize) :
    m.byteAt k = m.byteAt l := by
  simp only [byteAt, h]

/-- **A write changes the cell its address selects and no other.** -/
theorem byteAt_write (m : Memory) (a : UInt16) (b : UInt8) (k : Nat) :
    (m.write a b).byteAt k =
      if a.toNat % memorySize = k % memorySize then b else m.byteAt k := by
  simp [byteAt, write, Vector.getElem_set]

/-- Wrapping at sixteen bits and then at twelve is wrapping at twelve. -/
theorem read_add_ofNat (m : Memory) (a : UInt16) (k : Nat) :
    m.read (a + UInt16.ofNat k) = m.byteAt (a.toNat + k) := by
  have hsize : (a + UInt16.ofNat k).toNat % memorySize = (a.toNat + k) % memorySize := by
    rw [memorySize, UInt16.toNat_add, UInt16.toNat_ofNat']
    omega
  simp only [read_eq_byteAt, byteAt, hsize]

/-! ### Words and blocks -/

/-- The word at an address: its high byte there and its low byte at the next address. -/
def readWord (m : Memory) (a : UInt16) : UInt16 :=
  (m.read a).toUInt16 <<< 8 ||| (m.read (a + 1)).toUInt16

theorem toNat_readWord (m : Memory) (a : UInt16) :
    (m.readWord a).toNat = 256 * (m.byteAt a.toNat).toNat + (m.byteAt (a.toNat + 1)).toNat := by
  have hhigh := (m.byteAt a.toNat).toNat_lt
  have hlow := (m.byteAt (a.toNat + 1)).toNat_lt
  have hnext : m.read (a + 1) = m.byteAt (a.toNat + 1) := m.read_add_ofNat a 1
  have hshift : ((m.byteAt a.toNat).toNat * 2 ^ 8) % 2 ^ 16 = (m.byteAt a.toNat).toNat * 2 ^ 8 :=
    Nat.mod_eq_of_lt (by omega)
  rw [readWord, read_eq_byteAt, hnext, UInt16.toNat_or, UInt16.toNat_shiftLeft,
    UInt8.toNat_toUInt16, UInt8.toNat_toUInt16, Nat.shiftLeft_eq]
  show (m.byteAt a.toNat).toNat * 2 ^ 8 % 2 ^ 16 ||| _ = _
  rw [hshift, ← Nat.shiftLeft_eq, ← Nat.shiftLeft_add_eq_or_of_lt hlow, Nat.shiftLeft_eq]
  omega

/-- The bytes at `n` successive addresses. -/
def readBlock (m : Memory) (a : UInt16) (n : Nat) : List UInt8 :=
  (List.range n).map fun k ↦ m.read (a + UInt16.ofNat k)

@[simp] theorem length_readBlock (m : Memory) (a : UInt16) (n : Nat) :
    (m.readBlock a n).length = n := by
  simp [readBlock]

theorem getElem_readBlock (m : Memory) (a : UInt16) {n k : Nat} (h : k < (m.readBlock a n).length) :
    (m.readBlock a n)[k] = m.read (a + UInt16.ofNat k) := by
  simp [readBlock]

/-- Put bytes at successive addresses, the first of them first. -/
def writeBlock (m : Memory) (a : UInt16) : List UInt8 → Memory
  | [] => m
  | b :: bs => (m.write a b).writeBlock (a + 1) bs

@[simp] theorem writeBlock_nil (m : Memory) (a : UInt16) : m.writeBlock a [] = m := rfl

@[simp] theorem writeBlock_cons (m : Memory) (a : UInt16) (b : UInt8) (bs : List UInt8) :
    m.writeBlock a (b :: bs) = (m.write a b).writeBlock (a + 1) bs := rfl

/-- Wrapping at sixteen bits on the way does not matter to the cell. -/
theorem toNat_add_one_add_mod (a : UInt16) (k : Nat) :
    ((a + 1).toNat + k) % memorySize = (a.toNat + (k + 1)) % memorySize := by
  rw [memorySize, UInt16.toNat_add, UInt16.toNat_one]
  omega

/-- Cells that none of the addresses selects stay as they were. -/
theorem byteAt_writeBlock_of_ne {m : Memory} {a : UInt16} {bs : List UInt8} {c : Nat}
    (h : ∀ k < bs.length, (a.toNat + k) % memorySize ≠ c % memorySize) :
    (m.writeBlock a bs).byteAt c = m.byteAt c := by
  induction bs generalizing m a with
  | nil => rfl
  | cons b bs ih =>
    have hrest : ∀ k < bs.length, ((a + 1).toNat + k) % memorySize ≠ c % memorySize := by
      intro k hk
      rw [toNat_add_one_add_mod]
      exact h (k + 1) (Nat.succ_lt_succ hk)
    have hfirst : a.toNat % memorySize ≠ c % memorySize := h 0 (Nat.succ_pos _)
    rw [writeBlock_cons, ih hrest, byteAt_write, if_neg hfirst]

/-- **As long as a block is not longer than memory, every byte of it arrives**: the addresses wrap
around and no cell is written twice. -/
theorem byteAt_writeBlock {m : Memory} {a : UInt16} {bs : List UInt8}
    (hlen : bs.length ≤ memorySize) {k : Nat} (hk : k < bs.length) :
    (m.writeBlock a bs).byteAt (a.toNat + k) = bs[k] := by
  induction bs generalizing m a k with
  | nil => exact absurd hk (Nat.not_lt_zero k)
  | cons b bs ih =>
    rw [List.length_cons] at hlen hk
    cases k with
    | zero =>
      -- the bytes after the first one do not come back to its cell
      have hrest : ∀ j < bs.length, ((a + 1).toNat + j) % memorySize ≠ a.toNat % memorySize := by
        intro j hj
        rw [toNat_add_one_add_mod]
        rw [memorySize] at hlen ⊢
        omega
      rw [writeBlock_cons, Nat.add_zero, byteAt_writeBlock_of_ne hrest, byteAt_write, if_pos rfl]
      rfl
    | succ k =>
      rw [writeBlock_cons, byteAt_congr (toNat_add_one_add_mod a k).symm,
        ih (Nat.le_of_succ_le hlen) (Nat.lt_of_succ_lt_succ hk)]
      rfl

/-! ### The font and the program -/

/-- The number of bytes in the picture of one digit. -/
def glyphSize : Nat := 5

/-- Pictures of the sixteen hexadecimal digits, four pixels wide, one byte for a row of pixels. -/
def font : Vector UInt8 (16 * glyphSize) := #v[
  0xF0, 0x90, 0x90, 0x90, 0xF0,
  0x20, 0x60, 0x20, 0x20, 0x70,
  0xF0, 0x10, 0xF0, 0x80, 0xF0,
  0xF0, 0x10, 0xF0, 0x10, 0xF0,
  0x90, 0x90, 0xF0, 0x10, 0x10,
  0xF0, 0x80, 0xF0, 0x10, 0xF0,
  0xF0, 0x80, 0xF0, 0x90, 0xF0,
  0xF0, 0x10, 0x20, 0x40, 0x40,
  0xF0, 0x90, 0xF0, 0x90, 0xF0,
  0xF0, 0x90, 0xF0, 0x10, 0xF0,
  0xF0, 0x90, 0xF0, 0x90, 0x90,
  0xE0, 0x90, 0xE0, 0x90, 0xE0,
  0xF0, 0x80, 0x80, 0x80, 0xF0,
  0xE0, 0x90, 0x90, 0x90, 0xE0,
  0xF0, 0x80, 0xF0, 0x80, 0xF0,
  0xF0, 0x80, 0xF0, 0x80, 0x80]

/-- The address of the picture of a digit. The high half of the byte does not count. -/
def glyphAddress (digit : UInt8) : UInt16 :=
  (digit &&& 0x0F).toUInt16 * 5

/-- Memory at power-on: the font from address zero and the program from `programStart`. -/
def ofRom (rom : Rom) : Memory where
  cells := Vector.ofFn fun a ↦
    if h : a.val < 16 * glyphSize then font[a.val]
    else if programStart ≤ a.val then rom.bytes.getD (a.val - programStart) 0
    else 0

theorem read_ofRom (rom : Rom) (a : UInt16) :
    (ofRom rom).read a =
      if h : (cell a).val < 16 * glyphSize then font[(cell a).val]
      else if programStart ≤ (cell a).val then rom.bytes.getD ((cell a).val - programStart) 0
      else 0 := by
  simp only [read, ofRom, Fin.getElem_fin, Vector.getElem_ofFn]

theorem read_ofRom_program (rom : Rom) {a : UInt16} (h : programStart ≤ (cell a).val) :
    (ofRom rom).read a = rom.bytes.getD ((cell a).val - programStart) 0 := by
  have hfont : ¬ (cell a).val < 16 * glyphSize := Nat.not_lt.2 (Nat.le_trans (by decide) h)
  rw [read_ofRom, dif_neg hfont, if_pos h]

/-- A word of the program at power-on, also where it goes beyond the end of the program. -/
theorem readWord_ofRom_program (rom : Rom) {a : UInt16} (h : programStart ≤ (cell a).val)
    (h' : programStart ≤ (cell (a + 1)).val) :
    (ofRom rom).readWord a =
      (rom.bytes.getD ((cell a).val - programStart) 0).toUInt16 <<< 8 |||
        (rom.bytes.getD ((cell (a + 1)).val - programStart) 0).toUInt16 := by
  rw [readWord, read_ofRom_program rom h, read_ofRom_program rom h']

/-! ### Written form -/

/-- Memory is written cell by cell. -/
def codec : Codec Memory memorySize :=
  (Codec.bytes memorySize).via cells mk (fun _ ↦ rfl) fun _ ↦ rfl

end Memory

end Chip8
