import Chip8.Codec

/-!
# The screen

The screen has 64 columns and 32 rows of pixels that are lit or dark. A row is a 64-bit word whose
bit `x` is the pixel in column `x`, so operations on whole rows are operations on words.

Drawing is **exclusive or with a mask**. `Screen.mask` is the screen on which exactly the pixels of
a sprite are lit; it wraps around both edges, so a sprite has the same number of pixels wherever it
is drawn. `Screen.flip` inverts the pixels of a mask and `Screen.overlaps` tells whether one of
them was lit before. `lit_mask`, `lit_flip` and `overlaps_iff` describe them pixel by pixel.
-/

namespace Chip8

/-- A screen of lit and dark pixels. -/
structure Screen where
  rows : Vector (BitVec 64) 32
  deriving DecidableEq, Repr

namespace Screen

/-- Columns of the screen. -/
def width : Nat := 64

/-- Rows of the screen. -/
def height : Nat := 32

/-! ### Pixels -/

/-- Whether the pixel in column `x` and row `y` is lit. -/
def lit (s : Screen) (x : Fin 64) (y : Fin 32) : Bool :=
  s.rows[y].getLsbD x

@[ext] theorem ext {s t : Screen} (h : ∀ x y, s.lit x y = t.lit x y) : s = t := by
  obtain ⟨s⟩ := s
  obtain ⟨t⟩ := t
  congr 1
  ext y hy x hx
  have hxy := h ⟨x, hx⟩ ⟨y, hy⟩
  rwa [lit, lit, BitVec.getLsbD_eq_getElem hx, BitVec.getLsbD_eq_getElem hx] at hxy

/-- The screen with every pixel dark. -/
def blank : Screen where
  rows := Vector.replicate 32 0

@[simp] theorem lit_blank (x : Fin 64) (y : Fin 32) : blank.lit x y = false := by
  simp [lit, blank]

/-! ### Sprites -/

/-- A row with the eight pixels of a sprite's byte lit, the most significant one in column `x` and
the others to its right, around the edge where they have to. -/
def spriteRow (x b : UInt8) : BitVec 64 :=
  (b.toBitVec.reverse.setWidth 64).rotateLeft x.toNat

/-- The screen on which exactly the pixels of a sprite at `(x, y)` are lit. -/
def mask (x y : UInt8) (sprite : List UInt8) : Screen where
  rows := Vector.ofFn fun row ↦
    match sprite[(row.val + (32 - y.toNat % 32)) % 32]? with
    | some b => spriteRow x b
    | none => 0

/-- Invert the pixels that are lit in a mask. -/
def flip (s m : Screen) : Screen where
  rows := Vector.zipWith (· ^^^ ·) s.rows m.rows

/-- Whether some pixel is lit on both screens. -/
def overlaps (s m : Screen) : Bool :=
  (Vector.zipWith (· &&& ·) s.rows m.rows).any (· != 0)

@[simp] theorem lit_flip (s m : Screen) (x : Fin 64) (y : Fin 32) :
    (s.flip m).lit x y = (s.lit x y ^^ m.lit x y) := by
  simp [lit, flip]

/-- **Screens overlap exactly where a pixel is lit on both.** -/
theorem overlaps_iff (s m : Screen) :
    s.overlaps m = true ↔ ∃ x y, s.lit x y = true ∧ m.lit x y = true := by
  simp only [overlaps, Vector.any_iff_exists, bne_iff_ne, Vector.getElem_zipWith]
  constructor
  · rintro ⟨y, hy, h⟩
    have ⟨x, hx⟩ : ∃ x : Nat, (s.rows[y] &&& m.rows[y]).getLsbD x = true := by
      refine Classical.byContradiction fun hno ↦ h (BitVec.eq_of_getLsbD_eq fun i _ ↦ ?_)
      show _ = (0#64).getLsbD i
      rw [BitVec.getLsbD_zero]
      exact Bool.eq_false_iff.2 fun hi ↦ hno ⟨i, hi⟩
    have hlt : x < 64 := BitVec.lt_of_getLsbD hx
    rw [BitVec.getLsbD_and, Bool.and_eq_true] at hx
    exact ⟨⟨x, hlt⟩, ⟨y, hy⟩, hx⟩
  · rintro ⟨x, y, hs, hm⟩
    refine ⟨y, y.isLt, fun h ↦ ?_⟩
    have hx := congrArg (BitVec.getLsbD · x) h
    rw [lit, Fin.getElem_fin] at hs hm
    simp [BitVec.getLsbD_and, hs, hm, -BitVec.getLsbD_eq_getElem] at hx

/-- Column `p` of a sprite's row is the bit of its byte that lies as far right of the first one as
`p` lies right of column `x`; beyond the eighth bit there is none. -/
theorem getLsbD_spriteRow (x b : UInt8) (p : Fin 64) :
    (spriteRow x b).getLsbD p = b.toBitVec.getMsbD ((p.val + (64 - x.toNat % 64)) % 64) := by
  have hx : x.toNat % 64 < 64 := Nat.mod_lt _ (by decide)
  have hp : (p.val + (64 - x.toNat % 64)) % 64 =
      if p.val < x.toNat % 64 then 64 - x.toNat % 64 + p.val else p.val - x.toNat % 64 := by
    split <;> omega
  rw [spriteRow, BitVec.getLsbD_rotateLeft, hp]
  by_cases h : p.val < x.toNat % 64
  · have h' : 64 - x.toNat % 64 + p.val < 64 := by omega
    simp [h, BitVec.getLsbD_setWidth, h', BitVec.getLsbD_reverse]
  · have h' : p.val - x.toNat % 64 < 64 := by omega
    simp [h, BitVec.getLsbD_setWidth, h', BitVec.getLsbD_reverse]

/-- **A mask pixel by pixel**: the row says which byte of the sprite counts, and the column which
bit of it. -/
theorem lit_mask (x y : UInt8) (sprite : List UInt8) (p : Fin 64) (q : Fin 32) :
    (mask x y sprite).lit p q =
      match sprite[(q.val + (32 - y.toNat % 32)) % 32]? with
      | some b => b.toBitVec.getMsbD ((p.val + (64 - x.toNat % 64)) % 64)
      | none => false := by
  simp only [lit, mask, Fin.getElem_fin, Vector.getElem_ofFn]
  split
  · exact getLsbD_spriteRow _ _ _
  · simp

/-! ### Views -/

/-- The number of lit pixels in a row. -/
def litInRow (s : Screen) (y : Fin 32) : Nat :=
  (List.finRange 64).countP fun x ↦ s.lit x y

/-- The number of lit pixels. -/
def litCount (s : Screen) : Nat :=
  (List.finRange 32).foldl (fun n y ↦ n + s.litInRow y) 0

/-- How bright a lit pixel is. -/
def brightness : UInt8 := 255

/-- The brightness of the pixel in column `x` and row `y`. A column beyond the last one continues in
the next row, and beyond the last row there is no pixel. -/
def intensity? (s : Screen) (x y : Nat) : Option UInt8 :=
  let place := y * width + x
  if h : place / 64 < 32 then
    some (if s.lit ⟨place % 64, Nat.mod_lt _ (by decide)⟩ ⟨place / 64, h⟩ then brightness else 0)
  else none

/-- The characters of one row: a hash for a lit pixel and a dot for a dark one. -/
def rowChars (s : Screen) (y : Fin 32) : List Char :=
  (List.finRange 64).map fun x ↦ if s.lit x y then '#' else '.'

/-- The characters of the screen, every row ended by a line feed. -/
def chars (s : Screen) : List Char :=
  (List.finRange 32).flatMap fun y ↦ s.rowChars y ++ ['\n']

/-- The screen as text. -/
def text (s : Screen) : String :=
  String.ofList s.chars

/-- The screen as text under a heading. -/
def headedText (s : Screen) : String :=
  "Frame\n" ++ s.text

/-! ### Written form -/

/-- The screen is written row by row, eight pixels in a byte, the leftmost in the lowest bit. -/
def codec : Codec Screen 256 :=
  ((Codec.littleEndian 8).replicate 32).via rows mk (fun _ ↦ rfl) fun _ ↦ rfl

end Screen

end Chip8
