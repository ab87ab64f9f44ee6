import Chip8.Codec

/-!
# The ChaCha block function

A block is sixteen 32-bit words that depend on a key of eight words and on a 64-bit block number.
Four constants, the key, the block number and a nonce that is always zero form a square of four
rows. Eight rounds mix the columns and the diagonals of the square by turns, and the square they
started from is added to the result.

A round works on all columns at once, so its steps are steps on whole rows. A round on the diagonals
is the same round after the rows were turned against each other.

Blocks do not depend on each other, so a stream made of them can be entered anywhere.
-/

namespace Chip8

namespace ChaCha

/-! ### Rows -/

/-- Four words side by side. -/
structure Row where
  first : UInt32
  second : UInt32
  third : UInt32
  fourth : UInt32
  deriving DecidableEq, Repr

namespace Row

/-- Combine two rows word by word. -/
@[inline] def zipWith (f : UInt32 → UInt32 → UInt32) (r s : Row) : Row where
  first := f r.first s.first
  second := f r.second s.second
  third := f r.third s.third
  fourth := f r.fourth s.fourth

/-- Add two rows word by word. -/
def add (r s : Row) : Row :=
  zipWith (· + ·) r s

/-- Move the bits of a word up, and those that leave it at the top back in at the bottom. -/
def rotateUp (n x : UInt32) : UInt32 :=
  x <<< n ||| x >>> (32 - n)

/-- Combine two rows by exclusive or, and move the bits of each word up by `n` places. -/
def mix (n : UInt32) (r s : Row) : Row :=
  zipWith (fun x y ↦ rotateUp n (x ^^^ y)) r s

/-- Move every word one place to the front, and the first to the end. -/
def turn (r : Row) : Row where
  first := r.second
  second := r.third
  third := r.fourth
  fourth := r.first

/-- Four words are written one after the other, each least significant byte first. -/
def codec : Codec Row 16 :=
  let word : Codec UInt32 4 :=
    (Codec.littleEndian 4).via UInt32.toBitVec UInt32.ofBitVec (fun _ ↦ rfl) fun _ ↦ rfl
  (word.both (word.both (word.both word))).via (fun r ↦ (r.first, r.second, r.third, r.fourth))
    (fun p ↦ ⟨p.1, p.2.1, p.2.2.1, p.2.2.2⟩) (fun _ ↦ rfl) fun _ ↦ rfl

end Row

/-! ### Squares -/

/-- Four rows of four words. -/
structure Square where
  a : Row
  b : Row
  c : Row
  d : Row
  deriving DecidableEq, Repr

namespace Square

/-- Mix the four words of every column. -/
def columnRound (s : Square) : Square :=
  let a := s.a.add s.b
  let d := s.d.mix 16 a
  let c := s.c.add d
  let b := s.b.mix 12 c
  let a := a.add b
  let d := d.mix 8 a
  let c := c.add d
  let b := b.mix 7 c
  ⟨a, b, c, d⟩

/-- Turn the rows so that diagonals become columns. -/
def shear (s : Square) : Square :=
  ⟨s.a, s.b.turn, s.c.turn.turn, s.d.turn.turn.turn⟩

/-- Turn the rows back. -/
def unshear (s : Square) : Square :=
  ⟨s.a, s.b.turn.turn.turn, s.c.turn.turn, s.d.turn⟩

/-- Mix the columns, and then the diagonals. -/
def doubleRound (s : Square) : Square :=
  s.columnRound.shear.columnRound.unshear

/-- Add two squares word by word. -/
def add (s t : Square) : Square :=
  ⟨s.a.add t.a, s.b.add t.b, s.c.add t.c, s.d.add t.d⟩

/-- The words of a square, row by row. -/
def words (s : Square) : Vector UInt32 16 :=
  #v[s.a.first, s.a.second, s.a.third, s.a.fourth, s.b.first, s.b.second, s.b.third, s.b.fourth,
    s.c.first, s.c.second, s.c.third, s.c.fourth, s.d.first, s.d.second, s.d.third, s.d.fourth]

end Square

/-! ### Blocks -/

/-- A key, as it is written: eight words in two rows. -/
abbrev Key := Vector UInt8 32

/-- The two rows of a key. -/
def keyCodec : Codec (Row × Row) 32 :=
  Row.codec.both Row.codec

/-- The square that a block starts from. -/
def start (key : Key) (number : UInt64) : Square where
  a := ⟨0x61707865, 0x3320646E, 0x79622D32, 0x6B206574⟩
  b := (keyCodec.decode key).1
  c := (keyCodec.decode key).2
  d := ⟨number.toUInt32, (number >>> 32).toUInt32, 0, 0⟩

/-- The block with this number in the stream of a key. -/
def block (key : Key) (number : UInt64) : Vector UInt32 16 :=
  let s := start key number
  (s.doubleRound.doubleRound.doubleRound.doubleRound.add s).words

-- the first bytes of the stream of this key are 3E 00 EF 2F 89 5F 40 D6
example : (block (Vector.replicate 32 0) 0).toList =
    [0x2FEF003E, 0xD6405F89, 0xE8B85B7F, 0xA1A5091F, 0xC30E842C, 0x3B7F9ACE, 0x88E11B18, 0x1E1A71EF,
      0x72E14C98, 0x416F21B9, 0x6753449F, 0x19566D45, 0xA3424A31, 0x01B086DA, 0xB8FD7B38,
      0x42FE0C0E] := by
  decide +kernel

end ChaCha

end Chip8
