import Chip8.ChaCha
import Chip8.Generator

/-!
# Random numbers

Random numbers are the low bytes of the words of a ChaCha stream, one word for each number. A stream
is a key and a **position**, the number of words drawn so far. Nothing else is remembered, so a
stream that is read back from those two continues with the same numbers.

There are as many positions as words in all blocks of a key: the block number has 64 bits and a
block has 16 words, so a position has 68 bits, and after the last word the stream starts again.

`RandomStream.ofSeed` spreads a 64-bit seed over a key: a linear congruential sequence goes through
eight states, and each of them gives one word of the key.

A machine draws from `chaCha8`, the generator made of all this, and from nothing else: it starts,
resumes and describes its stream by the operations of a `Generator`, and what is proved of its
numbers rests on the laws of one.
-/

namespace Chip8

/-- A key and the number of words drawn from its stream. -/
structure RandomStream where
  key : ChaCha.Key
  position : BitVec 68
  deriving DecidableEq, Repr

namespace RandomStream

/-! ### Drawing -/

/-- The word at a position of the stream of a key. -/
def wordAt (key : ChaCha.Key) (position : BitVec 68) : UInt32 :=
  (ChaCha.block key (UInt64.ofNat (position.toNat / 16))).get
    ⟨position.toNat % 16, Nat.mod_lt _ (by decide)⟩

-- the second word of the second block
example : wordAt (Vector.replicate 32 0) 17 = 0x51C1A5EA := by
  decide +kernel

/-- The number that is drawn next. -/
def next (r : RandomStream) : UInt8 :=
  (wordAt r.key r.position).toUInt8

/-- The stream after the next number was drawn. -/
def advance (r : RandomStream) : RandomStream :=
  { r with position := r.position + 1 }

@[simp] theorem key_advance (r : RandomStream) : r.advance.key = r.key := rfl

@[simp] theorem position_advance (r : RandomStream) : r.advance.position = r.position + 1 := rfl

/-! ### Seeds -/

/-- The state after this one in the sequence that seeds are spread with. -/
def seedStep (state : UInt64) : UInt64 :=
  state * 6364136223846793005 + 11634580027462260723

/-- The word that a state gives: bits from its upper half, rotated down by its five highest bits.
A rotation by zero combines the word with itself. -/
def seedWord (state : UInt64) : UInt32 :=
  let x := (((state >>> 18) ^^^ state) >>> 27).toUInt32
  let turn := (state >>> 59).toUInt32
  x >>> turn ||| x <<< (32 - turn)

/-- The words given by the four states after this one, and the last of these states. -/
def seedRow (state : UInt64) : ChaCha.Row × UInt64 :=
  let s₁ := seedStep state
  let s₂ := seedStep s₁
  let s₃ := seedStep s₂
  let s₄ := seedStep s₃
  (⟨seedWord s₁, seedWord s₂, seedWord s₃, seedWord s₄⟩, s₄)

/-- The key that a seed is spread over. -/
def keyOfSeed (seed : UInt64) : ChaCha.Key :=
  let upper := seedRow seed
  let lower := seedRow upper.2
  ChaCha.keyCodec.encode (upper.1, lower.1)

example : (keyOfSeed 0).toList =
    [0xEC, 0xF2, 0x73, 0xF9, 0x81, 0xB5, 0xCD, 0x45, 0x87, 0xF0, 0x46, 0x73, 0x06, 0xAD, 0x6C, 0xAD,
      0xD0, 0xD0, 0xA3, 0xE3, 0x33, 0x17, 0xE7, 0x67, 0xF2, 0x9B, 0xEA, 0x72, 0xD7, 0x8A, 0x7D,
      0xFE] := by
  decide +kernel

/-- The stream of a seed, before anything is drawn. -/
def ofSeed (seed : UInt64) : RandomStream where
  key := keyOfSeed seed
  position := 0

end RandomStream

/-! ### The generator -/

/-- ChaCha with eight rounds, as a generator. -/
def chaCha8 : Generator ChaCha.Key RandomStream where
  word := RandomStream.wordAt
  keyOfSeed := RandomStream.keyOfSeed
  ofKey key := ⟨key, 0⟩
  ofSeed := RandomStream.ofSeed
  seek r count := { r with position := count.setWidth 68 }
  draw r := (r.next, r.advance)
  key := RandomStream.key
  position := RandomStream.position
  key_ofKey _ := rfl
  position_ofKey _ := rfl
  ofSeed_eq _ := rfl
  key_seek _ _ := rfl
  position_seek _ _ := rfl
  seek_ofKey r count h := by rw [h]
  fst_draw _ := rfl
  key_draw := RandomStream.key_advance
  position_draw := RandomStream.position_advance

end Chip8
