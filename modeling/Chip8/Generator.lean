/-!
# Random generators

A random generator hands out numbers from streams. A stream belongs to a **key** and stands at a
**position**, the number of words drawn from it so far. A program that uses a generator knows
nothing else of it: `Generator` is a way to start, move, describe and draw from streams, with the
laws that a user may rely on.

* The words of a key are drawn one after the other, and each number is the low byte of one of them.
* Seeking leads to exactly the word that is asked for.
* A key and a position describe a stream completely: a stream started from the one and moved to the
  other goes on as the first one would.
* The stream of a seed is the stream of a key.

What is drawn later on follows from the laws, by induction over the numbers before it:
`fst_draw_after` says which word each number is from. So what a program draws depends on the words
of a generator only, and **not on how it keeps its streams**.
-/

namespace Chip8

/-- A random generator, and the laws that a program may rely on. -/
structure Generator (Key Stream : Type) where
  /-- The words of a key, by their positions. After the last word the first one follows. -/
  word : Key → BitVec 68 → UInt32
  /-- The key that a seed is spread over. -/
  keyOfSeed : UInt64 → Key
  /-- The stream of a key, before anything is drawn. -/
  ofKey : Key → Stream
  /-- The stream of a seed, before anything is drawn. -/
  ofSeed : UInt64 → Stream
  /-- A stream, moved to where it stands after a count of words. -/
  seek : Stream → BitVec 128 → Stream
  /-- The next number of a stream, and the stream after it. -/
  draw : Stream → UInt8 × Stream
  /-- The key of a stream. -/
  key : Stream → Key
  /-- The number of words drawn from a stream. -/
  position : Stream → BitVec 68
  key_ofKey : ∀ k, key (ofKey k) = k
  position_ofKey : ∀ k, position (ofKey k) = 0
  ofSeed_eq : ∀ seed, ofSeed seed = ofKey (keyOfSeed seed)
  key_seek : ∀ s count, key (seek s count) = key s
  /-- Seeking is exact, but for complete laps through the words. -/
  position_seek : ∀ s count, position (seek s count) = count.setWidth 68
  /-- What describes a stream is enough to go on with it. -/
  seek_ofKey : ∀ s count, count.setWidth 68 = position s → seek (ofKey (key s)) count = s
  /-- A number is the low byte of a word. -/
  fst_draw : ∀ s, (draw s).1 = (word (key s) (position s)).toUInt8
  key_draw : ∀ s, key (draw s).2 = key s
  /-- One word is drawn for each number. -/
  position_draw : ∀ s, position (draw s).2 = position s + 1

namespace Generator

variable {Key Stream : Type} (g : Generator Key Stream)

/-! ### Going on with a stream -/

/-- The stream of a key after a count of words. -/
def resume (k : Key) (count : BitVec 128) : Stream :=
  g.seek (g.ofKey k) count

theorem key_resume (k : Key) (count : BitVec 128) : g.key (g.resume k count) = k := by
  rw [resume, g.key_seek, g.key_ofKey]

theorem position_resume (k : Key) (count : BitVec 128) :
    g.position (g.resume k count) = count.setWidth 68 :=
  g.position_seek _ count

/-- **A stream is resumed from its key and its position**, with any number of laps. -/
theorem resume_key {s : Stream} {count : BitVec 128} (h : count.setWidth 68 = g.position s) :
    g.resume (g.key s) count = s :=
  g.seek_ofKey s count h

theorem key_ofSeed (seed : UInt64) : g.key (g.ofSeed seed) = g.keyOfSeed seed := by
  rw [g.ofSeed_eq, g.key_ofKey]

theorem position_ofSeed (seed : UInt64) : g.position (g.ofSeed seed) = 0 := by
  rw [g.ofSeed_eq, g.position_ofKey]

/-! ### Drawing -/

/-- The stream after some numbers were drawn. -/
def after (s : Stream) (n : Nat) : Stream :=
  n.repeat (fun t ↦ (g.draw t).2) s

@[simp] theorem after_zero (s : Stream) : g.after s 0 = s := rfl

theorem after_succ (s : Stream) (n : Nat) : g.after s (n + 1) = (g.draw (g.after s n)).2 := rfl

theorem key_after (s : Stream) (n : Nat) : g.key (g.after s n) = g.key s := by
  induction n with
  | zero => rfl
  | succ n ih => rw [after_succ, g.key_draw, ih]

theorem position_after (s : Stream) (n : Nat) :
    g.position (g.after s n) = g.position s + BitVec.ofNat 68 n := by
  induction n with
  | zero => rw [after_zero, BitVec.add_zero]
  | succ n ih =>
    rw [after_succ, g.position_draw, ih, BitVec.ofNat_add, ← BitVec.add_assoc]
    rfl

/-- **The words are drawn one after the other**, none left out and none twice. -/
theorem fst_draw_after (s : Stream) (n : Nat) :
    (g.draw (g.after s n)).1 = (g.word (g.key s) (g.position s + BitVec.ofNat 68 n)).toUInt8 := by
  rw [g.fst_draw, g.key_after, g.position_after]

end Generator

end Chip8
