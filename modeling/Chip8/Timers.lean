import Chip8.Codec

/-!
# Timers

Two counters that go down by one at the end of every frame and stop at zero. Programs read and set
the delay timer; a tone sounds as long as the sound timer is positive.
-/

namespace Chip8

/-- The delay timer and the sound timer. -/
structure Timers where
  delay : UInt8 := 0
  sound : UInt8 := 0
  deriving DecidableEq, Repr

namespace Timers

/-- One less, but never below zero. -/
def countDown (t : UInt8) : UInt8 :=
  if t = 0 then 0 else t - 1

@[simp] theorem toNat_countDown (t : UInt8) : (countDown t).toNat = t.toNat - 1 := by
  unfold countDown
  split
  next h => simp [h]
  next h =>
    have : t.toNat ≠ 0 := fun h0 ↦ h (UInt8.toNat_inj.1 h0)
    have : t.toNat < 256 := t.toNat_lt
    rw [UInt8.toNat_sub_of_le]
    · rfl
    · rw [UInt8.le_iff_toNat_le]
      show 1 ≤ t.toNat
      omega

/-- Both timers go down by one. -/
def tick (t : Timers) : Timers where
  delay := countDown t.delay
  sound := countDown t.sound

/-- Whether the tone sounds. -/
def soundActive (t : Timers) : Bool :=
  t.sound > 0

/-- The delay timer is written before the sound timer. -/
def codec : Codec Timers 2 :=
  (Codec.byte.both Codec.byte).via (fun t ↦ (t.delay, t.sound)) (fun p ↦ ⟨p.1, p.2⟩)
    (fun _ ↦ rfl) fun _ ↦ rfl

end Timers

end Chip8
