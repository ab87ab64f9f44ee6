import Chip8.Codec

/-!
# The call stack

Sixteen slots for return addresses and the number of slots in use. Slots that are not in use keep
what was last put there: it can be seen in the written form of a machine and nowhere else.

The number in use is a byte, so a stack read from outside may claim **more slots than there are**.
Such a stack can be neither pushed nor popped. `CallStack.returns` is the meaning of the two fields:
the return addresses, oldest first.
-/

namespace Chip8

/-- Return addresses in slots, and how many slots are in use. -/
structure CallStack where
  slots : Vector UInt16 16
  depth : UInt8
  deriving DecidableEq, Repr

namespace CallStack

/-- No slot is in use, and none ever was. -/
def empty : CallStack where
  slots := Vector.replicate 16 0
  depth := 0

/-- Use one more slot, if there is one. -/
def push? (s : CallStack) (a : UInt16) : Option CallStack :=
  if h : s.depth.toNat < 16 then some ⟨s.slots.set s.depth.toNat a, s.depth + 1⟩ else none

/-- The return address in the last slot in use, and the stack without it. -/
def pop? (s : CallStack) : Option (UInt16 × CallStack) :=
  if h : 0 < s.depth.toNat ∧ s.depth.toNat ≤ 16 then
    some (s.slots[s.depth.toNat - 1], { s with depth := s.depth - 1 })
  else none

/-- The return addresses in use, oldest first. -/
def returns (s : CallStack) : List UInt16 :=
  s.slots.toList.take s.depth.toNat

theorem push?_eq_none_iff {s : CallStack} {a : UInt16} :
    s.push? a = none ↔ 16 ≤ s.depth.toNat := by
  simp [push?]

theorem pop?_eq_none_iff {s : CallStack} :
    s.pop? = none ↔ s.depth.toNat = 0 ∨ 16 < s.depth.toNat := by
  simp only [pop?, dite_eq_right_iff, reduceCtorEq, imp_false]
  omega

/-- All slots in use are there, unless more are said to be in use than there are. -/
theorem length_returns (s : CallStack) : s.returns.length = min s.depth.toNat 16 := by
  simp [returns]

/-- Pushing needs a free slot, and uses one more. -/
theorem depth_of_push? {s t : CallStack} {a : UInt16} (h : s.push? a = some t) :
    s.depth.toNat < 16 ∧ t.depth.toNat = s.depth.toNat + 1 := by
  unfold push? at h
  split at h
  next hd =>
    obtain rfl := (Option.some.inj h).symm
    refine ⟨hd, ?_⟩
    rw [UInt8.toNat_add]
    show (s.depth.toNat + 1) % 256 = _
    omega
  next => simp at h

/-- Popping needs a slot in use, and uses one less. -/
theorem depth_of_pop? {s t : CallStack} {a : UInt16} (h : s.pop? = some (a, t)) :
    s.depth.toNat ≤ 16 ∧ s.depth.toNat = t.depth.toNat + 1 := by
  unfold pop? at h
  split at h
  next hd =>
    obtain ⟨-, rfl⟩ := Prod.mk.inj (Option.some.inj h)
    have hle : (1 : UInt8) ≤ s.depth := UInt8.le_iff_toNat_le.2 hd.1
    refine ⟨hd.2, ?_⟩
    rw [UInt8.toNat_sub_of_le _ _ hle]
    exact (Nat.sub_add_cancel hd.1).symm
  next => simp at h

/-- Pushing writes the first slot that is not in use. -/
theorem slots_of_push? {s t : CallStack} {a : UInt16} (h : s.push? a = some t) :
    t.slots = s.slots.set s.depth.toNat a (depth_of_push? h).1 := by
  rw [push?, dif_pos (depth_of_push? h).1] at h
  exact congrArg slots (Option.some.inj h).symm

/-- Popping reads the last slot in use, and writes none. -/
theorem slots_of_pop? {s t : CallStack} {a : UInt16} (h : s.pop? = some (a, t)) :
    s.slots[s.depth.toNat - 1]? = some a ∧ t.slots = s.slots := by
  obtain ⟨hle, hdepth⟩ := depth_of_pop? h
  rw [pop?, dif_pos ⟨by omega, hle⟩] at h
  obtain ⟨ha, ht⟩ := Prod.mk.inj (Option.some.inj h)
  exact ⟨by rw [← ha, Vector.getElem?_eq_getElem], by rw [← ht]⟩

/-- **Pushing adds the newest return address.** -/
theorem returns_of_push? {s t : CallStack} {a : UInt16} (h : s.push? a = some t) :
    t.returns = s.returns ++ [a] := by
  obtain ⟨hd, hdepth⟩ := depth_of_push? h
  rw [returns, hdepth, slots_of_push? h, Vector.toList_set, List.take_add_one]
  simp [returns, hd, List.take_set_of_le]

/-- **Popping takes the newest return address away.** -/
theorem returns_of_pop? {s t : CallStack} {a : UInt16} (h : s.pop? = some (a, t)) :
    s.returns = t.returns ++ [a] := by
  obtain ⟨hle, hdepth⟩ := depth_of_pop? h
  obtain ⟨hread, hslots⟩ := slots_of_pop? h
  rw [returns, returns, hdepth, hslots, List.take_add_one, Vector.getElem?_toList]
  rw [hdepth, Nat.add_sub_cancel] at hread
  rw [hread]
  rfl

/-! ### Written form -/

/-- The slots are written before the number of slots in use. -/
def codec : Codec CallStack 33 :=
  ((Codec.word.replicate 16).both Codec.byte).via (fun s ↦ (s.slots, s.depth)) (fun p ↦ ⟨p.1, p.2⟩)
    (fun _ ↦ rfl) fun _ ↦ rfl

end CallStack

end Chip8
