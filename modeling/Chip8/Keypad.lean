import Chip8.Codec

/-!
# The keypad

Sixteen keys, each held down or not. The keys are the bits of one word, key `k` in bit `k`, and they
are always replaced together: `Keypad.ofList` takes exactly sixteen states and refuses any other
number of them.

A machine knows keys by number only. `Keypad.layout` is one customary way to place them on a
keyboard; nothing in the machine depends on it.
-/

namespace Chip8

/-- Which keys are held down. -/
structure Keypad where
  held : BitVec 16
  deriving DecidableEq, Repr

/-- Key states were refused because there are this many of them. -/
structure WrongKeyCount where
  count : Nat
  deriving DecidableEq, Repr

/-- The number of keys. -/
def keyCount : Nat := 16

/-- The text of a refusal. -/
def WrongKeyCount.message (e : WrongKeyCount) : String :=
  s!"expected exactly {keyCount} key states, got {e.count}"

namespace Keypad

/-- No key is held. -/
def released : Keypad where
  held := 0

/-- Whether a key is held. Numbers from sixteen on belong to no key. -/
def isDown (k : Keypad) (key : UInt8) : Bool :=
  k.held.getLsbD key.toNat

/-- The lowest-numbered key that is held. -/
def firstDown? (k : Keypad) : Option UInt8 :=
  ((List.range keyCount).map UInt8.ofNat).find? k.isDown

/-- The state of every key, in the order of their numbers. -/
def toList (k : Keypad) : List Bool :=
  (List.finRange 16).map fun i : Fin 16 ↦ k.held.getLsbD i

/-- The keypad with these key states, if there is one for each key. -/
def ofList (keys : List Bool) : Except WrongKeyCount Keypad :=
  if h : keys.length = 16 then .ok ⟨(BitVec.ofBoolListLE keys).cast h⟩ else .error ⟨keys.length⟩

@[simp] theorem isDown_of_le (k : Keypad) {key : UInt8} (h : 16 ≤ key.toNat) :
    k.isDown key = false :=
  BitVec.getLsbD_of_ge _ _ h

@[simp] theorem length_toList (k : Keypad) : k.toList.length = 16 := by
  simp [toList]

/-- A key is held exactly if its state is there and says so. -/
theorem isDown_eq_true_iff {k : Keypad} {key : UInt8} :
    k.isDown key = true ↔ k.toList[key.toNat]? = some true := by
  by_cases hkey : key.toNat < 16
  · rw [List.getElem?_eq_getElem (by simpa using hkey)]
    simp [isDown, toList, BitVec.getLsbD_eq_getElem hkey]
  · rw [isDown_of_le k (Nat.le_of_not_lt hkey), List.getElem?_eq_none (by simpa using hkey)]
    simp

theorem firstDown?_eq_none_iff {k : Keypad} :
    k.firstDown? = none ↔ ∀ key, k.isDown key = false := by
  simp only [firstDown?, List.find?_eq_none, List.mem_map, List.mem_range]
  constructor
  · intro h key
    by_cases hkey : key.toNat < keyCount
    · exact Bool.eq_false_iff.2 (h key ⟨key.toNat, hkey, UInt8.ofNat_toNat⟩)
    · exact isDown_of_le k (Nat.le_of_not_lt hkey)
  · rintro h key -
    simp [h key]

/-- A key is found exactly if one of the states says so. -/
theorem firstDown?_eq_none_iff_not_mem {k : Keypad} : k.firstDown? = none ↔ true ∉ k.toList := by
  rw [firstDown?_eq_none_iff]
  constructor
  · intro h hmem
    obtain ⟨i, hi⟩ := List.getElem?_of_mem hmem
    have hlt : i < 16 := k.length_toList ▸ (List.getElem?_eq_some_iff.1 hi).1
    have hval : (UInt8.ofNat i).toNat = i := Nat.mod_eq_of_lt (Nat.lt_trans hlt (by decide))
    refine Bool.eq_false_iff.1 (h (UInt8.ofNat i)) (isDown_eq_true_iff.2 ?_)
    rw [hval, hi]
  · intro h key
    exact Bool.eq_false_iff.2 fun hdown ↦ h (List.mem_of_getElem? (isDown_eq_true_iff.1 hdown))

/-- **The key that is found is held, and no key with a lower number is.** -/
theorem isDown_of_firstDown? {k : Keypad} {key : UInt8} (h : k.firstDown? = some key) :
    k.isDown key = true ∧ ∀ lower < key, k.isDown lower = false := by
  obtain ⟨hdown, i, hi, hkey, hbefore⟩ := List.find?_eq_some_iff_getElem.1 h
  refine ⟨hdown, fun lower hlt ↦ ?_⟩
  rw [List.length_map, List.length_range] at hi
  have hval : key.toNat = i := by
    rw [← hkey, List.getElem_map, List.getElem_range, UInt8.toNat_ofNat']
    exact Nat.mod_eq_of_lt (Nat.lt_trans hi (by decide))
  have hlower := hbefore lower.toNat (hval ▸ UInt8.lt_iff_toNat_lt.1 hlt)
  rw [List.getElem_map, List.getElem_range, UInt8.ofNat_toNat] at hlower
  simpa using hlower

/-! ### A layout for keyboards -/

/-- The keyboard characters, row by row, with the keys they stand for:

```
1 2 3 4      1 2 3 C
q w e r      4 5 6 D
a s d f      7 8 9 E
z x c v      A 0 B F
```
-/
def layout : List (Char × Nat) :=
  [('1', 0x1), ('2', 0x2), ('3', 0x3), ('4', 0xC),
   ('q', 0x4), ('w', 0x5), ('e', 0x6), ('r', 0xD),
   ('a', 0x7), ('s', 0x8), ('d', 0x9), ('f', 0xE),
   ('z', 0xA), ('x', 0x0), ('c', 0xB), ('v', 0xF)]

/-- The same pairs in the order of the characters. -/
def layoutByChar : List (Char × Nat) :=
  layout.mergeSort fun p q ↦ p.1.toNat ≤ q.1.toNat

/-! ### Written form -/

/-- The keys are written as one word. -/
def codec : Codec Keypad 2 :=
  (Codec.bigEndian 2).via held mk (fun _ ↦ rfl) fun _ ↦ rfl

end Keypad

end Chip8
