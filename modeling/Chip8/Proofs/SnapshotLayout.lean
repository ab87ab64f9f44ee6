import Mathlib.Algebra.Ring.Nat
import Chip8.Snapshot

/-!
# The bytes of a snapshot

`Snapshot.layout` is put together from codecs, which makes it a bijection and hides where a field
lies. Here the written form is opened into its bytes. `toList_encode` lists the fields in order,
each in its own form, so that offsets are lengths: the keys lie at 4408 (`length_frontBytes`) and
the count of drawn words is what follows offset 4442 (`drawnWords_encode`).

Against that stands a reader that knows nothing of the layout. `Codec.read?` takes a value from the
front of a byte string and hands on the bytes after it, or fails if there are too few, and
`Snapshot.read?` reads one field after the other. `read?_encode` says that this goes through on
every written form, **never runs out of bytes and leaves none**.
-/

namespace Chip8

namespace Codec

variable {α β : Type} {m n w : Nat}

/-! ### Reading from the front -/

/-- Take a value from the front of a byte string, and hand on the bytes after it. Too few bytes hold
no value. -/
def read? (c : Codec α w) (bytes : List UInt8) : Option (α × List UInt8) :=
  if h : w ≤ bytes.length then
    some (c.decode ⟨(bytes.take w).toArray, by simp [h]⟩, bytes.drop w)
  else none

theorem read?_append (c : Codec α w) (a : α) (rest : List UInt8) :
    c.read? ((c.encode a).toList ++ rest) = some (a, rest) := by
  have hlen : (c.encode a).toList.length = w := Vector.length_toList
  have hle : w ≤ ((c.encode a).toList ++ rest).length := by
    rw [List.length_append, hlen]
    exact Nat.le_add_right _ _
  rw [read?, dif_pos hle]
  have htake : (⟨(((c.encode a).toList ++ rest).take w).toArray, by simp⟩ : Vector UInt8 w) =
      c.encode a := by
    apply Vector.toList_inj.1
    exact List.take_left' hlen
  rw [htake, c.decode_encode, List.drop_left' hlen]

/-- Reading a written value and going on with it is going on with the value. -/
theorem read?_append_bind (c : Codec α w) (a : α) (rest : List UInt8)
    (f : α × List UInt8 → Option β) :
    (c.read? ((c.encode a).toList ++ rest) >>= f) = f (a, rest) := by
  rw [read?_append]
  rfl

theorem read?_encode_bind (c : Codec α w) (a : α) (f : α × List UInt8 → Option β) :
    (c.read? (c.encode a).toList >>= f) = f (a, []) := by
  rw [← List.append_nil (c.encode a).toList, read?_append_bind]

theorem toList_encode_both (c : Codec α m) (d : Codec β n) (p : α × β) :
    ((c.both d).encode p).toList = (c.encode p.1).toList ++ (d.encode p.2).toList :=
  Vector.toList_append

end Codec

namespace Snapshot

/-! ### The fields in order -/

/-- The bytes in front of the keys. -/
def frontBytes (s : State) : List UInt8 :=
  (Codec.byte.encode version).toList ++ ((Codec.bytes memorySize).encode s.memory.cells).toList ++
    ((Codec.bytes 16).encode s.registers.values).toList ++ (Codec.word.encode s.index).toList ++
    (Codec.word.encode s.pc).toList ++ ((Codec.word.replicate 16).encode s.stack.slots).toList ++
    (Codec.byte.encode s.stack.depth).toList ++ (Codec.byte.encode s.timers.delay).toList ++
    (Codec.byte.encode s.timers.sound).toList ++
    (((Codec.littleEndian 8).replicate 32).encode s.screen.rows).toList

theorem length_frontBytes (s : State) : (frontBytes s).length = 4408 := by
  simp only [frontBytes, List.length_append, Vector.length_toList]
  rfl

/-- **The written form field by field**: what lies in front of the keys, the keys, the key of the
random stream, and the count of drawn words. -/
theorem toList_encode (s : Snapshot) :
    s.encode.toList =
      frontBytes s.state ++ (((Codec.bigEndian 2).encode s.state.keypad.held).toList ++
        (((Codec.bytes 32).encode s.state.random.key).toList ++
          ((Codec.bigEndian 16).encode (count s.state.random.position s.laps)).toList)) := by
  have hversion : s.encode.toList = [version] ++ (layout.encode s).toList := Vector.toList_append
  have hlayout : (layout.encode s).toList =
      ((Memory.codec.both (Registers.codec.both (Codec.word.both (Codec.word.both
        (CallStack.codec.both (Timers.codec.both (Screen.codec.both
          (Keypad.codec.both randomCodec)))))))).encode
        (s.state.memory, s.state.registers, s.state.index, s.state.pc, s.state.stack,
          s.state.timers, s.state.screen, s.state.keypad, s.state.random, s.laps)).toList := rfl
  have hstack : (CallStack.codec.encode s.state.stack).toList = _ :=
    Codec.toList_encode_both (Codec.word.replicate 16) Codec.byte (_, _)
  have htimers : (Timers.codec.encode s.state.timers).toList = _ :=
    Codec.toList_encode_both Codec.byte Codec.byte (_, _)
  have hrandom : (randomCodec.encode (s.state.random, s.laps)).toList = _ :=
    Codec.toList_encode_both (Codec.bytes 32) countCodec (_, _, _)
  rw [hversion, hlayout]
  simp only [Codec.toList_encode_both, hstack, htimers, hrandom, frontBytes, List.append_assoc]
  rfl

/-- Different snapshots have different forms. -/
theorem encode_inj {s t : Snapshot} (h : s.encode = t.encode) : s = t := by
  have hdecode : decode t.encode.toArray = .ok s := h ▸ decode_encode s
  rw [decode_encode] at hdecode
  exact (Except.ok.inj hdecode).symm

/-- Byte strings that differ in a middle part only differ there only. -/
theorem getElem?_append_middle {front back middle middle' : List UInt8} {n i : Nat}
    (h : middle.length = n) (h' : middle'.length = n)
    (hi : i < front.length ∨ front.length + n ≤ i) :
    (front ++ (middle ++ back))[i]? = (front ++ (middle' ++ back))[i]? := by
  rcases hi with hlt | hge
  · rw [List.getElem?_append_left hlt, List.getElem?_append_left hlt]
  · rw [List.getElem?_append_right (by omega), List.getElem?_append_right (by omega),
      List.getElem?_append_right (by omega), List.getElem?_append_right (by omega), h, h']

/-- The bytes in front of the timers. -/
def headBytes (s : State) : List UInt8 :=
  (Codec.byte.encode version).toList ++ ((Codec.bytes memorySize).encode s.memory.cells).toList ++
    ((Codec.bytes 16).encode s.registers.values).toList ++ (Codec.word.encode s.index).toList ++
    (Codec.word.encode s.pc).toList ++ ((Codec.word.replicate 16).encode s.stack.slots).toList ++
    (Codec.byte.encode s.stack.depth).toList

theorem length_headBytes (s : State) : (headBytes s).length = 4150 := by
  simp only [headBytes, List.length_append, Vector.length_toList]
  rfl

/-- Between the head and the keys lie the timers and the screen. -/
theorem frontBytes_eq (s : State) :
    frontBytes s = headBytes s ++
      ([s.timers.delay, s.timers.sound] ++ (Screen.codec.encode s.screen).toList) := by
  rw [frontBytes, headBytes]
  simp only [List.append_assoc]
  rfl

/-- The timers lie at 4150 and 4151. -/
theorem getElem?_encode_timers (s : Snapshot) {j : Nat} (hj : j < 2) :
    s.encode[4150 + j]? = [s.state.timers.delay, s.state.timers.sound][j]? := by
  have hhead := length_headBytes s.state
  have hplace : 4150 + j - 4150 = j := by omega
  rw [← Vector.getElem?_toList, toList_encode, frontBytes_eq, List.append_assoc,
    List.getElem?_append_right (by omega), hhead, hplace, List.append_assoc,
    List.getElem?_append_left (by simpa using hj)]

/-- The screen lies at 4152. -/
theorem getElem?_encode_screen (s : Snapshot) {j : Nat} (hj : j < 256) :
    s.encode[4152 + j]? = some (Screen.codec.encode s.state.screen)[j] := by
  have hhead := length_headBytes s.state
  have hplace : 4152 + j - 4150 = 2 + j := by omega
  rw [← Vector.getElem?_toList, toList_encode, frontBytes_eq, List.append_assoc,
    List.getElem?_append_right (by omega), hhead, hplace, List.append_assoc,
    List.getElem?_append_right (by simp), List.getElem?_append_left (by simp [hj])]
  simp [hj]

/-- The keys lie at 4408 and 4409. -/
theorem getElem?_encode_keypad (s : Snapshot) {j : Nat} (hj : j < 2) :
    s.encode[4408 + j]? = some (Keypad.codec.encode s.state.keypad)[j] := by
  have hfront := length_frontBytes s.state
  have hplace : 4408 + j - 4408 = j := by omega
  rw [← Vector.getElem?_toList, toList_encode, List.getElem?_append_right (by omega), hfront,
    hplace, List.getElem?_append_left (by simp [hj])]
  show (Keypad.codec.encode s.state.keypad).toList[j]? = _
  simp [hj]

/-- States that differ in the timers only have forms that differ at 4150 and 4151 only. -/
theorem getElem?_encode_withTimers (s : State) (timers : Timers) {i : Nat} (hi : i ≠ 4150)
    (hi' : i ≠ 4151) :
    (ofState { s with timers := timers }).encode.toList[i]? = (ofState s).encode.toList[i]? := by
  have hhead : (headBytes s).length = 4150 := length_headBytes s
  rw [toList_encode, toList_encode, frontBytes_eq, frontBytes_eq]
  simp only [List.append_assoc]
  show (headBytes s ++ (_ ++ _))[i]? = (headBytes s ++ (_ ++ _))[i]?
  exact getElem?_append_middle (n := 2) rfl rfl (by omega)

/-- States that differ in the keys only have forms that differ at 4408 and 4409 only. -/
theorem getElem?_encode_withKeypad (s : State) (k : Keypad) {i : Nat} (hi : i ≠ 4408)
    (hi' : i ≠ 4409) :
    (ofState { s with keypad := k }).encode.toList[i]? = (ofState s).encode.toList[i]? := by
  have hfront : (frontBytes s).length = 4408 := length_frontBytes s
  rw [toList_encode, toList_encode]
  show (frontBytes s ++ (_ ++ _))[i]? = (frontBytes s ++ (_ ++ _))[i]?
  exact getElem?_append_middle Vector.length_toList Vector.length_toList (by omega)

/-- States that differ in the key of the random stream only have forms that differ in its 32 bytes
only. -/
theorem getElem?_encode_withKey (s : State) (key : ChaCha.Key) {i : Nat}
    (hi : i < 4410 ∨ 4442 ≤ i) :
    (ofState { s with random := { s.random with key := key } }).encode.toList[i]? =
      (ofState s).encode.toList[i]? := by
  let keys := ((Codec.bigEndian 2).encode s.keypad.held).toList
  have hfront : (frontBytes s ++ keys).length = 4410 := by
    rw [List.length_append, length_frontBytes, Vector.length_toList]
  rw [toList_encode, toList_encode, ← List.append_assoc (frontBytes _),
    ← List.append_assoc (frontBytes (ofState s).state)]
  show ((frontBytes s ++ keys) ++ (_ ++ _))[i]? = ((frontBytes s ++ keys) ++ (_ ++ _))[i]?
  exact getElem?_append_middle Vector.length_toList Vector.length_toList (by omega)

/-- The laps of the random stream show behind offset 4442 only. -/
theorem getElem?_encode_withLaps (s : Snapshot) (laps : BitVec 60) {i : Nat} (hi : i < 4442) :
    { s with laps := laps }.encode.toList[i]? = s.encode.toList[i]? := by
  -- what lies in front of the count, whatever comes after it
  have hfixed : ∀ tail : List UInt8,
      (frontBytes s.state ++ (((Codec.bigEndian 2).encode s.state.keypad.held).toList ++
        (((Codec.bytes 32).encode s.state.random.key).toList ++ tail)))[i]? =
      (frontBytes s.state ++ ((Codec.bigEndian 2).encode s.state.keypad.held).toList ++
        ((Codec.bytes 32).encode s.state.random.key).toList)[i]? := by
    intro tail
    rw [← List.append_assoc, ← List.append_assoc]
    apply List.getElem?_append_left
    simp only [List.length_append, Vector.length_toList, length_frontBytes]
    exact hi
  rw [toList_encode, toList_encode]
  exact (hfixed _).trans (hfixed _).symm

/-- The key of the random stream lies at 4410, between the keys and the count of drawn words. -/
theorem key_encode (s : Snapshot) :
    (s.encode.toList.drop 4410).take 32 = s.state.random.key.toList := by
  rw [toList_encode, ← List.append_assoc]
  have hfront : (frontBytes s.state ++
      ((Codec.bigEndian 2).encode s.state.keypad.held).toList).length = 4410 := by
    rw [List.length_append, length_frontBytes, Vector.length_toList]
  rw [List.drop_left' hfront, List.take_left' Vector.length_toList]
  rfl

/-! ### Reading field by field -/

/-- Read the fields in the order of their offsets, each from the bytes that were left by the one
before it, and hand on what is left by the last one. -/
def read? (bytes : List UInt8) : Option (Snapshot × List UInt8) := do
  let (v, bytes) ← Codec.byte.read? bytes
  guard (v = version)
  let (cells, bytes) ← (Codec.bytes memorySize).read? bytes
  let (values, bytes) ← (Codec.bytes 16).read? bytes
  let (index, bytes) ← Codec.word.read? bytes
  let (pc, bytes) ← Codec.word.read? bytes
  let (slots, bytes) ← (Codec.word.replicate 16).read? bytes
  let (depth, bytes) ← Codec.byte.read? bytes
  let (delay, bytes) ← Codec.byte.read? bytes
  let (sound, bytes) ← Codec.byte.read? bytes
  let (rows, bytes) ← ((Codec.littleEndian 8).replicate 32).read? bytes
  let (held, bytes) ← (Codec.bigEndian 2).read? bytes
  let (key, bytes) ← (Codec.bytes 32).read? bytes
  let (drawn, bytes) ← (Codec.bigEndian 16).read? bytes
  let state : State :=
    { memory := ⟨cells⟩, registers := ⟨values⟩, index := index, pc := pc, stack := ⟨slots, depth⟩,
      timers := ⟨delay, sound⟩, screen := ⟨rows⟩, keypad := ⟨held⟩,
      random := ⟨key, countPosition drawn⟩ }
  return (⟨state, countLaps drawn⟩, bytes)

/-- **Reading goes through on every written form and leaves no byte.** -/
theorem read?_encode (s : Snapshot) : read? s.encode.toList = some (s, []) := by
  rw [toList_encode, frontBytes]
  -- the version is the one field that is checked while it is read
  have hversion : (guard (version = version) : Option Unit) = some () := if_pos rfl
  simp only [List.append_assoc]
  rw [read?, Codec.read?_append_bind]
  show (guard (version = version) >>= _) = _
  rw [hversion]
  simp only [Codec.read?_append_bind, Codec.read?_encode_bind, countPosition_count,
    countLaps_count]
  rfl

/-! ### The count of drawn words -/

/-- The number in base 256 that is written from offset 4442 to the end. -/
def drawnWords (bytes : Array UInt8) : Nat :=
  (bytes.toList.drop 4442).foldl (fun n b ↦ 256 * n + b.toNat) 0

theorem drop_encode (s : Snapshot) :
    s.encode.toList.drop 4442 =
      ((Codec.bigEndian 16).encode (count s.state.random.position s.laps)).toList := by
  rw [toList_encode, ← List.append_assoc, ← List.append_assoc]
  apply List.drop_left'
  simp only [List.length_append, length_frontBytes, Vector.length_toList]

theorem drawnWords_encode (s : Snapshot) :
    drawnWords s.encode.toArray = (count s.state.random.position s.laps).toNat := by
  have hfold : drawnWords s.encode.toArray = Codec.number ((Codec.bigEndian 16).encode
      (count s.state.random.position s.laps)) := by
    rw [Codec.number, ← Vector.foldl_toList, ← drop_encode]
    rfl
  rw [hfold]
  show Codec.number (Codec.digits 16 _) = _
  rw [Codec.number_digits, BitVec.ofNat_toNat, BitVec.setWidth_eq]

theorem toNat_count_zero (position : BitVec 68) : (count position 0).toNat = position.toNat := by
  rw [count, BitVec.toNat_append]
  simp

/-- The position in the stream is the count of drawn words up to complete laps. -/
theorem drawnWords_mod (s : Snapshot) :
    drawnWords s.encode.toArray % 2 ^ 68 = s.state.random.position.toNat := by
  rw [drawnWords_encode]
  have h := congrArg BitVec.toNat (countPosition_count s.state.random.position s.laps)
  rwa [countPosition, BitVec.extractLsb'_toNat, Nat.shiftRight_zero] at h

end Snapshot

end Chip8
