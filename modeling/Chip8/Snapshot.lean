import Chip8.State

/-!
# Snapshots

The written form of a machine's state has 4458 bytes: one byte for the version of the layout and
after it the fields of the state at fixed offsets, words high byte first.

| offset | size | field                                         |
|-------:|-----:|-----------------------------------------------|
|      0 |    1 | version                                       |
|      1 | 4096 | memory                                        |
|   4097 |   16 | `V0` to `VF`                                  |
|   4113 |    2 | `I`                                           |
|   4115 |    2 | program counter                               |
|   4117 |   32 | slots of the call stack                       |
|   4149 |    1 | slots in use                                  |
|   4150 |    1 | delay timer                                   |
|   4151 |    1 | sound timer                                   |
|   4152 |  256 | screen, eight pixels a byte, leftmost lowest  |
|   4408 |    2 | keys, key `k` in bit `k`                      |
|   4410 |   32 | key of the random stream                      |
|   4442 |   16 | words drawn from the random stream            |

The count of drawn words is wider than a position in the stream, which starts again after `2 ^ 68`
words. A `Snapshot` therefore holds more than a state: its `laps` say how often the stream started
again according to that count. With them the format is **exact**: `Snapshot.layout` is a codec, so
every byte string of the right length and version is the form of one snapshot, and `decode_encode`
and `encode_of_decode` follow.
-/

namespace Chip8

/-- What a written form holds: a state, and the part of the count of drawn words that does not
matter to the stream. -/
structure Snapshot where
  state : State
  laps : BitVec 60
  deriving DecidableEq, Repr

/-- Why bytes are not the written form of a snapshot. -/
inductive SnapshotError where
  /-- There are this many bytes. -/
  | wrongSize (actual : Nat)
  /-- The layout has this version. -/
  | unsupportedVersion (version : UInt8)
  deriving DecidableEq, Repr

namespace Snapshot

/-- The version of the layout. -/
def version : UInt8 := 2

/-- The number of bytes of a written form. -/
def size : Nat := 4458

end Snapshot

/-- The text of an error. -/
def SnapshotError.message : SnapshotError → String
  | wrongSize actual => s!"snapshot is {actual} bytes, expected {Snapshot.size}"
  | unsupportedVersion version => s!"snapshot layout version {version.toNat} is not supported"

namespace Snapshot

/-! ### Layout -/

/-- The count of drawn words: the laps above the position. -/
def count (position : BitVec 68) (laps : BitVec 60) : BitVec (60 + 68) :=
  laps ++ position

/-- The position in a count of drawn words. -/
def countPosition (c : BitVec (60 + 68)) : BitVec 68 :=
  c.extractLsb' 0 68

/-- The laps in a count of drawn words. -/
def countLaps (c : BitVec (60 + 68)) : BitVec 60 :=
  c.extractLsb' 68 60

theorem countPosition_count (position : BitVec 68) (laps : BitVec 60) :
    countPosition (count position laps) = position :=
  BitVec.extractLsb'_append_eq_right

/-- The position is what is left of the count without complete laps. -/
theorem setWidth_count (position : BitVec 68) (laps : BitVec 60) :
    (count position laps).setWidth 68 = position :=
  BitVec.setWidth_append_eq_right

theorem countLaps_count (position : BitVec 68) (laps : BitVec 60) :
    countLaps (count position laps) = laps :=
  BitVec.extractLsb'_append_eq_left

theorem count_parts (c : BitVec (60 + 68)) : count (countPosition c) (countLaps c) = c := by
  have h : (68 : Nat) = 0 + 68 := rfl
  rw [count, countPosition, countLaps, BitVec.extractLsb'_append_extractLsb'_eq_extractLsb' h,
    BitVec.extractLsb'_eq_self]

/-- The count of drawn words is one word of sixteen bytes. -/
def countCodec : Codec (BitVec 68 × BitVec 60) 16 :=
  (Codec.bigEndian 16).via (fun p ↦ count p.1 p.2) (fun c ↦ (countPosition c, countLaps c))
    (fun p ↦ Prod.ext (countPosition_count p.1 p.2) (countLaps_count p.1 p.2)) count_parts

/-- The random stream: its key and the count of drawn words, from which it is resumed. -/
def randomCodec : Codec (RandomStream × BitVec 60) 48 :=
  ((Codec.bytes 32).both countCodec).via (fun p ↦ (chaCha8.key p.1, chaCha8.position p.1, p.2))
    (fun q ↦ (chaCha8.resume q.1 (count q.2.1 q.2.2), q.2.2))
    (fun p ↦ Prod.ext (chaCha8.resume_key (setWidth_count _ p.2)) rfl)
    fun q ↦ by rw [chaCha8.key_resume, chaCha8.position_resume, setWidth_count]

/-- The fields after the version, in the order of their offsets. -/
def layout : Codec Snapshot 4457 :=
  (Memory.codec.both (Registers.codec.both (Codec.word.both (Codec.word.both (CallStack.codec.both
    (Timers.codec.both (Screen.codec.both (Keypad.codec.both randomCodec)))))))).via
    (fun s ↦ (s.state.memory, s.state.registers, s.state.index, s.state.pc, s.state.stack,
      s.state.timers, s.state.screen, s.state.keypad, s.state.random, s.laps))
    (fun (memory, registers, index, pc, stack, timers, screen, keypad, random, laps) ↦
      ⟨⟨memory, registers, index, pc, stack, timers, screen, keypad, random⟩, laps⟩)
    (fun _ ↦ rfl) fun _ ↦ rfl

/-! ### Reading and writing -/

/-- The written form of a snapshot. -/
def encode (s : Snapshot) : Vector UInt8 size :=
  (#v[version] ++ layout.encode s : Vector UInt8 (1 + 4457))

/-- The snapshot that bytes are the form of. The number of bytes is checked before the version. -/
def decode (bytes : Array UInt8) : Except SnapshotError Snapshot :=
  if h : bytes.size = 1 + 4457 then
    let parts := Codec.cut (⟨bytes, h⟩ : Vector UInt8 (1 + 4457))
    if parts.1[0] = version then .ok (layout.decode parts.2)
    else .error (.unsupportedVersion parts.1[0])
  else .error (.wrongSize bytes.size)

theorem decode_encode (s : Snapshot) : decode s.encode.toArray = .ok s := by
  have h : s.encode.toArray.size = 1 + 4457 := s.encode.size_toArray
  have hv : (⟨s.encode.toArray, h⟩ : Vector UInt8 (1 + 4457)) = #v[version] ++ layout.encode s :=
    rfl
  simp only [decode, h, dite_true, hv, Codec.cut_append, layout.decode_encode]
  rfl

/-- **What is read was written by `encode`.** -/
theorem encode_of_decode {bytes : Array UInt8} {s : Snapshot} (h : decode bytes = .ok s) :
    s.encode.toArray = bytes := by
  unfold decode at h
  split at h
  next hsize =>
    simp only at h
    split at h
    next hversion =>
      obtain rfl := Except.ok.inj h
      have hparts := Codec.append_cut (⟨bytes, hsize⟩ : Vector UInt8 (1 + 4457))
      have hfirst : (Codec.cut (⟨bytes, hsize⟩ : Vector UInt8 (1 + 4457))).1 = #v[version] := by
        refine Vector.ext fun i hi ↦ ?_
        obtain rfl := Nat.lt_one_iff.1 hi
        exact hversion
      rw [hfirst] at hparts
      show (#v[version] ++ layout.encode (layout.decode _) : Vector UInt8 (1 + 4457)).toArray = _
      rw [layout.encode_decode, hparts]
    next => simp at h
  next => simp at h

theorem decode_eq_ok_iff {bytes : Array UInt8} {s : Snapshot} :
    decode bytes = .ok s ↔ s.encode.toArray = bytes :=
  ⟨encode_of_decode, fun h ↦ h ▸ decode_encode s⟩

/-- The snapshot of a state: its count of drawn words is the position in the stream. -/
def ofState (s : State) : Snapshot where
  state := s
  laps := 0

end Snapshot

end Chip8
