import Chip8.Proofs.SnapshotLayout
import Chip8.Proofs.Transition

/-!
# Exactness of the snapshot format

Which bytes are a snapshot is decided by two things alone, their number and the first of them, and
every snapshot has one written form. `snapshot_format_exact` says this of a machine that restores
arbitrary bytes: when it accepts them, what it reports otherwise, that a refusal changes nothing at
all, and that **it saves again what it has restored**, but for laps of the random stream that are
already complete.
-/

namespace Chip8

namespace Snapshot

variable {bytes : Array UInt8}

/-! ### Acceptance -/

theorem decode_of_size_ne (h : bytes.size ≠ size) :
    decode bytes = .error (.wrongSize bytes.size) := by
  have hsize : ¬ bytes.size = 1 + 4457 := h
  rw [decode, dif_neg hsize]

/-- The first byte is all that the layout leaves to be checked. -/
theorem getElem_cut_zero (h : bytes.size = 1 + 4457) :
    (Codec.cut (⟨bytes, h⟩ : Vector UInt8 (1 + 4457))).1[0]? = bytes[0]? := by
  simp [Codec.cut, -Vector.take_eq_extract]

theorem decode_of_size_eq (h : bytes.size = size) {v : UInt8} (hv : bytes[0]? = some v) :
    if v = version then ∃ s, decode bytes = .ok s
    else decode bytes = .error (.unsupportedVersion v) := by
  have hsize : bytes.size = 1 + 4457 := h
  have hfirst : (Codec.cut (⟨bytes, hsize⟩ : Vector UInt8 (1 + 4457))).1[0] = v := by
    have hcut := getElem_cut_zero hsize
    rw [hv, Vector.getElem?_eq_getElem (by decide)] at hcut
    exact Option.some.inj hcut
  rw [decode, dif_pos hsize]
  simp only [hfirst]
  split
  · exact ⟨_, rfl⟩
  · rfl

/-- **Bytes are a snapshot exactly if there are 4458 of them and the first is the version.** -/
theorem exists_decode_iff :
    (∃ s, decode bytes = .ok s) ↔ bytes.size = size ∧ bytes[0]? = some version := by
  constructor
  · rintro ⟨s, hs⟩
    have hform : s.encode.toArray = bytes := encode_of_decode hs
    rw [← hform]
    have hfirst : s.encode.toList[0]? = some version := by
      rw [toList_encode, frontBytes]
      rfl
    exact ⟨s.encode.size_toArray, Array.getElem?_toList.symm.trans hfirst⟩
  · rintro ⟨hsize, hversion⟩
    have h := decode_of_size_eq hsize hversion
    rwa [if_pos rfl] at h

end Snapshot

namespace Machine

theorem result_restore_eq_ok_iff {m : Machine} {bytes : Array UInt8} :
    (m.restore bytes).result = .ok () ↔ ∃ s, Snapshot.decode bytes = .ok s := by
  rcases hs : Snapshot.decode bytes with e | s
  · rw [restore_of_decode_error hs]
    simp
  · rw [restore_of_decode hs]
    simp

/-- **The format is exact.** Bytes are accepted exactly if there are 4458 of them and the first is
the version 2; their number is checked first, and a refusal leaves the whole machine as it was. Each
snapshot is what its written form reads as, each accepted byte string is the written form of what it
reads as, and a reader that goes through the fields uses up its bytes exactly. A machine saves again
what it has restored, with the count of drawn words reduced to the position in the stream, so
restoring what it would save itself never changes what it saves. -/
theorem snapshot_format_exact (m : Machine) (bytes : Array UInt8) :
    let o := m.restore bytes
    (o.result = .ok () ↔ bytes.size = 4458 ∧ bytes[0]? = some 2) ∧
      (bytes.size ≠ 4458 → o.result = .error (.wrongSize bytes.size)) ∧
      (∀ v, bytes.size = 4458 → bytes[0]? = some v → v ≠ 2 →
        o.result = .error (.unsupportedVersion v)) ∧
      (o.result ≠ .ok () → o.machine = m) ∧
      (∀ s : Snapshot, Snapshot.decode s.encode.toArray = .ok s) ∧
      (o.result = .ok () →
        (∃ s : Snapshot, Snapshot.decode bytes = .ok s ∧ s.encode.toArray = bytes ∧
          Snapshot.read? bytes.toList = some (s, [])) ∧
        (∀ i < 4442, o.machine.snapshot[i]? = bytes[i]?) ∧
        Snapshot.drawnWords o.machine.snapshot.toArray = Snapshot.drawnWords bytes % 2 ^ 68) ∧
      (m.restore m.snapshot.toArray).result = .ok () ∧
      (m.restore m.snapshot.toArray).machine.snapshot = m.snapshot := by
  intro o
  refine ⟨?_, ?_, ?_, ?_, Snapshot.decode_encode, ?_, ?_, ?_⟩
  · exact result_restore_eq_ok_iff.trans Snapshot.exists_decode_iff
  · intro hsize
    exact congrArg Outcome.result (restore_of_decode_error (Snapshot.decode_of_size_ne hsize))
  · intro v hsize hv hne
    have h := Snapshot.decode_of_size_eq hsize hv
    rw [if_neg (show v ≠ Snapshot.version from hne)] at h
    exact congrArg Outcome.result (restore_of_decode_error h)
  · intro hrefused
    rcases hs : Snapshot.decode bytes with e | s
    · exact congrArg Outcome.machine (restore_of_decode_error hs)
    · exact absurd (result_restore_eq_ok_iff.2 ⟨s, hs⟩) hrefused
  · intro haccepted
    obtain ⟨s, hs⟩ := result_restore_eq_ok_iff.1 haccepted
    have hform : s.encode.toArray = bytes := Snapshot.encode_of_decode hs
    have hsaved : o.machine.snapshot = (Snapshot.ofState s.state).encode := by
      rw [show o = m.restore bytes from rfl, restore_of_decode hs]
      rfl
    refine ⟨⟨s, hs, hform, ?_⟩, ?_, ?_⟩
    · rw [← hform]
      exact Snapshot.read?_encode s
    · intro i hi
      rw [← hform, hsaved, ← Array.getElem?_toList, ← Vector.getElem?_toList]
      exact Snapshot.getElem?_encode_withLaps s 0 hi
    · rw [← hform, hsaved, Snapshot.drawnWords_mod, Snapshot.drawnWords_encode]
      exact Snapshot.toNat_count_zero s.state.random.position
  · rw [restore_snapshot]
  · rw [restore_snapshot]
    rfl

/-- A byte string of nothing but twos is a snapshot, whose count of drawn words is far beyond the
last position; shorter ones and those of nothing but nines are none. -/
theorem snapshot_format_exact_of_twos :
    let m := powerOn {} Rom.empty 0
    let twos := Array.replicate 4458 (2 : UInt8)
    let o := m.restore twos
    o.result = .ok () ∧
      (∃ s : Snapshot, Snapshot.decode twos = .ok s ∧ s.encode.toArray = twos ∧
        Snapshot.read? twos.toList = some (s, [])) ∧
      o.machine.snapshot[4441]? = some 2 ∧
      Snapshot.drawnWords o.machine.snapshot.toArray = Snapshot.drawnWords twos % 2 ^ 68 ∧
      (m.restore (Array.replicate 3 9)).result = .error (.wrongSize 3) ∧
      (m.restore (Array.replicate 4458 9)).result = .error (.unsupportedVersion 9) ∧
      (m.restore (Array.replicate 4458 9)).machine = m := by
  intro m twos o
  obtain ⟨hiff, -, -, -, -, haccepted, -⟩ := snapshot_format_exact m twos
  obtain ⟨-, hsize, -⟩ := snapshot_format_exact m (Array.replicate 3 9)
  obtain ⟨-, -, hversion, hrefused, -⟩ := snapshot_format_exact m (Array.replicate 4458 9)
  have hok : o.result = .ok () := hiff.2 (by simp [twos])
  have hnines : (m.restore (Array.replicate 4458 9)).result = .error (.unsupportedVersion 9) :=
    hversion 9 (by simp) (by simp) (by decide)
  obtain ⟨hread, hbytes, hcount⟩ := haccepted hok
  refine ⟨hok, hread, ?_, hcount, ?_, hnines, hrefused (by rw [hnines]; simp)⟩
  · rw [hbytes 4441 (by decide)]
    simp [twos]
  · rw [hsize (by simp)]
    simp

end Machine

end Chip8
