import Chip8.CommandLine.Run
import Chip8.Proofs.Transition

/-!
# What a run of the command line can do

Runs are about files, and files are anything that is `Faithful`: reading changes nothing, and what
was written is read. The files of a directory are.

A run reads before it writes, so what it has reached after its frames is a function of what it reads
(`reached`, `run_eq`). `StartCase` says in which **six ways** a run can start, and each case carries
the machine that the run starts with, or why there is none. The last section goes from what was
reached to how the run ends, and back: only frames end in a fault (`reached_of_fault`), and a run
that ends well has written the snapshot of the machine that it shows (`exists_of_exitCode`).
-/

namespace Chip8

/-! ### Files that keep what is written -/

namespace Files

variable {σ : Type}

/-- What is read at a path. -/
def contents (files : Files (StateM σ)) (d : σ) (path : String) :
    Except FileError (Array UInt8) :=
  ((files.read path).run d).1

/-- Reading changes nothing, and what was written at a path is read there. -/
structure Faithful (files : Files (StateM σ)) : Prop where
  state_read : ∀ path d, ((files.read path).run d).2 = d
  contents_write : ∀ path bytes d, ((files.write path bytes).run d).1 = .ok () →
    files.contents ((files.write path bytes).run d).2 path = .ok bytes

/-- A snapshot can be written at the path, whatever it says. -/
def CanSave (files : Files (StateM σ)) (d : σ) (path : String) : Prop :=
  ∀ snapshot : Vector UInt8 Snapshot.size,
    ((files.write path snapshot.toArray).run d).1 = .ok ()

/-- There is a program at the path, and it fits. -/
def CanLoad (files : Files (StateM σ)) (d : σ) (path : String) : Prop :=
  ∃ program : Array UInt8, files.contents d path = .ok program ∧ program.size ≤ maxRomSize

theorem Faithful.run_read_bind {files : Files (StateM σ)} (h : files.Faithful) {α : Type}
    (path : String) (f : Except FileError (Array UInt8) → StateM σ α) (d : σ) :
    (files.read path >>= f).run d = (f (files.contents d path)).run d := by
  show (f (files.contents d path)).run ((files.read path).run d).2 = _
  rw [h.state_read]

end Files

/-- **The files of a directory are faithful.** -/
theorem Directory.faithful_access : Directory.access.Faithful where
  state_read _ _ := rfl
  contents_write path bytes d h := by
    show ((access.write path bytes).run d).2.read path = .ok bytes
    rcases hw : d.write path bytes with e | d'
    · simp [access, StateT.run, hw] at h
    · simp only [access, StateT.run, hw]
      exact read_of_write hw

/-- A path that leads to a name in the directory can be saved at. -/
theorem Directory.canSave_access {d : Directory} {path name : String}
    (hlocate : d.locate path = .ok (.entry .here name))
    (hslash : (Path.ofString path).endsInSlash = false)
    (hsize : name.utf8ByteSize ≤ Path.maxNameSize) : Directory.access.CanSave d path := by
  intro snapshot
  have hwrite : d.write path snapshot.toArray = .ok (d.put name snapshot.toArray) :=
    write_eq_ok_iff.2 ⟨name, hlocate, hslash, hsize, rfl⟩
  simp only [access, StateT.run, hwrite]

namespace CommandLine

open Machine

variable {σ : Type} {files : Files (StateM σ)}
  {contents : String → Except FileError (Array UInt8)} {o : Options} {entropy : UInt64}
  {m : Machine}

/-! ### The stages of a run -/

theorem boot_of_size_le {program : Array UInt8} (h : program.size ≤ maxRomSize) (o : Options)
    (entropy : UInt64) : boot o program entropy = .ok (powerOn o.config ⟨program, h⟩ entropy) := by
  rw [boot, load_of_size_le h]
  rfl

theorem boot_of_lt_size {program : Array UInt8} (h : maxRomSize < program.size) (o : Options)
    (entropy : UInt64) : boot o program entropy = .error (.oversizedRom ⟨program.size⟩) := by
  rw [boot, load_of_lt_size h]

theorem resume_of_decode {bytes : Array UInt8} {s : Snapshot} (h : Snapshot.decode bytes = .ok s)
    (m : Machine) :
    resume m bytes = .ok { m with state := s.state, fault? := none, waiting := false } := by
  rw [resume, restore_of_decode h]

theorem resume_of_decode_error {bytes : Array UInt8} {e : SnapshotError}
    (h : Snapshot.decode bytes = .error e) (m : Machine) :
    resume m bytes = .error (.badSnapshot e) := by
  rw [resume, restore_of_decode_error h]

theorem play_of_none {frames : UInt64} (h : (m.runFrames frames.toNat).result.fault? = none) :
    play m (some frames) = .ok (m.runFrames frames.toNat).machine := by
  rw [play, h]

theorem play_of_fault {frames : UInt64} {f : Fault}
    (h : (m.runFrames frames.toNat).result.fault? = some f) :
    play m (some frames) = .error (.fault f) := by
  rw [play, h]

/-! ### Runs as functions of what they read -/

/-- Where a run starts, by what is read at each path. -/
def startFrom (contents : String → Except FileError (Array UInt8)) (o : Options)
    (entropy : UInt64) : Except RunError Machine :=
  match contents o.rom with
  | .error e => .error (.unreadableRom o.rom e)
  | .ok program => do
    let m ← boot o program entropy
    match o.loadState with
    | none => return m
    | some path =>
      match contents path with
      | .error e => .error (.unreadableSnapshot path e)
      | .ok bytes => resume m bytes

/-- What a run has reached after its frames, by what is read at each path. -/
def reached (contents : String → Except FileError (Array UInt8)) (o : Options)
    (entropy : UInt64) : Except RunError Machine := do
  let m ← startFrom contents o entropy
  play m o.frames

/-- How a run can start, with the machine that it starts with. -/
inductive StartCase (contents : String → Except FileError (Array UInt8)) (o : Options)
    (entropy : UInt64) : Except RunError Machine → Prop
  | unreadableRom {e : FileError} (hrom : contents o.rom = .error e) :
    StartCase contents o entropy (.error (.unreadableRom o.rom e))
  | oversizedRom {program : Array UInt8} (hrom : contents o.rom = .ok program)
    (hsize : maxRomSize < program.size) :
    StartCase contents o entropy (.error (.oversizedRom ⟨program.size⟩))
  /-- The run starts with the program. -/
  | poweredOn {program : Array UInt8} (hrom : contents o.rom = .ok program)
    (hsize : program.size ≤ maxRomSize) (hload : o.loadState = none) :
    StartCase contents o entropy (.ok (powerOn o.config ⟨program, hsize⟩ entropy))
  | unreadableSnapshot {program : Array UInt8} (hrom : contents o.rom = .ok program)
    (hsize : program.size ≤ maxRomSize) {path : String} (hload : o.loadState = some path)
    {e : FileError} (hread : contents path = .error e) :
    StartCase contents o entropy (.error (.unreadableSnapshot path e))
  | badSnapshot {program : Array UInt8} (hrom : contents o.rom = .ok program)
    (hsize : program.size ≤ maxRomSize) {path : String} (hload : o.loadState = some path)
    {bytes : Array UInt8} (hread : contents path = .ok bytes) {e : SnapshotError}
    (hs : Snapshot.decode bytes = .error e) :
    StartCase contents o entropy (.error (.badSnapshot e))
  /-- The run goes on from a snapshot, and only keeps the program in case of a restart. -/
  | resumed {program : Array UInt8} (hrom : contents o.rom = .ok program)
    (hsize : program.size ≤ maxRomSize) {path : String} (hload : o.loadState = some path)
    {bytes : Array UInt8} (hread : contents path = .ok bytes) {s : Snapshot}
    (hs : Snapshot.decode bytes = .ok s) :
    StartCase contents o entropy (.ok ⟨o.config, ⟨program, hsize⟩, s.state, none, false⟩)

theorem startFrom_of_boot {program : Array UInt8} {m : Machine}
    (hrom : contents o.rom = .ok program) (hboot : boot o program entropy = .ok m) :
    startFrom contents o entropy =
      match o.loadState with
      | none => .ok m
      | some path =>
        match contents path with
        | .error e => .error (.unreadableSnapshot path e)
        | .ok bytes => resume m bytes := by
  rw [startFrom, hrom]
  dsimp only
  rw [hboot]
  rfl

theorem StartCase.eq {x : Except RunError Machine} (h : StartCase contents o entropy x) :
    startFrom contents o entropy = x := by
  cases h with
  | unreadableRom hrom => rw [startFrom, hrom]
  | oversizedRom hrom hsize =>
    rw [startFrom, hrom]
    dsimp only
    rw [boot_of_lt_size hsize]
    rfl
  | poweredOn hrom hsize hload => rw [startFrom_of_boot hrom (boot_of_size_le hsize ..), hload]
  | unreadableSnapshot hrom hsize hload hread =>
    rw [startFrom_of_boot hrom (boot_of_size_le hsize ..), hload]
    dsimp only
    rw [hread]
  | badSnapshot hrom hsize hload hread hs =>
    rw [startFrom_of_boot hrom (boot_of_size_le hsize ..), hload]
    dsimp only
    rw [hread]
    exact resume_of_decode_error hs _
  | resumed hrom hsize hload hread hs =>
    rw [startFrom_of_boot hrom (boot_of_size_le hsize ..), hload]
    dsimp only
    rw [hread]
    exact resume_of_decode hs _

/-- **Every run starts in one of the six ways.** -/
theorem startCase (contents : String → Except FileError (Array UInt8)) (o : Options)
    (entropy : UInt64) : StartCase contents o entropy (startFrom contents o entropy) := by
  suffices h : ∃ x, StartCase contents o entropy x by
    obtain ⟨x, hx⟩ := h
    rwa [hx.eq]
  rcases hrom : contents o.rom with e | program
  · exact ⟨_, .unreadableRom hrom⟩
  rcases Nat.lt_or_ge maxRomSize program.size with hlt | hsize
  · exact ⟨_, .oversizedRom hrom hlt⟩
  rcases hload : o.loadState with - | path
  · exact ⟨_, .poweredOn hrom hsize hload⟩
  rcases hread : contents path with e | bytes
  · exact ⟨_, .unreadableSnapshot hrom hsize hload hread⟩
  rcases hs : Snapshot.decode bytes with e | s
  · exact ⟨_, .badSnapshot hrom hsize hload hread hs⟩
  · exact ⟨_, .resumed hrom hsize hload hread hs⟩

/-- Starting reads, and changes no file. -/
theorem run_start (hfiles : files.Faithful) (o : Options) (entropy : UInt64) (d : σ) :
    (start files o entropy).run d = (startFrom (files.contents d) o entropy, d) := by
  rw [start, startFrom, hfiles.run_read_bind]
  rcases files.contents d o.rom with e | program
  · rfl
  dsimp only
  rcases boot o program entropy with e | m
  · rfl
  rcases o.loadState with - | path
  · rfl
  dsimp only
  rw [hfiles.run_read_bind]
  rcases files.contents d path with e | bytes <;> rfl

/-- **A run depends on its files only through what it reads**, until it writes. -/
theorem run_eq (hfiles : files.Faithful) (o : Options) (entropy : UInt64) (d : σ) :
    (run files o entropy).run d =
      match reached (files.contents d) o entropy with
      | .error e => (.failed "" e, d)
      | .ok m => (finish files o m).run d := by
  rw [run, StateT.run_bind, run_start hfiles, reached]
  rcases startFrom (files.contents d) o entropy with e | m
  · rfl
  show StateT.run (match play m o.frames with | .error e => _ | .ok m' => _) d =
    match play m o.frames with | .error e => _ | .ok m' => _
  rcases play m o.frames with e | m' <;> rfl

/-- A run starts with a machine of its configuration that is not halted. -/
theorem running_of_startFrom (h : startFrom contents o entropy = .ok m) :
    m.fault? = none ∧ m.config = o.config := by
  have hcase := startCase contents o entropy
  rw [h] at hcase
  cases hcase with
  | poweredOn | resumed => exact ⟨rfl, rfl⟩

/-- A run of no frames reaches what it starts with. -/
theorem reached_of_no_frames (hstart : startFrom contents o entropy = .ok m)
    (hframes : o.frames = some 0) : reached contents o entropy = .ok m := by
  have hnone : (m.runFrames (0 : UInt64).toNat).result.fault? = none := rfl
  rw [reached, hstart, hframes]
  exact play_of_none hnone

/-! ### Endings -/

theorem exitCode_failed_ne_zero (output : String) (e : RunError) :
    (Ending.failed output e).exitCode ≠ 0 := by
  show (1 : UInt8) ≠ 0
  decide

section Endings

variable {path : String} {d d' : σ}

/-- A run that fails before its last stage shows nothing and changes no file. -/
theorem run_of_error (hfiles : files.Faithful) {e : RunError}
    (h : reached (files.contents d) o entropy = .error e) :
    (run files o entropy).run d = (.failed "" e, d) := by
  rw [run_eq hfiles, h]

/-- A run that can write its snapshot shows the machine that it has reached, and has saved it. -/
theorem run_of_saved (hfiles : files.Faithful) (hsave : o.saveState = some path)
    (h : reached (files.contents d) o entropy = .ok m)
    (hwrite : (files.write path m.snapshot.toArray).run d = (.ok (), d')) :
    (run files o entropy).run d = (.finished m.screen.text, d') ∧
      files.contents d' path = .ok m.snapshot.toArray := by
  have hread := hfiles.contents_write path m.snapshot.toArray d
  rw [hwrite] at hread
  refine ⟨?_, hread rfl⟩
  rw [run_eq hfiles, h]
  simp only [finish, hsave, StateT.run_bind, hwrite]
  rfl

/-- A run that cannot write its snapshot shows the machine that it has reached all the same. -/
theorem run_of_unsaved (hfiles : files.Faithful) (hsave : o.saveState = some path)
    (h : reached (files.contents d) o entropy = .ok m) {e : FileError}
    (hwrite : (files.write path m.snapshot.toArray).run d = (.error e, d')) :
    (run files o entropy).run d =
      (.failed m.screen.text (.unwritableSnapshot path e), d') := by
  rw [run_eq hfiles, h]
  simp only [finish, hsave, StateT.run_bind, hwrite]
  rfl

/-- A run that is through its frames ends well if its snapshot can be written. -/
theorem exists_run_eq_finished (hfiles : files.Faithful) (hsave : o.saveState = some path)
    (hcan : files.CanSave d path) (h : reached (files.contents d) o entropy = .ok m) :
    ∃ d', (run files o entropy).run d = (.finished m.screen.text, d') ∧
      files.contents d' path = .ok m.snapshot.toArray := by
  have hwrite := hcan m.snapshot
  rcases hw : (files.write path m.snapshot.toArray).run d with ⟨e | _, d'⟩
  · rw [hw] at hwrite
    exact absurd hwrite (by simp)
  · exact ⟨d', run_of_saved hfiles hsave h hw⟩

/-- **Only a run that is through its frames and has written its snapshot ends well.** -/
theorem exists_of_exitCode (hfiles : files.Faithful) (hsave : o.saveState = some path)
    (h : ((run files o entropy).run d).1.exitCode = 0) :
    ∃ m d', reached (files.contents d) o entropy = .ok m ∧
      (run files o entropy).run d = (.finished m.screen.text, d') ∧
      files.contents d' path = .ok m.snapshot.toArray := by
  rcases hr : reached (files.contents d) o entropy with e | m
  · rw [run_of_error hfiles hr] at h
    exact absurd h (exitCode_failed_ne_zero _ _)
  rcases hw : (files.write path m.snapshot.toArray).run d with ⟨e | _, d'⟩
  · rw [run_of_unsaved hfiles hsave hr hw] at h
    exact absurd h (exitCode_failed_ne_zero _ _)
  · exact ⟨m, d', rfl, run_of_saved hfiles hsave hr hw⟩

/-- **Only frames end in a fault.** -/
theorem reached_of_fault (hfiles : files.Faithful) (hsave : o.saveState = some path)
    {output : String} {f : Fault}
    (h : ((run files o entropy).run d).1 = .failed output (.fault f)) :
    reached (files.contents d) o entropy = .error (.fault f) := by
  rcases hr : reached (files.contents d) o entropy with e | m
  · rw [run_of_error hfiles hr] at h
    rw [(Ending.failed.inj h).2]
  rcases hw : (files.write path m.snapshot.toArray).run d with ⟨e | _, d'⟩
  · rw [run_of_unsaved hfiles hsave hr hw] at h
    exact absurd (Ending.failed.inj h).2 (by simp)
  · rw [(run_of_saved hfiles hsave hr hw).1] at h
    exact absurd h (by simp)

end Endings

theorem invoke_of_parse {arguments : List String} (h : Options.parse arguments = .ok o)
    (entropy : UInt64) : invoke files arguments entropy = run files o entropy := by
  rw [invoke, h]

end CommandLine

end Chip8
