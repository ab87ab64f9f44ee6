import Chip8.Proofs.Faults
import Chip8.Proofs.SnapshotFormat
import Chip8.Proofs.Stages

/-!
# How a headless run ends

A run of the command line that makes frames has five stages before its last one and can fail in each
of them. `Origin` is the machine that the frames start with, described by the operations of a
machine and by what the files hold, and `FirstFailure` is the error of the first stage that fails,
each with the success of all stages before it. The two exclude each other, and
`exists_firstFailure_or_completes` says that there is always one of them.

`headless_outcome` compares them with what the run does. **A run that fails before it writes leaves
all files as they were**, and one that goes through changes the file that it is to be saved in and
no other, also if it has read that file before.
-/

namespace Chip8

/-! ### Files under names -/

namespace Files

variable {σ ν : Type}

/-- Files under names, and the name that a path leads to. Writing at a path that leads to a name
changes what is under it, and nothing under another. -/
structure Stores (files : Files (StateM σ)) (get? : σ → ν → Option (Array UInt8))
    (target? : σ → String → Option ν) : Prop extends files.Faithful where
  exists_target : ∀ path bytes d, ((files.write path bytes).run d).1 = .ok () →
    ∃ name, target? d path = some name ∧
      get? ((files.write path bytes).run d).2 name = some bytes ∧
      ∀ other, other ≠ name →
        get? ((files.write path bytes).run d).2 other = get? d other

end Files

/-- The name in the directory that a path leads to. -/
def Directory.target? (d : Directory) (path : String) : Option String :=
  match d.locate path with
  | .ok (.entry .here name) => some name
  | _ => none

/-- **The files of a directory are kept under their names.** -/
theorem Directory.stores_access : Directory.access.Stores Directory.get? Directory.target? where
  toFaithful := Directory.faithful_access
  exists_target path bytes d h := by
    rcases hw : d.write path bytes with e | d'
    · simp [access, StateT.run, hw] at h
    · obtain ⟨name, hlocate, -, -, rfl⟩ := write_eq_ok_iff.1 hw
      simp only [access, StateT.run, hw]
      exact ⟨name, by rw [target?, hlocate], get?_put_self d name bytes,
        fun other hne ↦ get?_put_of_ne d bytes hne⟩

namespace CommandLine

open Machine

variable {σ ν : Type} {files : Files (StateM σ)} {get? : σ → ν → Option (Array UInt8)}
  {target? : σ → String → Option ν} {contents : String → Except FileError (Array UInt8)}
  {o : Options} {frames entropy : UInt64} {d : σ} {m : Machine} {e : RunError}

/-! ### The stages, one after the other -/

/-- A machine that was switched on and has loaded a program. -/
def loaded (o : Options) (program : Array UInt8) (entropy : UInt64) : Machine :=
  ((powerOn o.config Rom.empty entropy).load program entropy).machine

/-- The machine that the frames of a run start with. -/
inductive Origin (contents : String → Except FileError (Array UInt8)) (o : Options)
    (entropy : UInt64) : Machine → Prop
  /-- The program can be read and fits, and there is no snapshot to start from. -/
  | program {program : Array UInt8} (hrom : contents o.rom = .ok program)
    (hsize : program.size ≤ 3584) (hload : o.loadState = none) :
    Origin contents o entropy (loaded o program entropy)
  /-- The program can be read and fits, and so can the snapshot. -/
  | snapshot {program : Array UInt8} (hrom : contents o.rom = .ok program)
    (hsize : program.size ≤ 3584) {path : String} (hload : o.loadState = some path)
    {bytes : Array UInt8} (hread : contents path = .ok bytes) (hbytes : bytes.size = 4458)
    (hversion : bytes[0]? = some 2) :
    Origin contents o entropy ((loaded o program entropy).restore bytes).machine

/-- The first stage of a run of so many frames that fails, by its error. -/
inductive FirstFailure (files : Files (StateM σ)) (o : Options) (frames entropy : UInt64) (d : σ) :
    RunError → Prop
  | readRom {e : FileError} (hrom : files.contents d o.rom = .error e) :
    FirstFailure files o frames entropy d (.unreadableRom o.rom e)
  | loadRom {program : Array UInt8} (hrom : files.contents d o.rom = .ok program)
    (hsize : 3584 < program.size) :
    FirstFailure files o frames entropy d (.oversizedRom ⟨program.size⟩)
  | readSnapshot {program : Array UInt8} (hrom : files.contents d o.rom = .ok program)
    (hsize : program.size ≤ 3584) {path : String} (hload : o.loadState = some path)
    {e : FileError} (hread : files.contents d path = .error e) :
    FirstFailure files o frames entropy d (.unreadableSnapshot path e)
  | restore {program : Array UInt8} (hrom : files.contents d o.rom = .ok program)
    (hsize : program.size ≤ 3584) {path : String} (hload : o.loadState = some path)
    {bytes : Array UInt8} (hread : files.contents d path = .ok bytes) {e : SnapshotError}
    (hbytes : ((loaded o program entropy).restore bytes).result = .error e) :
    FirstFailure files o frames entropy d (.badSnapshot e)
  | runFrames {m : Machine} (horigin : Origin (files.contents d) o entropy m) {f : Fault}
    (hfault : (m.runFrames frames.toNat).result.fault? = some f) :
    FirstFailure files o frames entropy d (.fault f)
  | write {m : Machine} (horigin : Origin (files.contents d) o entropy m)
    (hplayed : (m.runFrames frames.toNat).result.fault? = none) {path : String}
    (hsave : o.saveState = some path) {e : FileError}
    (hwrite : ((files.write path (m.runFrames frames.toNat).machine.snapshot.toArray).run d).1 =
      .error e) :
    FirstFailure files o frames entropy d (.unwritableSnapshot path e)

/-- The frames of a run go through, and what they lead to can be saved where it is to be saved. -/
structure Completes (files : Files (StateM σ)) (o : Options) (frames : UInt64) (d : σ)
    (m : Machine) : Prop where
  played : (m.runFrames frames.toNat).result.fault? = none
  saved : ∀ path, o.saveState = some path →
    ((files.write path (m.runFrames frames.toNat).machine.snapshot.toArray).run d).1 = .ok ()

/-! ### Stages and starts -/

theorem loaded_of_size_le {program : Array UInt8} (h : program.size ≤ maxRomSize) (o : Options)
    (entropy : UInt64) : loaded o program entropy = powerOn o.config ⟨program, h⟩ entropy :=
  congrArg Outcome.machine (load_of_size_le h entropy)

/-- **A run starts with a machine exactly if that is its origin.** -/
theorem startFrom_eq_ok_iff :
    startFrom contents o entropy = .ok m ↔ Origin contents o entropy m := by
  constructor
  · intro h
    have hcase := startCase contents o entropy
    rw [h] at hcase
    cases hcase with
    | poweredOn hrom hsize hload =>
      rw [← loaded_of_size_le hsize]
      exact .program hrom hsize hload
    | @resumed program hrom hsize path hload bytes hread s hs =>
      obtain ⟨hbytes, hversion⟩ := Snapshot.exists_decode_iff.1 ⟨s, hs⟩
      have horigin : Origin contents o entropy _ :=
        .snapshot hrom hsize hload hread hbytes hversion
      rwa [loaded_of_size_le hsize, restore_of_decode hs] at horigin
  · intro h
    cases h with
    | program hrom hsize hload =>
      rw [loaded_of_size_le hsize]
      exact StartCase.eq (.poweredOn hrom hsize hload)
    | snapshot hrom hsize hload hread hbytes hversion =>
      obtain ⟨s, hs⟩ := Snapshot.exists_decode_iff.2 ⟨hbytes, hversion⟩
      rw [loaded_of_size_le hsize, restore_of_decode hs]
      exact StartCase.eq (.resumed hrom hsize hload hread hs)

/-- What a run has reached if its frames go through. -/
theorem Origin.reached_eq (h : Origin contents o entropy m) (hframes : o.frames = some frames)
    (hplayed : (m.runFrames frames.toNat).result.fault? = none) :
    reached contents o entropy = .ok (m.runFrames frames.toNat).machine := by
  rw [reached, startFrom_eq_ok_iff.2 h, hframes]
  exact play_of_none hplayed

/-- Once a run has started, its frames or the last stage fail, or it completes. -/
theorem Origin.exists_firstFailure_or_completes (h : Origin (files.contents d) o entropy m)
    (frames : UInt64) :
    (∃ e, FirstFailure files o frames entropy d e) ∨ Completes files o frames d m := by
  rcases hplayed : (m.runFrames frames.toNat).result.fault? with - | f
  · rcases hsave : o.saveState with - | path
    · exact .inr ⟨hplayed, fun path hpath ↦ absurd (hsave.symm.trans hpath) (by simp)⟩
    rcases hwrite : ((files.write path
      (m.runFrames frames.toNat).machine.snapshot.toArray).run d).1 with e | u
    · exact .inl ⟨_, .write h hplayed hsave hwrite⟩
    · refine .inr ⟨hplayed, fun path' hpath ↦ ?_⟩
      obtain rfl := Option.some.inj (hsave.symm.trans hpath)
      exact hwrite
  · exact .inl ⟨_, .runFrames h hplayed⟩

/-- **Some stage fails first, or the run completes.** -/
theorem exists_firstFailure_or_completes (files : Files (StateM σ)) (o : Options)
    (frames entropy : UInt64) (d : σ) :
    (∃ e, FirstFailure files o frames entropy d e) ∨
      ∃ m, Origin (files.contents d) o entropy m ∧ Completes files o frames d m := by
  have hcase := startCase (files.contents d) o entropy
  rcases hstart : startFrom (files.contents d) o entropy with e | m
  · left
    rw [hstart] at hcase
    cases hcase with
    | unreadableRom hrom => exact ⟨_, .readRom hrom⟩
    | oversizedRom hrom hsize => exact ⟨_, .loadRom hrom hsize⟩
    | unreadableSnapshot hrom hsize hload hread => exact ⟨_, .readSnapshot hrom hsize hload hread⟩
    | badSnapshot hrom hsize hload hread hs =>
      exact ⟨_, .restore hrom hsize hload hread
        (congrArg Outcome.result (restore_of_decode_error hs))⟩
  · have horigin := startFrom_eq_ok_iff.1 hstart
    exact (horigin.exists_firstFailure_or_completes frames).imp_right fun h ↦ ⟨m, horigin, h⟩

/-! ### What the run does -/

/-- **The first failure is what the run ends with**, and if it comes before the last stage, nothing
was shown and no file was touched. -/
theorem FirstFailure.run_eq (hfiles : files.Faithful) (hframes : o.frames = some frames)
    (h : FirstFailure files o frames entropy d e) :
    (∃ output, ((run files o entropy).run d).1 = .failed output e) ∧
      ((∀ path e', e ≠ .unwritableSnapshot path e') →
        (run files o entropy).run d = (.failed "" e, d)) := by
  have hearly (hreached : reached (files.contents d) o entropy = .error e) :
      (∃ output, ((run files o entropy).run d).1 = .failed output e) ∧
        ((∀ path e', e ≠ .unwritableSnapshot path e') →
          (run files o entropy).run d = (.failed "" e, d)) := by
    rw [run_of_error hfiles hreached]
    exact ⟨⟨_, rfl⟩, fun _ ↦ rfl⟩
  cases h with
  | readRom hrom =>
    refine hearly ?_
    rw [reached, StartCase.eq (.unreadableRom hrom)]
    rfl
  | loadRom hrom hsize =>
    refine hearly ?_
    rw [reached, StartCase.eq (.oversizedRom hrom hsize)]
    rfl
  | readSnapshot hrom hsize hload hread =>
    refine hearly ?_
    rw [reached, StartCase.eq (.unreadableSnapshot hrom hsize hload hread)]
    rfl
  | @restore program hrom hsize path hload bytes hread e hbytes =>
    have hs : Snapshot.decode bytes = .error e := by
      rcases hs : Snapshot.decode bytes with e' | s
      · rw [restore_of_decode_error hs] at hbytes
        rw [Except.error.inj hbytes]
      · rw [restore_of_decode hs] at hbytes
        exact absurd hbytes (by simp)
    refine hearly ?_
    rw [reached, StartCase.eq (.badSnapshot hrom hsize hload hread hs)]
    rfl
  | runFrames horigin hfault =>
    refine hearly ?_
    rw [reached, startFrom_eq_ok_iff.2 horigin, hframes]
    exact play_of_fault hfault
  | @write m horigin hplayed path hsave e hwrite =>
    refine ⟨?_, fun hne ↦ absurd rfl (hne path e)⟩
    rw [run_of_unsaved hfiles hsave (horigin.reached_eq hframes hplayed) (Prod.ext hwrite rfl)]
    exact ⟨_, rfl⟩

/-- **A run that completes shows the screen after its frames**, and has saved the machine in the
file that it is to be saved in, and changed no other. -/
theorem Completes.run_eq (hfiles : files.Stores get? target?) (hframes : o.frames = some frames)
    (horigin : Origin (files.contents d) o entropy m) (h : Completes files o frames d m) :
    let r := (run files o entropy).run d
    let n := (m.runFrames frames.toNat).machine
    r.1 = .finished n.screen.text ∧ (o.saveState = none → r.2 = d) ∧
      ∀ path, o.saveState = some path → files.contents r.2 path = .ok n.snapshot.toArray ∧
        ∃ name, target? d path = some name ∧ get? r.2 name = some n.snapshot.toArray ∧
          ∀ other, other ≠ name → get? r.2 other = get? d other := by
  intro r n
  have hreached := horigin.reached_eq hframes h.played
  rcases hsave : o.saveState with - | path
  · have hrun : r = (.finished n.screen.text, d) := by
      rw [show r = _ from CommandLine.run_eq hfiles.toFaithful o entropy d, hreached]
      simp only [finish, hsave]
      rfl
    rw [hrun]
    exact ⟨rfl, fun _ ↦ rfl, fun path hpath ↦ absurd hpath (by simp)⟩
  · have hwrite := h.saved path hsave
    obtain ⟨hrun, hread⟩ :=
      run_of_saved hfiles.toFaithful hsave hreached (Prod.ext hwrite rfl)
    rw [show r = _ from hrun]
    refine ⟨rfl, fun hnone ↦ absurd hnone (by simp), fun path' hpath ↦ ?_⟩
    obtain rfl := Option.some.inj hpath
    exact ⟨hread, hfiles.exists_target path _ d hwrite⟩

/-- **How a headless run ends.** Take any arguments that are accepted and ask for frames, and any
files. The run ends with exit code 0 exactly if the program can be read and fits, the snapshot to
start from, if there is to be one, can be read and is one, no frame faults, and what the frames lead
to can be saved. Otherwise it ends with exit code 1 and the error of the first of these stages that
fails. If this is not the last one, nothing is shown and no file is created or changed. A run that
completes shows the screen after its frames. The file that it is to be saved in holds the snapshot
of that machine, and no other file has changed. -/
theorem headless_outcome (hfiles : files.Stores get? target?) {arguments : List String}
    (hparse : Options.parse arguments = .ok o) (hframes : o.frames = some frames)
    (entropy : UInt64) (d : σ) :
    let r := (invoke files arguments entropy).run d
    (r.1.exitCode = 0 ↔
      ∃ m, Origin (files.contents d) o entropy m ∧ Completes files o frames d m) ∧
    (r.1.exitCode ≠ 0 → r.1.exitCode = 1 ∧
      ∃ e output, FirstFailure files o frames entropy d e ∧ r.1 = .failed output e) ∧
    (∀ e, FirstFailure files o frames entropy d e → (∃ output, r.1 = .failed output e) ∧
      ((∀ path e', e ≠ .unwritableSnapshot path e') → r = (.failed "" e, d))) ∧
    ∀ m, Origin (files.contents d) o entropy m → Completes files o frames d m →
      let n := (m.runFrames frames.toNat).machine
      r.1 = .finished n.screen.text ∧ (o.saveState = none → r.2 = d) ∧
        ∀ path, o.saveState = some path → files.contents r.2 path = .ok n.snapshot.toArray ∧
          ∃ name, target? d path = some name ∧ get? r.2 name = some n.snapshot.toArray ∧
            ∀ other, other ≠ name → get? r.2 other = get? d other := by
  intro r
  have hr : r = (run files o entropy).run d := by
    rw [← invoke_of_parse hparse]
  have hfails : ∀ e, FirstFailure files o frames entropy d e → (∃ output, r.1 = .failed output e) ∧
      ((∀ path e', e ≠ .unwritableSnapshot path e') → r = (.failed "" e, d)) := by
    intro e he
    rw [hr]
    exact he.run_eq hfiles.toFaithful hframes
  have hcompletes := fun m (horigin : Origin (files.contents d) o entropy m)
    (h : Completes files o frames d m) ↦ h.run_eq hfiles hframes horigin
  rw [← hr] at hcompletes
  refine ⟨⟨fun hzero ↦ ?_, ?_⟩, fun hne ↦ ?_, hfails, hcompletes⟩
  · refine (exists_firstFailure_or_completes files o frames entropy d).resolve_left ?_
    rintro ⟨e, he⟩
    obtain ⟨output, hfailed⟩ := (hfails e he).1
    rw [hfailed] at hzero
    exact exitCode_failed_ne_zero _ _ hzero
  · rintro ⟨m, horigin, h⟩
    rw [(hcompletes m horigin h).1]
    rfl
  · rcases exists_firstFailure_or_completes files o frames entropy d with ⟨e, he⟩ | ⟨m, horigin, h⟩
    · obtain ⟨output, hfailed⟩ := (hfails e he).1
      exact ⟨by rw [hfailed]; rfl, e, output, he, hfailed⟩
    · rw [(hcompletes m horigin h).1] at hne
      exact absurd rfl hne

/-- A run that loads and saves the same file, and one that its first step ends, which leaves that
file alone. -/
theorem headless_outcome_of_twos :
    let twos := Array.replicate 4458 (2 : UInt8)
    let d : Directory := ⟨[("empty", #[]), ("twos", twos)]⟩
    let kept := (invoke Directory.access
      ["empty", "--frames=0", "--load-state=twos", "--save-state=twos"] 0).run d
    let cut := (invoke Directory.access ["empty", "--frames=1", "--save-state=twos"] 0).run d
    Directory.access.Stores Directory.get? Directory.target? ∧
      (∃ m : Machine, kept.1 = .finished m.screen.text ∧
        kept.2.get? "twos" = some m.snapshot.toArray) ∧
      kept.2.get? "empty" = some #[] ∧ kept.1.exitCode = 0 ∧
      cut = (.failed "" (.fault (.invalidOpcode 0 0x200)), d) ∧ cut.1.exitCode = 1 := by
  intro twos d kept cut
  have hfiles := Directory.stores_access
  let o : Options := ⟨"empty", [], none, none, some 0, some "twos", some "twos"⟩
  let o' : Options := ⟨"empty", [], none, none, some 1, none, some "twos"⟩
  have hparse : Options.parse ["empty", "--frames=0", "--load-state=twos", "--save-state=twos"] =
      .ok o := rfl
  have hparse' : Options.parse ["empty", "--frames=1", "--save-state=twos"] = .ok o' := rfl
  have hrom : Directory.access.contents d "empty" = .ok #[] := rfl
  have hread : Directory.access.contents d "twos" = .ok twos := rfl
  have hcan : Directory.access.CanSave d "twos" :=
    Directory.canSave_access (show d.locate "twos" = .ok (.entry .here "twos") from rfl) rfl
      (by decide)
  have horigin : Origin (Directory.access.contents d) o 0 ((loaded o #[] 0).restore twos).machine :=
    .snapshot hrom (by decide) rfl hread (by simp [twos]) (by simp [twos])
  have horigin' : Origin (Directory.access.contents d) o' 0 (loaded o' #[] 0) :=
    .program hrom (by decide) rfl
  have hfault : ((loaded o' #[] 0).runFrames (1 : UInt64).toNat).result.fault? =
      some (.invalidOpcode 0 0x200) := by
    have hstep := result_step_powerOn_empty o'.config 0
    rw [loaded_of_size_le (by decide)]
    show (series runFrame (0 + 1) 0 #[] (powerOn o'.config Rom.empty 0)).result.fault? = _
    rw [series_succ_of_error (result_runFrame_of_step_error hstep)]
  -- nothing else counts about the two machines
  generalize ((loaded o #[] 0).restore twos).machine = m at horigin
  generalize loaded o' #[] 0 = m' at horigin' hfault
  obtain ⟨hzero, -, -, hkept⟩ := headless_outcome hfiles hparse rfl 0 d
  obtain ⟨-, -, hcut, -⟩ := headless_outcome hfiles hparse' rfl 0 d
  have hcompletes : Completes Directory.access o 0 d m := by
    refine ⟨rfl, fun path hpath ↦ ?_⟩
    obtain rfl := Option.some.inj hpath
    exact hcan _
  obtain ⟨hshown, -, hsaved⟩ := hkept m horigin hcompletes
  obtain ⟨-, name, hname, hwritten, hothers⟩ := hsaved "twos" rfl
  obtain rfl : "twos" = name := Option.some.inj hname
  have hfailed := (hcut _ (.runFrames horigin' hfault)).2 (by simp)
  refine ⟨hfiles, ⟨m, hshown, hwritten⟩, (hothers "empty" (by decide)).trans rfl,
    hzero.2 ⟨m, horigin, hcompletes⟩, hfailed, ?_⟩
  rw [show cut = _ from hfailed]
  rfl

end CommandLine

end Chip8
