import Chip8.Proofs.Replay
import Chip8.Proofs.Stages

/-!
# Runs that are split in two

A run of the command line can be cut between any two of its frames: a first run writes a snapshot,
and a second one starts from it and makes the frames that are left. `invoke_split` says that
**nothing is lost at the cut**. The second run shows and writes what the whole run does, and a fault
that ends the whole run ends one of the two with the same report.

The proof follows what the runs have reached after their frames.

* The first run starts with the machine that the whole run starts with, and frames are played in two
  parts as they are in one, so the whole run reaches what the first one reaches after the frames of
  the second (`Split.reached_whole`).
* The second run plays these frames on another machine. It has restored the snapshot of the first,
  and is `Machine.Alike` to it (`Split.reached_rest`).
-/

namespace Chip8

namespace Machine

/-- With a seed nothing else decides where the random numbers start. -/
theorem powerOn_of_seed {config : Config} (h : config.seed.isSome) (rom : Rom)
    (entropy entropy' : UInt64) : powerOn config rom entropy = powerOn config rom entropy' := by
  obtain ⟨seed, hseed⟩ := Option.isSome_iff_exists.1 h
  rw [powerOn, powerOn, hseed]
  rfl

end Machine

namespace CommandLine

open Machine

variable {σ : Type} {files : Files (StateM σ)}
  {contents contents₁ contents₂ : String → Except FileError (Array UInt8)}
  {o o₁ o₂ : Options} {entropy entropy₁ entropy₂ : UInt64} {m : Machine}

/-! ### Frames -/

/-- **Frames are played in two parts as they are in one.** -/
theorem play_add (m : Machine) {n k : UInt64} (h : n.toNat + k.toNat < UInt64.size) :
    play m (some (n + k)) = play m (some n) >>= fun m' ↦ play m' (some k) := by
  have hsum : (n + k).toNat = n.toNat + k.toNat := by
    rw [UInt64.toNat_add]
    exact Nat.mod_eq_of_lt h
  rcases hf : (m.runFrames n.toNat).result.fault? with - | f
  · have hadd : m.runFrames (n.toNat + k.toNat) = _ := series_add_of_none hf k.toNat
    rw [play_of_none hf, play, hsum, hadd]
    rfl
  · have hadd : m.runFrames (n.toNat + k.toNat) = m.runFrames n.toNat :=
      series_add_of_fault hf k.toNat
    rw [play_of_fault hf, play, hsum, hadd, hf]
    rfl

/-- Frames keep the configuration, and that the fault stands. -/
theorem faultStands_of_play {m' : Machine} {frames : Option UInt64}
    (h : play m frames = .ok m') (hm : m.FaultStands) : m'.FaultStands ∧ m'.config = m.config := by
  rcases frames with - | n
  · exact absurd h (by simp [play])
  rcases hf : (m.runFrames n.toNat).result.fault? with - | f
  · rw [play_of_none hf] at h
    obtain rfl := Except.ok.inj h
    exact series_induction (P := fun a ↦ a.FaultStands ∧ a.config = m.config)
      (fun a ha ↦ ⟨ha.1.runFrame, a.config_runFrame.trans ha.2⟩) n.toNat ⟨hm, rfl⟩
  · rw [play_of_fault hf] at h
    exact absurd h (by simp)

/-- Frames of machines that are alike end with the same fault, or with machines that are alike. -/
theorem play_alike {r m : Machine} (h : Alike r m) (frames : UInt64) :
    (∃ f, play r (some frames) = .error (.fault f) ∧ play m (some frames) = .error (.fault f)) ∨
      ∃ r' m', play r (some frames) = .ok r' ∧ play m (some frames) = .ok m' ∧ Alike r' m' := by
  obtain ⟨⟨-, hfault⟩, hlast⟩ := Alike.lockstep.runFrames h frames.toNat
  generalize hr : (r.runFrames frames.toNat).result.fault? = x at hfault
  generalize hm : (m.runFrames frames.toNat).result.fault? = y at hfault
  cases hfault with
  | none => exact .inr ⟨_, _, play_of_none hr, play_of_none hm, hlast⟩
  | some hfg => exact .inl ⟨_, play_of_fault hr, by rw [play_of_fault hm, hfg]⟩

/-- What a run has reached has its configuration, and the fault stands. -/
theorem faultStands_of_reached (h : reached contents o entropy = .ok m) :
    m.FaultStands ∧ m.config = o.config := by
  rw [reached] at h
  rcases hs : startFrom contents o entropy with e | m₀
  · rw [hs] at h
    exact absurd h (by simp [bind, Except.bind])
  · rw [hs] at h
    obtain ⟨hrunning, hconfig⟩ := running_of_startFrom hs
    obtain ⟨hstands, hkept⟩ := faultStands_of_play h (faultStands_of_running hrunning)
    exact ⟨hstands, hkept.trans hconfig⟩

/-! ### The cut -/

/-- What a run reads: the program, and the snapshot that it starts from. -/
def Options.Reads (o : Options) (path : String) : Prop :=
  path = o.rom ∨ o.loadState = some path

/-- Two runs start from the same program and snapshot in the same configuration, and that decides
the random numbers: there is a seed, or the snapshot says how they go on. -/
structure SameStart (o o₁ : Options) : Prop where
  rom : o₁.rom = o.rom
  config : o₁.config = o.config
  loadState : o₁.loadState = o.loadState
  decided : o.seed.isSome ∨ o.loadState.isSome

/-- A run of `n + k` frames that is saved at `save`, a run of its first `n` frames that is saved at
`cut`, and a run that goes on from there for `k` frames and is saved at `save₂`. -/
structure Split (o o₁ o₂ : Options) (n k : UInt64) (save cut save₂ : String) : Prop where
  sameStart : SameStart o o₁
  dialect : o₂.config.dialect = o.config.dialect
  clockRate : o₂.config.clockRate = o.config.clockRate
  /-- The number of all frames does not overflow. -/
  lt_size : n.toNat + k.toNat < UInt64.size
  frames : o.frames = some (n + k)
  frames₁ : o₁.frames = some n
  frames₂ : o₂.frames = some k
  saveState : o.saveState = some save
  saveState₁ : o₁.saveState = some cut
  saveState₂ : o₂.saveState = some save₂
  loadState₂ : o₂.loadState = some cut

/-- **The same start is the same machine**, whatever the entropy. -/
theorem SameStart.startFrom_eq (h : SameStart o o₁)
    (hsame : ∀ path, o.Reads path → contents₁ path = contents path)
    (entropy entropy₁ : UInt64) :
    startFrom contents₁ o₁ entropy₁ = startFrom contents o entropy := by
  suffices hcase : StartCase contents₁ o₁ entropy₁ (startFrom contents o entropy) from hcase.eq
  have hcase := startCase contents o entropy
  have hrom₁ : contents₁ o₁.rom = contents o.rom := by rw [h.rom, hsame _ (.inl rfl)]
  generalize startFrom contents o entropy = x at hcase ⊢
  cases hcase with
  | unreadableRom hrom =>
    rw [← h.rom]
    exact .unreadableRom (hrom₁.trans hrom)
  | oversizedRom hrom hsize => exact .oversizedRom (hrom₁.trans hrom) hsize
  | poweredOn hrom hsize hload =>
    -- without a snapshot there is a seed
    have hseed : o.config.seed.isSome := h.decided.resolve_right (by simp [hload])
    rw [powerOn_of_seed hseed _ entropy entropy₁, ← h.config]
    exact .poweredOn (hrom₁.trans hrom) hsize (h.loadState.trans hload)
  | @unreadableSnapshot program hrom hsize path hload e hread =>
    exact .unreadableSnapshot (hrom₁.trans hrom) hsize (h.loadState.trans hload)
      ((hsame path (.inr hload)).trans hread)
  | @badSnapshot program hrom hsize path hload bytes hread e hs =>
    exact .badSnapshot (hrom₁.trans hrom) hsize (h.loadState.trans hload)
      ((hsame path (.inr hload)).trans hread) hs
  | @resumed program hrom hsize path hload bytes hread s hs =>
    rw [← h.config]
    exact .resumed (hrom₁.trans hrom) hsize (h.loadState.trans hload)
      ((hsame path (.inr hload)).trans hread) hs

namespace Split

variable {n k : UInt64} {save cut save₂ : String}

/-- **The whole run reaches what the first one reaches after `k` frames more.** -/
theorem reached_whole (h : Split o o₁ o₂ n k save cut save₂)
    (hsame : ∀ path, o.Reads path → contents₁ path = contents path)
    (entropy entropy₁ : UInt64) :
    reached contents o entropy =
      reached contents₁ o₁ entropy₁ >>= fun m ↦ play m (some k) := by
  rw [reached, reached, h.sameStart.startFrom_eq hsame entropy, h.frames, h.frames₁]
  rcases startFrom contents o entropy with e | m
  · rfl
  · exact play_add m h.lt_size

/-- **Once the first run is through its frames, the second one reaches what the whole one does**, or
something alike, or both end in the same fault. -/
theorem reached_rest (h : Split o o₁ o₂ n k save cut save₂)
    (hsame : ∀ path, o.Reads path → contents₁ path = contents path)
    (hfirst : reached contents₁ o₁ entropy₁ = .ok m)
    (hrom : ∃ program : Array UInt8, contents₂ o₂.rom = .ok program ∧ program.size ≤ maxRomSize)
    (hread : contents₂ cut = .ok m.snapshot.toArray) (entropy entropy₂ : UInt64) :
    (∃ f, reached contents o entropy = .error (.fault f) ∧
        reached contents₂ o₂ entropy₂ = .error (.fault f)) ∨
      ∃ m' r, reached contents o entropy = .ok m' ∧ reached contents₂ o₂ entropy₂ = .ok r ∧
        Alike r m' := by
  obtain ⟨program, hprogram, hsize⟩ := hrom
  obtain ⟨hstands, hconfig⟩ := faultStands_of_reached hfirst
  rw [h.sameStart.config] at hconfig
  let restored : Machine := ⟨o₂.config, ⟨program, hsize⟩, m.state, none, false⟩
  have halike : Alike restored m :=
    { state := rfl
      dialect := by rw [hconfig]; exact h.dialect
      clockRate := by rw [hconfig]; exact h.clockRate
      left := faultStands_of_running rfl
      right := hstands }
  have hwhole : reached contents o entropy = play m (some k) := by
    rw [h.reached_whole hsame entropy entropy₁, hfirst]
    rfl
  have hsecond : reached contents₂ o₂ entropy₂ = play restored (some k) := by
    have hstart : startFrom contents₂ o₂ entropy₂ = .ok restored := StartCase.eq <|
      .resumed hprogram hsize h.loadState₂ hread (Snapshot.decode_encode (.ofState m.state))
    rw [reached, hstart, h.frames₂]
    rfl
  rw [hwhole, hsecond]
  obtain ⟨f, hrest, hm⟩ | ⟨r, m', hrest, hm, hlast⟩ := play_alike halike k
  · exact .inl ⟨f, hm, hrest⟩
  · exact .inr ⟨m', r, hm, hrest, hlast⟩

end Split

/-! ### A program that stays where it is -/

/-- A machine whose instruction changes nothing is the same after every frame, if its timers are
off. -/
theorem play_of_rest (hm : m.fault? = none) (heffect : m.effect = .advanced m.state)
    (htick : m.state.tick = m.state) (frames : UInt64) : play m (some frames) = .ok m := by
  have hstep : m.step = ⟨.ok (), m, #[m.fetchRecord]⟩ := step_of_advanced hm heffect
  obtain ⟨hsteps, hmachine⟩ := series_of_rest (congrArg Outcome.result hstep)
    (congrArg Outcome.machine hstep) m.config.stepsPerFrame
  have hframe := runFrame_of_ok hsteps
  have hframe' : m.runFrame.machine = m := by
    rw [hframe]
    show (m.steps _).machine.tick = m
    rw [show (m.steps _).machine = m from hmachine, tick, htick]
  obtain ⟨hfault, hlast⟩ := series_of_rest (congrArg Outcome.result hframe) hframe' frames.toNat
  rw [play_of_none hfault]
  exact congrArg _ hlast

/-- A program that jumps to itself can be run for any number of frames, and stays where it is. -/
theorem reached_of_loop (hrom : contents o.rom = .ok #[0x12, 0x00]) (hload : o.loadState = none)
    {frames : UInt64} (hframes : o.frames = some frames) (entropy : UInt64) :
    reached contents o entropy =
      .ok (powerOn o.config ⟨#[0x12, 0x00], by decide⟩ entropy) := by
  rw [reached, StartCase.eq (.poweredOn hrom (by decide) hload), hframes]
  refine play_of_rest rfl ?_ rfl frames
  have hfetch : (powerOn o.config ⟨#[0x12, 0x00], by decide⟩ entropy).state.fetch = 0x1200 := by
    rw [powerOn, State.fetch_powerOn]
    decide
  rw [effect, State.execute, hfetch]
  rfl

/-! ### Whole runs -/

/-- **Runs compose through a snapshot.** Let a run make `n + k` frames and be saved. Let a first run
with the same start make `n` frames and be saved, and a second one load what it has saved, with any
program that fits and any seed or none, and make `k` frames and be saved. The first run has to find
the files that the whole one finds, and the second one what the first one has written.

If the whole run ends well, so do the two, and the second one shows the same screen and saves the
same bytes. If a fault ends the whole run, it ends the first run or the second with the same report,
and that run does not touch any file. -/
theorem invoke_split (hfiles : files.Faithful) {whole first second : List String}
    (hwhole : Options.parse whole = .ok o) (hfirst : Options.parse first = .ok o₁)
    (hsecond : Options.parse second = .ok o₂) {n k : UInt64} {save cut save₂ : String}
    (hsplit : Split o o₁ o₂ n k save cut save₂) (entropy entropy₁ entropy₂ : UInt64)
    {d d₁ d₂ : σ}
    (hsame : ∀ path, o.Reads path → files.contents d₁ path = files.contents d path)
    (hkept : files.contents d₂ cut =
      files.contents ((invoke files first entropy₁).run d₁).2 cut)
    (hcut : files.CanSave d₁ cut) (hsave₂ : files.CanSave d₂ save₂)
    (hrom : files.CanLoad d₂ o₂.rom) :
    let D := (invoke files whole entropy).run d
    let R₁ := (invoke files first entropy₁).run d₁
    let R₂ := (invoke files second entropy₂).run d₂
    (D.1.exitCode = 0 → ∃ output bytes,
      D.1 = .finished output ∧ files.contents D.2 save = .ok bytes ∧
        R₁.1.exitCode = 0 ∧
        R₂.1 = .finished output ∧ files.contents R₂.2 save₂ = .ok bytes) ∧
      ∀ output f, D.1 = .failed output (.fault f) →
        R₁ = (D.1, d₁) ∨ R₁.1.exitCode = 0 ∧ R₂ = (D.1, d₂) := by
  rw [invoke_of_parse hfirst] at hkept
  rw [invoke_of_parse hwhole, invoke_of_parse hfirst, invoke_of_parse hsecond]
  intro D R₁ R₂
  rcases hr₁ : reached (files.contents d₁) o₁ entropy₁ with e | m
  · -- the whole run ends where the first one does
    have hD : D = (.failed "" e, d) :=
      run_of_error hfiles (by rw [hsplit.reached_whole hsame entropy entropy₁, hr₁]; rfl)
    have hR₁ : R₁ = (.failed "" e, d₁) := run_of_error hfiles hr₁
    rw [hD, hR₁]
    exact ⟨fun hzero ↦ absurd hzero (exitCode_failed_ne_zero _ _), fun _ _ _ ↦ .inl rfl⟩
  obtain ⟨d', hR₁, hsaved⟩ := exists_run_eq_finished hfiles hsplit.saveState₁ hcut hr₁
  rw [hR₁] at hkept
  have hzero₁ : R₁.1.exitCode = 0 := congrArg (fun r : Ending × σ ↦ r.1.exitCode) hR₁
  obtain ⟨f, hr, hr₂⟩ | ⟨m', r, hr, hr₂, halike⟩ :=
    hsplit.reached_rest hsame hr₁ hrom (hkept.trans hsaved) entropy entropy₂
  · have hD : D = (.failed "" (.fault f), d) := run_of_error hfiles hr
    have hR₂ : R₂ = (.failed "" (.fault f), d₂) := run_of_error hfiles hr₂
    rw [hD, hR₂]
    exact ⟨fun hzero ↦ absurd hzero (exitCode_failed_ne_zero _ _), fun _ _ _ ↦ .inr ⟨hzero₁, rfl⟩⟩
  · refine ⟨fun hzero ↦ ?_, fun output f hfault ↦ ?_⟩
    · obtain ⟨m₂, dD, hm₂, hD, hread⟩ := exists_of_exitCode hfiles hsplit.saveState hzero
      obtain rfl : m' = m₂ := Except.ok.inj (hr.symm.trans hm₂)
      obtain ⟨d₂', hR₂, hread₂⟩ := exists_run_eq_finished hfiles hsplit.saveState₂ hsave₂ hr₂
      rw [halike.screen] at hR₂
      rw [halike.snapshot] at hread₂
      rw [show D = _ from hD, show R₂ = _ from hR₂]
      exact ⟨_, _, rfl, hread, hzero₁, rfl, hread₂⟩
    · have hr' := reached_of_fault hfiles hsplit.saveState hfault
      exact absurd (hr.symm.trans hr') (by simp)

/-- A program that jumps to itself, in two frames and in one and one. The second run is given a
program without a byte, which could not run for a single step. -/
theorem invoke_split_of_loop :
    let d : Directory := ⟨[("loop", #[0x12, 0x00]), ("empty", #[])]⟩
    let whole := ["loop", "--seed=7", "--clock-rate=60", "--frames=2", "--save-state=all"]
    let first := ["loop", "--seed=7", "--clock-rate=60", "--frames=1", "--save-state=cut"]
    let second := ["empty", "--clock-rate=60", "--frames=1", "--load-state=cut",
      "--save-state=rest"]
    let D := (invoke Directory.access whole 0).run d
    let R₁ := (invoke Directory.access first 1).run d
    let R₂ := (invoke Directory.access second 2).run R₁.2
    D.1.exitCode = 0 ∧ R₁.1.exitCode = 0 ∧ R₂.1 = D.1 ∧ ∃ bytes,
      Directory.access.contents D.2 "all" = .ok bytes ∧
        Directory.access.contents R₂.2 "rest" = .ok bytes := by
  intro d whole first second D R₁ R₂
  have hD : (invoke Directory.access whole 0).run d = D := rfl
  have hR₁ : (invoke Directory.access first 1).run d = R₁ := rfl
  have hR₂ : (invoke Directory.access second 2).run R₁.2 = R₂ := rfl
  have hwhole : Options.parse whole =
      .ok ⟨"loop", [], some 60, some 7, some 2, none, some "all"⟩ := rfl
  have hfirst : Options.parse first =
      .ok ⟨"loop", [], some 60, some 7, some 1, none, some "cut"⟩ := rfl
  have hsecond : Options.parse second =
      .ok ⟨"empty", [], some 60, none, some 1, some "cut", some "rest"⟩ := rfl
  have hrom : Directory.access.contents d "loop" = .ok #[0x12, 0x00] := rfl
  -- none of these values is to be computed
  clear_value D R₁ R₂
  have hcan : ∀ d, Directory.access.CanSave d "all" ∧ Directory.access.CanSave d "cut" ∧
      Directory.access.CanSave d "rest" := fun d ↦
    ⟨Directory.canSave_access rfl rfl (by decide), Directory.canSave_access rfl rfl (by decide),
      Directory.canSave_access rfl rfl (by decide)⟩
  have hload : Directory.access.CanLoad R₁.2 "empty" := by
    have hreached : reached (Directory.access.contents d)
        ⟨"loop", [], some 60, some 7, some 1, none, some "cut"⟩ 1 = .ok _ :=
      reached_of_loop hrom rfl rfl 1
    have hwrite : ∀ bytes, (Directory.access.write "cut" bytes).run d =
        (.ok (), d.put "cut" bytes) := fun _ ↦ rfl
    have hempty : ∀ bytes, Directory.access.contents (d.put "cut" bytes) "empty" = .ok #[] :=
      fun _ ↦ rfl
    obtain ⟨hrun, -⟩ := run_of_saved Directory.faithful_access rfl hreached (hwrite _)
    rw [← hR₁, invoke_of_parse hfirst, hrun]
    exact ⟨#[], hempty _, by decide⟩
  have hzero : D.1.exitCode = 0 := by
    have hreached : reached (Directory.access.contents d)
        ⟨"loop", [], some 60, some 7, some 2, none, some "all"⟩ 0 = .ok _ :=
      reached_of_loop hrom rfl rfl 0
    obtain ⟨d', hrun, -⟩ :=
      exists_run_eq_finished Directory.faithful_access rfl (hcan d).1 hreached
    rw [← hD, invoke_of_parse hwhole, hrun]
    rfl
  obtain ⟨hwell, -⟩ := invoke_split Directory.faithful_access hwhole hfirst hsecond
    (n := 1) (k := 1)
    ⟨⟨rfl, rfl, rfl, .inl rfl⟩, rfl, rfl, by decide, rfl, rfl, rfl, rfl, rfl, rfl, rfl⟩ 0 1 2
    (d := d) (fun _ _ ↦ rfl) (by rw [hR₁]) (hcan d).2.1 (hcan R₁.2).2.2 hload
  rw [hD, hR₁, hR₂] at hwell
  obtain ⟨output, bytes, hshown, hsaved, hzero₁, hshown₂, hsaved₂⟩ := hwell hzero
  exact ⟨hzero, hzero₁, hshown₂.trans hshown.symm, bytes, hsaved, hsaved₂⟩

end CommandLine

end Chip8
