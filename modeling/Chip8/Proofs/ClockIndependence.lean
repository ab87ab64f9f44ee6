import Chip8.Proofs.Erasure
import Chip8.Proofs.SnapshotLayout

/-!
# Runs at other clock rates

The clock rate says how many instructions lie between two ticks of the timers. Programs notice this
through `FX07` and through nothing else: `Erasure.timers` forgets the timers, and `FX07` is the only
instruction that reads them.

A run without `FX07` is compared with the single steps that it is made of. A tick is then **a step
that is not seen** (`same_tick`), and `runFrames_steps` follows frame by frame, the frame that a
fault cuts short included. Two clock rates are compared through the steps that they have in common,
so nothing has to be known about how their ticks lie to each other.
-/

namespace Chip8

namespace Erasure

/-- Only `FX07` reads the timers. -/
def timers : Erasure where
  forget s := { s with timers := {} }
  reads i := ∃ x, i = .readDelay x
  pc _ := rfl
  fetch _ := rfl
  screen _ := rfl
  perform d s i h := by
    cases i with
    | readDelay x => exact absurd ⟨x, rfl⟩ h
    | setDelay _ | setSound _ | random _ _ => rfl
    | _ => exact State.map_perform_withDevices d rfl fun _ ↦ rfl
  result d s i h := by
    obtain ⟨x, rfl⟩ := h
    rfl
  tick _ := rfl
  keys _ _ := rfl

end Erasure

namespace Machine

variable {a b : Machine}

/-- Ticks are forgotten with the timers. -/
theorem same_tick (h : Erasure.timers.Same a b) : Erasure.timers.Same a b.tick where
  state := h.state
  dialect := h.dialect
  fault? := h.fault?

/-- Nothing reads the timers where no instruction reads the delay timer. -/
theorem admits_of_not_readDelay {es : List Event} (h : ∀ s, .executed s ∈ es →
    ∀ x, Instruction.decode s.fetch ≠ some (.readDelay x)) : Admits Erasure.timers.Ignores es := by
  rintro s hs i hi ⟨x, rfl⟩
  exact h s hs x hi

/-- **Frames do what as many steps do**, but for the timers, if the steps do not read them. -/
theorem runFrames_steps (h : Erasure.timers.Same a b) {n : Nat}
    (hG : Admits Erasure.timers.Ignores (a.stepEvents (n * b.config.stepsPerFrame))) :
    let o := a.steps (n * b.config.stepsPerFrame)
    let p := b.runFrames n
    o.result.fault? = p.result.fault? ∧ Erasure.timers.Same o.machine p.machine ∧
      Erasure.timers.executed (a.stepEvents (n * b.config.stepsPerFrame)) =
        Erasure.timers.executed (b.frameEvents n) := by
  induction n generalizing a b with
  | zero =>
    rw [Nat.zero_mul]
    exact ⟨rfl, h, rfl⟩
  | succ n ih =>
    have hmul : (n + 1) * b.config.stepsPerFrame =
        b.config.stepsPerFrame + n * b.config.stepsPerFrame := by
      rw [Nat.succ_mul, Nat.add_comm]
    rw [hmul] at hG ⊢
    rcases hf : (a.steps b.config.stepsPerFrame).result.fault? with - | f
    · -- the frame goes through, and the other frames start after its tick
      rw [stepEvents_add_of_none hf, admits_append] at hG
      obtain ⟨hresult, hlast⟩ := h.steps hG.1
      have hf' : (b.steps b.config.stepsPerFrame).result.fault? = none := hresult ▸ hf
      have hconfig : (b.steps b.config.stepsPerFrame).machine.tick.config = b.config :=
        b.config_steps b.config.stepsPerFrame
      have hrest := ih (same_tick hlast) (by rw [hconfig]; exact hG.2)
      rw [hconfig] at hrest
      obtain ⟨hfault, hend, hexecuted⟩ := hrest
      have hsteps := series_add_of_none hf (n * b.config.stepsPerFrame)
      have hframes : series runFrame (n + 1) 0 #[] b = _ :=
        series_succ_of_ok (by rw [runFrame_of_ok hf']) n
      rw [stepEvents_add_of_none hf, frameEvents_succ_of_ok hf', Erasure.executed_append,
        Erasure.executed_append, h.executed_stepEvents hG.1, hexecuted, steps, hsteps, runFrames,
        hframes, runFrame_of_ok hf']
      exact ⟨hfault, hend, rfl⟩
    · -- the frame faults, and there are no other frames
      rw [stepEvents_add_of_fault hf] at hG
      obtain ⟨hresult, hlast⟩ := h.steps hG
      have hf' : (b.steps b.config.stepsPerFrame).result.fault? = some f := hresult ▸ hf
      have hsteps := series_add_of_fault hf (n * b.config.stepsPerFrame)
      have hframes : series runFrame (n + 1) 0 #[] b = _ :=
        series_succ_of_error (by rw [runFrame_of_error hf']) n
      rw [stepEvents_add_of_fault hf, frameEvents_succ_of_error hf', h.executed_stepEvents hG,
        steps, hsteps, runFrames, hframes, runFrame_of_error hf']
      exact ⟨hf, hlast, rfl⟩

/-- **The clock rate does not matter to a program that does not look at the clock.** Two running
machines of one dialect and with the same snapshot are run for up to `n` and up to `k` frames, which
have as many instructions in all. If as many steps would execute no instruction that reads the delay
timer, then either all frames of both go through, or both end with the same fault. Before that they
have executed the same instructions, each in the same state but for the timers, so they have
executed equally many. Afterwards they show the same screen, and their snapshots are the same but
for the two bytes of the timers. -/
theorem frames_independent_of_clock (ha : a.fault? = none) (hb : b.fault? = none)
    (hdialect : a.config.dialect = b.config.dialect) (hsnapshot : a.snapshot = b.snapshot)
    {n k : Nat} (hlength : n * a.config.stepsPerFrame = k * b.config.stepsPerFrame)
    (hread : ∀ s, .executed s ∈ a.stepEvents (n * a.config.stepsPerFrame) →
      ∀ x, Instruction.decode s.fetch ≠ some (.readDelay x)) :
    let o := a.runFrames n
    let p := b.runFrames k
    ((o.result = ⟨n, none⟩ ∧ p.result = ⟨k, none⟩) ∨
        ∃ f, o.result.fault? = some f ∧ p.result.fault? = some f) ∧
      Erasure.timers.executed (a.frameEvents n) = Erasure.timers.executed (b.frameEvents k) ∧
      o.machine.screen = p.machine.screen ∧
      ∀ i, i ≠ 4150 → i ≠ 4151 →
        o.machine.snapshot.toList[i]? = p.machine.snapshot.toList[i]? := by
  intro o p
  have hstate : a.state = b.state := congrArg Snapshot.state (Snapshot.encode_inj hsnapshot)
  have hG := admits_of_not_readDelay hread
  have hleft := runFrames_steps ⟨rfl, rfl, rfl⟩ hG
  have hright := runFrames_steps ⟨congrArg _ hstate, hdialect, ha.trans hb.symm⟩ (hlength ▸ hG)
  rw [← hlength] at hright
  obtain ⟨hfaultLeft, hsameLeft, hexecutedLeft⟩ := hleft
  obtain ⟨hfaultRight, hsameRight, hexecutedRight⟩ := hright
  have hfault : o.result.fault? = p.result.fault? := hfaultLeft.symm.trans hfaultRight
  have hforget : Erasure.timers.forget o.machine.state = Erasure.timers.forget p.machine.state :=
    hsameLeft.state.symm.trans hsameRight.state
  refine ⟨?_, hexecutedLeft.symm.trans hexecutedRight,
    hsameLeft.screen.symm.trans hsameRight.screen, fun i hi hi' ↦ ?_⟩
  · rcases hf : p.result.fault? with - | f
    · exact .inl ⟨result_series_of_none (hfault.trans hf), result_series_of_none hf⟩
    · exact .inr ⟨f, hfault.trans hf, rfl⟩
  · calc o.machine.snapshot.toList[i]?
        = (Snapshot.ofState (Erasure.timers.forget o.machine.state)).encode.toList[i]? :=
          (Snapshot.getElem?_encode_withTimers _ {} hi hi').symm
      _ = (Snapshot.ofState (Erasure.timers.forget p.machine.state)).encode.toList[i]? := by
          rw [hforget]
      _ = p.machine.snapshot.toList[i]? := Snapshot.getElem?_encode_withTimers _ {} hi hi'

/-- A program that sets the delay timer and faults after it, in the second frame of one machine and
within the first frame of a machine that is twice as fast. -/
theorem frames_independent_of_clock_of_fault :
    let a := ((powerOn { clockRate := 60 } Rom.empty 0).load #[0xF0, 0x15] 0).machine
    let b := ((powerOn { clockRate := 120 } Rom.empty 0).load #[0xF0, 0x15] 0).machine
    a.snapshot = b.snapshot ∧ 2 * a.config.stepsPerFrame = 1 * b.config.stepsPerFrame ∧
      (∃ f, (a.runFrames 2).result.fault? = some f ∧ (b.runFrames 1).result.fault? = some f) ∧
      Erasure.timers.executed (a.frameEvents 2) = Erasure.timers.executed (b.frameEvents 1) ∧
      (a.runFrames 2).machine.screen = (b.runFrames 1).machine.screen := by
  have hslow := load_of_size_le (m := powerOn { clockRate := 60 } Rom.empty 0)
    (show (#[0xF0, 0x15] : Array UInt8).size ≤ maxRomSize by decide) 0
  have hfast := load_of_size_le (m := powerOn { clockRate := 120 } Rom.empty 0)
    (show (#[0xF0, 0x15] : Array UInt8).size ≤ maxRomSize by decide) 0
  -- only the two words count about the machines
  have key : ∀ a b : Machine, a.fault? = none → b.fault? = none →
      a.config.dialect = b.config.dialect → a.state = b.state → a.config.stepsPerFrame = 1 →
      b.config.stepsPerFrame = 2 → a.state.fetch = 0xF015 →
      a.state.memory.readWord (a.state.pc + 2) = 0 →
      a.snapshot = b.snapshot ∧ 2 * a.config.stepsPerFrame = 1 * b.config.stepsPerFrame ∧
      (∃ f, (a.runFrames 2).result.fault? = some f ∧ (b.runFrames 1).result.fault? = some f) ∧
      Erasure.timers.executed (a.frameEvents 2) = Erasure.timers.executed (b.frameEvents 1) ∧
      (a.runFrames 2).machine.screen = (b.runFrames 1).machine.screen := by
    intro a b ha hb hdialect hstate hslow hfast hfirst hsecond
    have hset : Instruction.decode a.state.fetch = some (.setDelay 0) := by
      rw [hfirst]
      decide
    let timers : Timers := { a.state.timers with delay := a.state.v 0 }
    let next : Machine := { a with state := { a.state with timers := timers }.advance }
    have hstep : a.step = ⟨.ok (), next, #[a.fetchRecord]⟩ :=
      step_of_advanced ha (effect_of_decode hset)
    have hinvalid : Instruction.decode next.state.fetch = none := by
      rw [show next.state.fetch = 0 from hsecond]
      decide
    have hfault : next.step.result = .error (.invalidOpcode next.state.fetch next.state.pc) := by
      rw [result_step (show next.fault? = none from ha), effect_of_decode_none hinvalid]
      rfl
    have hevents : a.stepEvents (2 * a.config.stepsPerFrame) = [.executed a.state] := by
      rw [hslow, stepEvents_succ_of_ok (by rw [hstep]), hstep, stepEvents_succ_of_error hfault]
    have hread : ∀ s, .executed s ∈ a.stepEvents (2 * a.config.stepsPerFrame) →
        ∀ x, Instruction.decode s.fetch ≠ some (.readDelay x) := by
      intro s hs x
      rw [hevents] at hs
      obtain rfl : s = a.state := Event.executed.inj (List.mem_singleton.1 hs)
      rw [hset]
      simp
    have hsnapshot : a.snapshot = b.snapshot := by rw [snapshot, snapshot, hstate]
    have hlength : 2 * a.config.stepsPerFrame = 1 * b.config.stepsPerFrame := by rw [hslow, hfast]
    obtain ⟨hend, hexecuted, hscreen, -⟩ :=
      frames_independent_of_clock ha hb hdialect hsnapshot hlength hread
    refine ⟨hsnapshot, hlength, hend.resolve_left ?_, hexecuted, hscreen⟩
    rintro ⟨hthrough, -⟩
    have hsteps := (runFrames_steps ⟨rfl, rfl, rfl⟩ (admits_of_not_readDelay hread)).1
    rw [hthrough, hslow, steps_succ_of_ok (by rw [hstep]), hstep,
      steps_succ_of_error hfault] at hsteps
    exact absurd hsteps (by simp)
  have ha := congrArg Outcome.machine hslow
  have hb := congrArg Outcome.machine hfast
  refine key _ _ ?_ ?_ ?_ ?_ ?_ ?_ ?_ ?_
  · rw [ha]
    rfl
  · rw [hb]
    rfl
  · rw [ha, hb]
    rfl
  · rw [ha, hb]
    rfl
  · rw [ha]
    rfl
  · rw [hb]
    rfl
  · rw [ha, powerOn, State.fetch_powerOn]
    decide
  · rw [ha, powerOn, State.powerOn, Memory.readWord_ofRom_program _ (by decide) (by decide)]
    decide

end Machine

end Chip8
