import Chip8.Proofs.Halting
import Chip8.Proofs.Opcodes

/-!
# Frames as groups of steps

A run of frames is made of two kinds of moves, steps and ticks, and `frameMoves s n` is the
**sequence that is meant**: `n` times `s` steps and then a tick. `Machine.runMoves` makes any moves
one after the other and stops at the first step that faults, and knows nothing of frames.

`runFrames_eq_runMoves` says that series of frames do nothing else, wherever in a frame a fault
comes. As the moves are counted, this gives the number of frames that are complete: it is the number
of steps divided by `s`, and what is left over are the steps of the frame that was cut short, which
keep their effects. `performAll_runFrame` turns to calls that go on after the fault, and gives the
answers of all of them.
-/

namespace Chip8

/-! ### Moves -/

/-- What a machine does in a frame. -/
inductive Move where
  | step
  | tick
  deriving DecidableEq, Repr

/-- The moves of `n` frames of `s` steps. -/
def frameMoves (s : Nat) : Nat → List Move
  | 0 => []
  | n + 1 => List.replicate s .step ++ .tick :: frameMoves s n

/-- How far a machine came: the steps that succeeded, the ticks, and the fault after them, if there
was one. -/
structure Progress where
  steps : Nat
  ticks : Nat
  fault? : Option Fault
  deriving DecidableEq, Repr

namespace Machine

/-- Make moves one after the other, and stop at the first step that faults. -/
def runMoves (m : Machine) : List Move → Outcome Progress
  | [] => ⟨⟨0, 0, none⟩, m, #[]⟩
  | .step :: moves =>
    match m.step with
    | ⟨.ok _, m', log⟩ =>
      let rest := m'.runMoves moves
      ⟨⟨rest.result.steps + 1, rest.result.ticks, rest.result.fault?⟩, rest.machine,
        log ++ rest.log⟩
    | ⟨.error f, m', log⟩ => ⟨⟨0, 0, some f⟩, m', log⟩
  | .tick :: moves =>
    let rest := m.tick.runMoves moves
    ⟨⟨rest.result.steps, rest.result.ticks + 1, rest.result.fault?⟩, rest.machine, rest.log⟩

variable {m : Machine} {f : Fault} {moves : List Move}

theorem runMoves_step_of_ok (h : m.step.result = .ok ()) (moves : List Move) :
    m.runMoves (.step :: moves) =
      let rest := m.step.machine.runMoves moves
      ⟨⟨rest.result.steps + 1, rest.result.ticks, rest.result.fault?⟩, rest.machine,
        m.step.log ++ rest.log⟩ := by
  obtain ⟨m', log, hm⟩ : ∃ m' log, m.step = ⟨.ok (), m', log⟩ := ⟨_, _, by rw [← h]⟩
  rw [runMoves, hm]

theorem runMoves_tick (m : Machine) (moves : List Move) :
    m.runMoves (.tick :: moves) =
      let rest := m.tick.runMoves moves
      ⟨⟨rest.result.steps, rest.result.ticks + 1, rest.result.fault?⟩, rest.machine, rest.log⟩ :=
  rfl

theorem runMoves_step_of_error (h : m.step.result = .error f) (moves : List Move) :
    m.runMoves (.step :: moves) = ⟨⟨0, 0, some f⟩, m.step.machine, m.step.log⟩ := by
  obtain ⟨m', log, hm⟩ : ∃ m' log, m.step = ⟨.error f, m', log⟩ := ⟨_, _, by rw [← h]⟩
  rw [runMoves, hm]

/-- Moves that go through are followed by the moves after them. -/
theorem runMoves_append_of_none (h : (m.runMoves moves).result.fault? = none) (more : List Move) :
    m.runMoves (moves ++ more) =
      let first := m.runMoves moves
      let rest := first.machine.runMoves more
      ⟨⟨first.result.steps + rest.result.steps, first.result.ticks + rest.result.ticks,
        rest.result.fault?⟩, rest.machine, first.log ++ rest.log⟩ := by
  induction moves generalizing m with
  | nil => simp [runMoves]
  | cons move moves ih =>
    rw [List.cons_append]
    cases move with
    | step =>
      rcases hr : m.step.result with f | u
      · rw [runMoves_step_of_error hr] at h
        exact absurd h (by simp)
      · rw [runMoves_step_of_ok hr] at h
        rw [runMoves_step_of_ok hr, runMoves_step_of_ok hr, ih h]
        simp [Nat.add_right_comm, Array.append_assoc]
    | tick =>
      rw [runMoves_tick, runMoves_tick, ih h]
      simp [Nat.add_right_comm]

/-- No move comes after a fault. -/
theorem runMoves_append_of_fault (h : (m.runMoves moves).result.fault? = some f)
    (more : List Move) : m.runMoves (moves ++ more) = m.runMoves moves := by
  induction moves generalizing m with
  | nil => exact absurd h (by simp [runMoves])
  | cons move moves ih =>
    rw [List.cons_append]
    cases move with
    | step =>
      rcases hr : m.step.result with g | u
      · rw [runMoves_step_of_error hr, runMoves_step_of_error hr]
      · rw [runMoves_step_of_ok hr] at h
        rw [runMoves_step_of_ok hr, runMoves_step_of_ok hr, ih h]
    | tick => rw [runMoves_tick, runMoves_tick, ih h]

/-- **All moves that were made are kept**: the moves before the fault go through on their own, and
the fault has changed nothing after them but that the machine is halted by it. -/
theorem runMoves_take_of_fault (h : (m.runMoves moves).result.fault? = some f) :
    let p := m.runMoves moves
    let before := m.runMoves (moves.take (p.result.steps + p.result.ticks))
    before.result = ⟨p.result.steps, p.result.ticks, none⟩ ∧
      p.machine = { before.machine with fault? := some f } := by
  induction moves generalizing m with
  | nil => exact absurd h (by simp [runMoves])
  | cons move moves ih =>
    cases move with
    | step =>
      rcases hr : m.step.result with g | u
      · rw [runMoves_step_of_error hr] at h ⊢
        obtain rfl := Option.some.inj h
        exact ⟨rfl, machine_of_step_error hr⟩
      · rw [runMoves_step_of_ok hr] at h ⊢
        obtain ⟨hresult, hmachine⟩ := ih h
        -- the move that was made stands in front of the prefix as well
        simp only [Nat.add_right_comm _ 1, List.take_succ_cons, runMoves_step_of_ok hr, hresult]
        exact ⟨trivial, hmachine⟩
    | tick =>
      rw [runMoves_tick] at h ⊢
      obtain ⟨hresult, hmachine⟩ := ih h
      simp only [← Nat.add_assoc, List.take_succ_cons, runMoves_tick, hresult]
      exact ⟨trivial, hmachine⟩

/-- Steps alone are a series of steps. -/
theorem runMoves_replicate_step (m : Machine) (n : Nat) :
    m.runMoves (List.replicate n .step) =
      let o := m.steps n
      ⟨⟨o.result.completed, 0, o.result.fault?⟩, o.machine, o.log⟩ := by
  induction n generalizing m with
  | zero => rfl
  | succ n ih =>
    rw [List.replicate_succ]
    rcases hr : m.step.result with f | u
    · rw [runMoves_step_of_error hr, steps_succ_of_error hr]
    · rw [runMoves_step_of_ok hr, steps_succ_of_ok hr, ih]
      simp only [Nat.add_comm 1]

/-! ### One frame and the frames after it -/

theorem runMoves_frameMoves_of_none {s : Nat} (h : (m.steps s).result.fault? = none) (n : Nat) :
    m.runMoves (frameMoves s (n + 1)) =
      let o := m.steps s
      let rest := o.machine.tick.runMoves (frameMoves s n)
      ⟨⟨s + rest.result.steps, rest.result.ticks + 1, rest.result.fault?⟩, rest.machine,
        o.log ++ rest.log⟩ := by
  have hsteps := m.runMoves_replicate_step s
  have hcompleted : (m.steps s).result.completed = s :=
    congrArg Tally.completed (result_series_of_none h)
  rw [frameMoves, runMoves_append_of_none (by rw [hsteps]; exact h), hsteps]
  simp [runMoves_tick, hcompleted]

theorem runMoves_frameMoves_of_fault {s : Nat} (h : (m.steps s).result.fault? = some f) (n : Nat) :
    m.runMoves (frameMoves s (n + 1)) =
      let o := m.steps s
      ⟨⟨o.result.completed, 0, some f⟩, o.machine, o.log⟩ := by
  have hsteps := m.runMoves_replicate_step s
  rw [frameMoves, runMoves_append_of_fault (f := f) (by rw [hsteps]; exact h), hsteps]
  simp [h]

theorem runFrames_succ_of_ok (h : (m.steps m.config.stepsPerFrame).result.fault? = none) (n : Nat) :
    m.runFrames (n + 1) =
      let rest := m.runFrame.machine.runFrames n
      ⟨⟨1 + rest.result.completed, rest.result.fault?⟩, rest.machine, m.runFrame.log ++ rest.log⟩ :=
  series_succ_of_ok (congrArg Outcome.result (runFrame_of_ok h)) n

theorem runFrames_succ_of_error (h : (m.steps m.config.stepsPerFrame).result.fault? = some f)
    (n : Nat) : m.runFrames (n + 1) = ⟨⟨0, some f⟩, m.runFrame.machine, m.runFrame.log⟩ :=
  series_succ_of_error (congrArg Outcome.result (runFrame_of_error h)) n

/-- **A series of frames makes the moves that are meant**, and counts the ticks among them. -/
theorem runFrames_eq_runMoves (m : Machine) (n : Nat) :
    m.runFrames n =
      let p := m.runMoves (frameMoves m.config.stepsPerFrame n)
      ⟨⟨p.result.ticks, p.result.fault?⟩, p.machine, p.log⟩ := by
  induction n generalizing m with
  | zero => rfl
  | succ n ih =>
    rcases hf : (m.steps m.config.stepsPerFrame).result.fault? with - | f
    · have hrest := ih (m.steps m.config.stepsPerFrame).machine.tick
      -- the frames after this one are as long as it was
      rw [show (m.steps m.config.stepsPerFrame).machine.tick.config = m.config from
        m.config_steps _] at hrest
      rw [runFrames_succ_of_ok hf, runMoves_frameMoves_of_none hf, runFrame_of_ok hf]
      simp only [hrest, Nat.add_comm 1]
    · rw [runFrames_succ_of_error hf, runMoves_frameMoves_of_fault hf, runFrame_of_error hf]

/-! ### Counting moves -/

/-- Without a fault all moves are made. -/
theorem result_frameMoves_of_none {s n : Nat}
    (h : (m.runMoves (frameMoves s n)).result.fault? = none) :
    (m.runMoves (frameMoves s n)).result = ⟨n * s, n, none⟩ := by
  induction n generalizing m with
  | zero =>
    rw [Nat.zero_mul]
    rfl
  | succ n ih =>
    rcases hf : (m.steps s).result.fault? with - | f
    · rw [runMoves_frameMoves_of_none hf] at h ⊢
      simp only [ih h, Nat.succ_mul, Nat.add_comm s]
    · rw [runMoves_frameMoves_of_fault hf] at h
      exact absurd h (by simp)

/-- **With a fault the steps are those of the complete frames and less than one frame more.** -/
theorem steps_frameMoves_of_fault {s n : Nat}
    (h : (m.runMoves (frameMoves s n)).result.fault? = some f) :
    let p := m.runMoves (frameMoves s n)
    p.result.ticks < n ∧ ∃ r < s, p.result.steps = p.result.ticks * s + r := by
  induction n generalizing m with
  | zero => exact absurd h (by simp [frameMoves, runMoves])
  | succ n ih =>
    rcases hf : (m.steps s).result.fault? with - | g
    · rw [runMoves_frameMoves_of_none hf] at h ⊢
      obtain ⟨hlt, r, hr, hsteps⟩ := ih h
      refine ⟨Nat.succ_lt_succ hlt, r, hr, ?_⟩
      simp only [hsteps, Nat.succ_mul]
      omega
    · rw [runMoves_frameMoves_of_fault hf]
      refine ⟨Nat.succ_pos n, _, completed_series_lt_of_fault hf, ?_⟩
      rw [Nat.zero_mul, Nat.zero_add]
      rfl

/-! ### Calls -/

/-- A halted machine answers every frame with its fault, and nothing changes. -/
theorem performAll_runFrame_of_fault? (h : m.fault? = some f) (n : Nat) :
    m.performAll (List.replicate n .runFrame) = ⟨List.replicate n (.faulted f), m, #[]⟩ := by
  have hcall : m.perform .runFrame = ⟨.faulted f, m, #[]⟩ := by
    rw [perform, runFrame_of_fault? h]
    rfl
  induction n with
  | zero => rfl
  | succ n ih =>
    rw [List.replicate_succ, performAll, hcall, List.replicate_succ]
    simp only [ih, Array.append_empty]

/-- **All answers of frames that are called for**: those that are complete show the screen that is
there after them, and all others give the fault. -/
theorem performAll_runFrame (m : Machine) (n : Nat) :
    m.performAll (List.replicate n .runFrame) =
      let o := m.runFrames n
      ⟨(List.range o.result.completed).map (fun i ↦ .shown (m.runFrames (i + 1)).machine.screen) ++
        o.result.fault?.elim [] fun f ↦ List.replicate (n - o.result.completed) (.faulted f),
        o.machine, o.log⟩ := by
  induction n generalizing m with
  | zero => rfl
  | succ n ih =>
    rw [List.replicate_succ, performAll]
    rcases hf : (m.steps m.config.stepsPerFrame).result.fault? with - | f
    · have hcall : m.perform .runFrame =
          ⟨.shown m.runFrame.machine.screen, m.runFrame.machine, m.runFrame.log⟩ := by
        rw [perform, runFrame_of_ok hf]
        rfl
      have hmachine (i : Nat) :
          (m.runFrames (i + 1)).machine = (m.runFrame.machine.runFrames i).machine := by
        rw [runFrames_succ_of_ok hf]
      rw [hcall, runFrames_succ_of_ok hf]
      simp only [ih, hmachine, Nat.add_comm 1, List.range_succ_eq_map, List.map_cons, List.map_map,
        Nat.add_sub_add_right, List.cons_append]
      rfl
    · have hcall : m.perform .runFrame =
          ⟨.faulted f, m.runFrame.machine, m.runFrame.log⟩ := by
        rw [perform, runFrame_of_error hf]
        rfl
      have hfault : m.runFrame.machine.fault? = some f := by
        rw [runFrame_of_error hf]
        exact (m.fault?_steps m.config.stepsPerFrame_pos).trans hf
      rw [hcall, runFrames_succ_of_error hf]
      simp only [performAll_runFrame_of_fault? hfault]
      rfl

/-- **Frames are exact groups of steps.** Take any machine, and let `s` be the number of steps in a
frame at its clock rate. A series of up to `n` frames makes the moves that are meant, `n` times `s`
steps and a tick, up to the first step that faults, with all they do and report. All frames are
complete exactly if no step faults, and then `n * s` steps and `n` ticks were made. If one faults
after `j` steps that succeeded, `j / s` frames are complete, with as many ticks. What is left is a
machine that made just these moves and is halted by the fault.

Called for one by one, the complete frames show the screen that is there after them, the next one
gives the fault, and so does every further one without changing anything. -/
theorem frames_exact_groups (m : Machine) (n : Nat) :
    let s := max 1 (m.config.clockRate.toNat / 60)
    let o := m.runFrames n
    let p := m.runMoves (frameMoves s n)
    let j := p.result.steps
    let calls := m.performAll (List.replicate n .runFrame)
    let shown (i : Nat) := Response.shown (m.runFrames (i + 1)).machine.screen
    o = ⟨⟨p.result.ticks, p.result.fault?⟩, p.machine, p.log⟩ ∧
      (o.result = ⟨n, none⟩ ↔ p.result.fault? = none) ∧
      (p.result.fault? = none →
        j = n * s ∧ p.result.ticks = n ∧
          calls = ⟨(List.range n).map shown, p.machine, p.log⟩) ∧
      ∀ f, p.result.fault? = some f →
        let before := m.runMoves ((frameMoves s n).take (j + j / s))
        j / s < n ∧ o.result = ⟨j / s, some f⟩ ∧ p.result.ticks = j / s ∧
          before.result = ⟨j, j / s, none⟩ ∧
          p.machine = { before.machine with fault? := some f } ∧
          calls = ⟨(List.range (j / s)).map shown ++ List.replicate (n - j / s) (.faulted f),
            p.machine, p.log⟩ ∧
          ∀ k, p.machine.performAll (List.replicate k .runFrame) =
            ⟨List.replicate k (.faulted f), p.machine, #[]⟩ := by
  intro s o p j calls shown
  have ho : o = ⟨⟨p.result.ticks, p.result.fault?⟩, p.machine, p.log⟩ := m.runFrames_eq_runMoves n
  have hcalls : calls = ⟨(List.range p.result.ticks).map shown ++
      p.result.fault?.elim [] fun f ↦ List.replicate (n - p.result.ticks) (.faulted f),
      p.machine, p.log⟩ := by
    have hanswers := m.performAll_runFrame n
    rwa [show m.runFrames n = _ from ho] at hanswers
  refine ⟨ho, ⟨fun h ↦ ?_, fun h ↦ ?_⟩, fun h ↦ ?_, fun f h ↦ ?_⟩
  · rw [ho] at h
    exact congrArg Tally.fault? h
  · have hall : p.result = ⟨n * s, n, none⟩ := result_frameMoves_of_none h
    rw [ho, hall]
  · have hall : p.result = ⟨n * s, n, none⟩ := result_frameMoves_of_none h
    refine ⟨congrArg Progress.steps hall, congrArg Progress.ticks hall, ?_⟩
    rw [hcalls, hall]
    show (⟨_ ++ [], p.machine, p.log⟩ : Outcome (List Response)) = _
    rw [List.append_nil]
  · obtain ⟨hlt, r, hr, hsteps⟩ := steps_frameMoves_of_fault h
    have hdiv : j / s = p.result.ticks := by
      have hpos : 0 < s := m.config.stepsPerFrame_pos
      rw [show j = p.result.ticks * s + r from hsteps, Nat.add_comm,
        Nat.add_mul_div_right _ _ hpos, Nat.div_eq_of_lt hr, Nat.zero_add]
    obtain ⟨hbefore, hmachine⟩ := runMoves_take_of_fault h
    have hhalted : p.machine.fault? = some f := congrArg Machine.fault? hmachine
    rw [hdiv]
    refine ⟨hlt, ?_, rfl, hbefore, hmachine, ?_, performAll_runFrame_of_fault? hhalted⟩
    · rw [ho, h]
    · rw [hcalls, h]
      rfl

/-- With a clock that is slower than the frames every frame is one step. The second step of this
program faults, so one of two frames is complete, and what the first step has loaded is kept. -/
theorem frames_exact_groups_of_cut :
    let rom : Rom := ⟨#[0x60, 0x05], by decide⟩
    let m := powerOn { clockRate := 30 } rom 0
    let f := Fault.invalidOpcode 0 0x202
    m.step.result = .ok () ∧ m.step.machine.tick.step.result = .error f ∧
      (m.runFrames 2).result = ⟨1, some f⟩ ∧
      (m.performAll [.runFrame, .runFrame]).result =
        [.shown (m.runFrames 1).machine.screen, .faulted f] ∧
      (m.runFrames 2).machine.state.v V0 = 5 := by
  -- only the clock and the two words count about the machine
  have key (m : Machine) (hm : m.fault? = none) (hclock : m.config.clockRate = 30)
      (hpc : m.state.pc = 0x200) (hfirst : m.state.fetch = Instruction.wordXNN 0x6 0 0x05)
      (hsecond : m.state.memory.readWord 0x202 = 0) :
      let f := Fault.invalidOpcode 0 0x202
      m.step.result = .ok () ∧ m.step.machine.tick.step.result = .error f ∧
        (m.runFrames 2).result = ⟨1, some f⟩ ∧
        (m.performAll [.runFrame, .runFrame]).result =
          [.shown (m.runFrames 1).machine.screen, .faulted f] ∧
        (m.runFrames 2).machine.state.v V0 = 5 := by
    intro f
    have hstep := step_of_fetch (i := .loadImmediate 0 0x05) hm hfirst rfl
    have hok : m.step.result = .ok () := by rw [hstep]
    have hfetch : m.step.machine.tick.state.fetch = 0 := by
      rw [hstep]
      show m.state.memory.readWord (m.state.pc + 2) = 0
      rw [hpc]
      exact hsecond
    have hpc' : m.step.machine.tick.state.pc = 0x202 := by
      rw [hstep]
      show m.state.pc + 2 = 0x202
      rw [hpc]
      rfl
    have hrunning : m.step.machine.tick.fault? = none := (fault?_of_step_ok hok).2
    have hinvalid : Instruction.decode m.step.machine.tick.state.fetch = none := by
      rw [hfetch]
      decide
    have herror : m.step.machine.tick.step.result = .error f := by
      rw [result_step hrunning, effect_of_decode_none hinvalid, hfetch, hpc']
      rfl
    have hsteps : max 1 (m.config.clockRate.toNat / 60) = 1 := by
      rw [hclock]
      decide
    have hmoves : m.runMoves (frameMoves 1 2) =
        ⟨⟨1, 1, some f⟩, m.step.machine.tick.step.machine,
          m.step.log ++ m.step.machine.tick.step.log⟩ := by
      show m.runMoves [.step, .tick, .step, .tick] = _
      rw [runMoves_step_of_ok hok, runMoves_tick, runMoves_step_of_error herror]
    obtain ⟨hseries, -, -, hcut⟩ := frames_exact_groups m 2
    rw [hsteps, hmoves] at hseries hcut
    obtain ⟨-, hresult, -, -, -, hcalls, -⟩ := hcut f rfl
    rw [Nat.div_one] at hresult hcalls
    refine ⟨hok, herror, hresult, congrArg Outcome.result hcalls, ?_⟩
    rw [hseries, machine_of_step_error herror, hstep]
    exact (Registers.get_set _ _ _ _).trans (if_pos rfl)
  intro rom m f
  refine key m rfl rfl rfl ?_ ?_
  · show (State.powerOn rom 0).fetch = _
    rw [State.fetch_powerOn]
    decide
  · exact (Memory.readWord_ofRom_program rom (by decide) (by decide)).trans (by decide)

end Machine

end Chip8
