import Chip8.Proofs.Transition

/-!
# Histories of runs

What a run has done is a list of **events**: the instructions that were executed, each with the
state that it was executed in, and the ticks of the timers. An instruction that faults has not been
executed, and a frame that a fault cuts short has not ticked.

`Follows` is what a statement about a history and the machine after it has to be kept by: a step
that succeeds, a halt, a tick of a running machine, and other keys. `Follows.performAll` then gives
it for every list of calls, and `Follows.steps` goes on from there to the points within a frame.
-/

namespace Chip8

/-- Something that happens in a run. -/
inductive Event where
  /-- The instruction at hand in this state was executed, without a fault. -/
  | executed (s : State)
  /-- Both timers ticked. -/
  | ticked
  deriving DecidableEq, Repr

namespace Machine

/-! ### Events of series, calls and sessions -/

/-- The events of up to `n` steps: for each that succeeds, the state that was there before it. -/
def stepEvents (m : Machine) (n : Nat) : List Event :=
  (List.range (m.steps n).result.completed).map fun k ↦ .executed (m.steps k).machine.state

@[simp] theorem stepEvents_zero (m : Machine) : m.stepEvents 0 = [] := rfl

theorem stepEvents_succ_of_ok {m : Machine} (h : m.step.result = .ok ()) (n : Nat) :
    m.stepEvents (n + 1) = .executed m.state :: m.step.machine.stepEvents n := by
  have hnext (k : Nat) :
      (m.steps (k + 1)).machine.state = (m.step.machine.steps k).machine.state := by
    rw [steps_succ_of_ok h]
  have hcompleted :
      (m.steps (n + 1)).result.completed = (m.step.machine.steps n).result.completed + 1 := by
    rw [steps_succ_of_ok h]
    exact Nat.add_comm _ _
  rw [stepEvents, hcompleted, List.range_succ_eq_map, List.map_cons, List.map_map, stepEvents]
  simp only [Function.comp_def, Nat.succ_eq_add_one, hnext, steps_zero]

theorem stepEvents_succ_of_error {m : Machine} {f : Fault} (h : m.step.result = .error f)
    (n : Nat) : m.stepEvents (n + 1) = [] := by
  rw [stepEvents, steps_succ_of_error h]
  rfl

/-- Steps that go through are followed by the steps after them. -/
theorem stepEvents_add_of_none {m : Machine} {n : Nat} (h : (m.steps n).result.fault? = none)
    (k : Nat) : m.stepEvents (n + k) = m.stepEvents n ++ (m.steps n).machine.stepEvents k := by
  induction n generalizing m with
  | zero => rw [Nat.zero_add]; rfl
  | succ n ih =>
    rw [Nat.add_right_comm]
    rcases hr : m.step.result with f | u
    · rw [steps_succ_of_error hr] at h
      exact absurd h (by simp)
    · rw [steps_succ_of_ok hr] at h ⊢
      rw [stepEvents_succ_of_ok hr, stepEvents_succ_of_ok hr, ih h]
      rfl

/-- No step comes after a fault. -/
theorem stepEvents_add_of_fault {m : Machine} {n : Nat} {f : Fault}
    (h : (m.steps n).result.fault? = some f) (k : Nat) : m.stepEvents (n + k) = m.stepEvents n := by
  have hsteps : m.steps (n + k) = m.steps n := series_add_of_fault h k
  rw [stepEvents, hsteps, stepEvents]

/-- The events of a call. Looking at the machine, changing its keys and putting another state in
place are none. -/
def events (m : Machine) : Call → List Event
  | .step => m.stepEvents 1
  | .runFrame =>
    let steps := m.stepEvents m.config.stepsPerFrame
    match m.runFrame.result with
    | .ok _ => steps ++ [.ticked]
    | .error _ => steps
  | _ => []

/-- The events of up to `n` frames. None follow the first one that faults. -/
def frameEvents (m : Machine) : Nat → List Event
  | 0 => []
  | n + 1 =>
    match m.runFrame.result with
    | .ok _ => m.events .runFrame ++ m.runFrame.machine.frameEvents n
    | .error _ => m.events .runFrame

theorem frameEvents_succ_of_ok {m : Machine}
    (h : (m.steps m.config.stepsPerFrame).result.fault? = none) (n : Nat) :
    m.frameEvents (n + 1) =
      m.stepEvents m.config.stepsPerFrame ++
        .ticked :: (m.steps m.config.stepsPerFrame).machine.tick.frameEvents n := by
  rw [frameEvents, events, runFrame_of_ok h]
  exact List.append_assoc _ _ _

theorem frameEvents_succ_of_error {m : Machine} {f : Fault}
    (h : (m.steps m.config.stepsPerFrame).result.fault? = some f) (n : Nat) :
    m.frameEvents (n + 1) = m.stepEvents m.config.stepsPerFrame := by
  rw [frameEvents, events, runFrame_of_error h]

/-- The events of calls made one after the other. -/
def history (m : Machine) : List Call → List Event
  | [] => []
  | c :: cs => m.events c ++ (m.perform c).machine.history cs

/-- The events up to a moment of a run, which is some steps after some calls: the steps may lie
within a frame. -/
def eventsUntil (m : Machine) (calls : List Call) (k : Nat) : List Event :=
  m.history calls ++ (m.performAll calls).machine.stepEvents k

theorem eventsUntil_cons (m : Machine) (c : Call) (calls : List Call) (k : Nat) :
    m.eventsUntil (c :: calls) k = m.events c ++ (m.perform c).machine.eventsUntil calls k :=
  List.append_assoc _ _ _

theorem history_step_of_ok {m : Machine} (h : m.step.result = .ok ()) :
    m.history [.step] = [.executed m.state] := by
  show m.stepEvents 1 ++ [] = _
  rw [stepEvents_succ_of_ok h, stepEvents_zero, List.append_nil]

/-- The events of one call of a step that succeeds. -/
theorem eventsUntil_step_of_ok {m : Machine} (h : m.step.result = .ok ()) :
    m.eventsUntil [.step] 0 = [.executed m.state] := by
  rw [eventsUntil, history_step_of_ok h, stepEvents_zero, List.append_nil]

/-! ### Statements that follow the events -/

/-- A statement about a history and the machine after it that all that can happen keeps. -/
structure Follows (I : List Event → Machine → Prop) : Prop where
  step : ∀ {es m}, I es m → m.step.result = .ok () →
    I (es ++ [.executed m.state]) m.step.machine
  halt : ∀ {es m}, I es m → ∀ f, I es { m with fault? := some f }
  tick : ∀ {es m}, I es m → m.fault? = none → I (es ++ [.ticked]) m.tick
  keys : ∀ {es m}, I es m → ∀ k, I es (m.withKeypad k)

variable {I : List Event → Machine → Prop} {es : List Event} {m : Machine}

/-- It is kept by every series of steps. -/
theorem Follows.steps (hI : Follows I) (h : I es m) (n : Nat) :
    I (es ++ m.stepEvents n) (m.steps n).machine := by
  induction n generalizing es m with
  | zero => simpa using h
  | succ n ih =>
    rcases hr : m.step.result with f | u
    · rw [stepEvents_succ_of_error hr, List.append_nil, steps_succ_of_error hr,
        machine_of_step_error hr]
      exact hI.halt h f
    · rw [stepEvents_succ_of_ok hr, List.append_cons, steps_succ_of_ok hr]
      exact ih (hI.step h hr)

/-- It is kept by every frame. -/
theorem Follows.runFrame (hI : Follows I) (h : I es m) :
    I (es ++ m.events .runFrame) m.runFrame.machine := by
  have hsteps := hI.steps h m.config.stepsPerFrame
  rcases hf : (m.steps m.config.stepsPerFrame).result.fault? with - | f
  · have hrunning : (m.steps m.config.stepsPerFrame).machine.fault? = none := by
      rw [fault?_steps m m.config.stepsPerFrame_pos, hf]
    rw [events, runFrame_of_ok hf]
    show I (es ++ (m.stepEvents m.config.stepsPerFrame ++ [.ticked])) _
    -- the tick comes after the steps, in a machine that they have not halted
    rw [← List.append_assoc]
    exact hI.tick hsteps hrunning
  · rw [events, runFrame_of_error hf]
    exact hsteps

/-- It is kept by every call that does not put another state in place. -/
theorem Follows.perform (hI : Follows I) (h : I es m) {c : Call} (hc : c.replacesState = false) :
    I (es ++ m.events c) (m.perform c).machine := by
  cases c with
  | step =>
    have hone := hI.steps h 1
    rwa [machine_steps_one] at hone
  | runFrame => exact hI.runFrame h
  | setKeys keys =>
    obtain ⟨k, hk⟩ := m.machine_setKeys keys
    show I (es ++ []) (m.setKeys keys).machine
    rw [List.append_nil, hk]
    exact hI.keys h k
  | screen | snapshot =>
    show I (es ++ []) m
    rwa [List.append_nil]
  | load _ _ | reset _ | restore _ => exact absurd hc (by simp [Call.replacesState])

/-- **It is kept over any calls that do not put another state in place.** -/
theorem Follows.performAll (hI : Follows I) (h : I es m) {calls : List Call}
    (hc : ∀ c ∈ calls, c.replacesState = false) :
    I (es ++ m.history calls) (m.performAll calls).machine := by
  induction calls generalizing es m with
  | nil => simpa [history] using h
  | cons c calls ih =>
    rw [history, ← List.append_assoc]
    exact ih (hI.perform h (hc c (by simp))) fun c' hc' ↦ hc c' (by simp [hc'])

/-- It holds at every moment of such a run. -/
theorem Follows.until (hI : Follows I) (h : I es m) {calls : List Call}
    (hc : ∀ c ∈ calls, c.replacesState = false) (k : Nat) :
    I (es ++ m.eventsUntil calls k) ((m.performAll calls).machine.steps k).machine := by
  rw [eventsUntil, ← List.append_assoc]
  exact hI.steps (hI.performAll h hc) k

end Machine

end Chip8
