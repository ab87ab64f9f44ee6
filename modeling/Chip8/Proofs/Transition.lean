import Chip8.Session

/-!
# What one step can do

All that is proved about runs rests on one list. `StepCase` says in which **five ways** a step can
go: the machine was halted, or the instruction advances, answers a wait, stalls or faults. Each case
carries the whole outcome, and `stepCase` says that there is no other. Later modules take a step
apart by these cases and leave its definition alone.

The loops are opened once as well. `series_succ_of_ok` and `series_succ_of_error` take the first
call off a series, of steps or of frames, and `runFrame_of_ok` and `runFrame_of_error` say what a
frame adds to its steps. `series_add_of_none` and `series_add_of_fault` cut a series at any point.
`fault?_steps` is where it matters that **a frame is never empty**: only a series of at least one
step tells by its answer whether the machine is halted after it.
-/

namespace Chip8

/-! ### Kinds of calls -/

namespace Call

/-- Whether a call switches the machine off and on again. -/
def switchesOn : Call → Bool
  | .load _ _ | .reset _ => true
  | _ => false

/-- Whether a call puts another state in place instead of running the one there is. -/
def replacesState : Call → Bool
  | .load _ _ | .reset _ | .restore _ => true
  | _ => false

/-- Whether a call executes instructions. -/
def runs : Call → Bool
  | .step | .runFrame => true
  | _ => false

end Call

/-! ### Effects -/

namespace Effect

/-- The answer of a step with this effect. -/
def result : Effect → Except Fault Unit
  | faulted f => .error f
  | _ => .ok ()

/-- The state after a step with this effect, from the state before it. -/
def stateAfter (s : State) : Effect → State
  | advanced t | answered t => t
  | stalled | faulted _ => s

end Effect

namespace Machine

/-- The effect of the instruction that the machine stands on. -/
def effect (m : Machine) : Effect :=
  m.state.execute m.config.dialect

/-- The record of the instruction that the machine stands on. -/
def fetchRecord (m : Machine) : Record :=
  .fetched m.state.pc m.state.fetch

/-! ### The cases of a step -/

/-- How a step of `m` can go, with its whole outcome. -/
inductive StepCase (m : Machine) : Outcome (Except Fault Unit) → Prop
  /-- The machine is halted and gives its fault again. -/
  | halted {f : Fault} (h : m.fault? = some f) : StepCase m ⟨.error f, m, #[]⟩
  | advanced {s : State} (h : m.fault? = none) (he : m.effect = .advanced s) :
    StepCase m ⟨.ok (), { m with state := s }, #[m.fetchRecord]⟩
  | answered {s : State} (h : m.fault? = none) (he : m.effect = .answered s) :
    StepCase m ⟨.ok (), { m with state := s, waiting := false }, #[m.fetchRecord]⟩
  | stalled (h : m.fault? = none) (he : m.effect = .stalled) :
    StepCase m ⟨.ok (), { m with waiting := true }, #[m.fetchRecord] ++ m.waitingRecord⟩
  | faulted {f : Fault} (h : m.fault? = none) (he : m.effect = .faulted f) :
    StepCase m ⟨.error f, { m with fault? := some f }, #[m.fetchRecord, .halting f]⟩

theorem step_of_fault? {m : Machine} {f : Fault} (h : m.fault? = some f) :
    m.step = ⟨.error f, m, #[]⟩ := by
  rw [step, h]

theorem step_of_running {m : Machine} (h : m.fault? = none) : m.step = m.stepRunning := by
  rw [step, h]

/-- **Every step goes one of the five ways.** -/
theorem stepCase (m : Machine) : StepCase m m.step := by
  rcases h : m.fault? with - | f
  · rw [step_of_running h, stepRunning]
    rcases he : m.state.execute m.config.dialect with s | s | - | f
    · exact .advanced h he
    · exact .answered h he
    · exact .stalled h he
    · exact .faulted h he
  · rw [step_of_fault? h]
    exact .halted h

theorem step_of_advanced {m : Machine} {s : State} (h : m.fault? = none)
    (he : m.effect = .advanced s) :
    m.step = ⟨.ok (), { m with state := s }, #[m.fetchRecord]⟩ := by
  have hexecute : m.state.execute m.config.dialect = .advanced s := he
  rw [step_of_running h, stepRunning, hexecute]
  rfl

/-- The answer of a running machine is that of the effect. -/
theorem result_step {m : Machine} (h : m.fault? = none) : m.step.result = m.effect.result := by
  have hcase := m.stepCase
  generalize m.step = o at hcase ⊢
  cases hcase with
  | halted h' => rw [h] at h'; exact absurd h' (by simp)
  | advanced _ he | answered _ he | stalled _ he | faulted _ he => rw [he]; rfl

/-- The state after a step of a running machine is that after the effect. -/
theorem state_step {m : Machine} (h : m.fault? = none) :
    m.step.machine.state = m.effect.stateAfter m.state := by
  have hcase := m.stepCase
  generalize m.step = o at hcase ⊢
  cases hcase with
  | halted h' => rw [h] at h'; exact absurd h' (by simp)
  | advanced _ he | answered _ he | stalled _ he | faulted _ he => rw [he]; rfl

/-- What the word at hand decodes to is performed. -/
theorem effect_of_decode {m : Machine} {i : Instruction}
    (h : Instruction.decode m.state.fetch = some i) :
    m.effect = m.state.perform m.config.dialect i := by
  rw [effect, State.execute, h]

theorem effect_of_decode_none {m : Machine} (h : Instruction.decode m.state.fetch = none) :
    m.effect = .faulted (.invalidOpcode m.state.fetch m.state.pc) := by
  rw [effect, State.execute, h]

/-- A step that succeeds was made by a running machine, and leaves it running. -/
theorem fault?_of_step_ok {m : Machine} (h : m.step.result = .ok ()) :
    m.fault? = none ∧ m.step.machine.fault? = none := by
  have hcase := m.stepCase
  generalize m.step = o at hcase h ⊢
  cases hcase with
  | halted _ => exact absurd h (by simp)
  | advanced hm _ | answered hm _ | stalled hm _ => exact ⟨hm, hm⟩
  | faulted _ _ => exact absurd h (by simp)

/-- A step that succeeds has an instruction. -/
theorem exists_decode_of_step_ok {m : Machine} (h : m.step.result = .ok ()) :
    ∃ i, Instruction.decode m.state.fetch = some i := by
  rcases hi : Instruction.decode m.state.fetch with - | i
  · rw [result_step (fault?_of_step_ok h).1, effect_of_decode_none hi] at h
    exact absurd h (by simp [Effect.result])
  · exact ⟨i, rfl⟩

/-- **A step that fails changes nothing** but that the machine is halted by the fault now. -/
theorem machine_of_step_error {m : Machine} {f : Fault} (h : m.step.result = .error f) :
    m.step.machine = { m with fault? := some f } := by
  have hcase := m.stepCase
  generalize m.step = o at hcase h ⊢
  cases hcase with
  | halted hm =>
    obtain rfl := Except.error.inj h
    rw [← hm]
  | advanced _ _ | answered _ _ | stalled _ _ => exact absurd h (by simp)
  | faulted _ _ =>
    obtain rfl := Except.error.inj h
    rfl

@[simp] theorem config_step (m : Machine) : m.step.machine.config = m.config := by
  have hcase := m.stepCase
  generalize m.step = o at hcase ⊢
  cases hcase <;> rfl

/-! ### Series of calls -/

section Series

variable {α : Type} {call : Machine → Outcome (Except Fault α)} {m : Machine}

theorem series_succ_of_ok {a : α} (h : (call m).result = .ok a) (n : Nat) :
    series call (n + 1) 0 #[] m =
      let rest := series call n 0 #[] (call m).machine
      ⟨⟨1 + rest.result.completed, rest.result.fault?⟩, rest.machine,
        (call m).log ++ rest.log⟩ := by
  obtain ⟨m', log, hm⟩ : ∃ m' log, call m = ⟨.ok a, m', log⟩ := ⟨_, _, by rw [← h]⟩
  rw [series, hm]
  exact (series_eq call n (0 + 1) (#[] ++ log) m').trans (by simp)

theorem series_succ_of_error {f : Fault} (h : (call m).result = .error f) (n : Nat) :
    series call (n + 1) 0 #[] m = ⟨⟨0, some f⟩, (call m).machine, (call m).log⟩ := by
  obtain ⟨m', log, hm⟩ : ∃ m' log, call m = ⟨.error f, m', log⟩ := ⟨_, _, by rw [← h]⟩
  rw [series, hm]
  simp

/-- A series that goes through is followed by the rest of a longer one. -/
theorem series_add_of_none {n : Nat} (h : (series call n 0 #[] m).result.fault? = none) (k : Nat) :
    series call (n + k) 0 #[] m =
      let first := series call n 0 #[] m
      let rest := series call k 0 #[] first.machine
      ⟨⟨first.result.completed + rest.result.completed, rest.result.fault?⟩, rest.machine,
        first.log ++ rest.log⟩ := by
  induction n generalizing m with
  | zero => simp [series]
  | succ n ih =>
    rw [Nat.add_right_comm]
    rcases hr : (call m).result with f | a
    · rw [series_succ_of_error hr] at h
      exact absurd h (by simp)
    · rw [series_succ_of_ok hr] at h
      rw [series_succ_of_ok hr, series_succ_of_ok hr, ih h]
      simp [Nat.add_assoc, Array.append_assoc]

/-- **A fault ends every longer series** as it ends this one. -/
theorem series_add_of_fault {n : Nat} {f : Fault}
    (h : (series call n 0 #[] m).result.fault? = some f) (k : Nat) :
    series call (n + k) 0 #[] m = series call n 0 #[] m := by
  induction n generalizing m with
  | zero => exact absurd h (by simp [series])
  | succ n ih =>
    rw [Nat.add_right_comm]
    rcases hr : (call m).result with g | a
    · rw [series_succ_of_error hr, series_succ_of_error hr]
    · rw [series_succ_of_ok hr] at h
      rw [series_succ_of_ok hr, series_succ_of_ok hr, ih h]

/-- A series without a fault has made all its calls. -/
theorem result_series_of_none {n : Nat} (h : (series call n 0 #[] m).result.fault? = none) :
    (series call n 0 #[] m).result = ⟨n, none⟩ := by
  induction n generalizing m with
  | zero => rfl
  | succ n ih =>
    rcases hr : (call m).result with f | a
    · rw [series_succ_of_error hr] at h
      exact absurd h (by simp)
    · rw [series_succ_of_ok hr] at h ⊢
      show (⟨1 + _, _⟩ : Tally) = _
      rw [ih h, Nat.add_comm]

/-- A series that a fault ends has not made all its calls. -/
theorem completed_series_lt_of_fault {n : Nat} {f : Fault}
    (h : (series call n 0 #[] m).result.fault? = some f) :
    (series call n 0 #[] m).result.completed < n := by
  induction n generalizing m with
  | zero => exact absurd h (by simp [series])
  | succ n ih =>
    rcases hr : (call m).result with g | a
    · rw [series_succ_of_error hr]
      exact Nat.succ_pos n
    · rw [series_succ_of_ok hr] at h ⊢
      have hlt := ih h
      show 1 + _ < n + 1
      omega

/-- A call that succeeds and changes nothing does so again and again. -/
theorem series_of_rest {a : α} (hresult : (call m).result = .ok a)
    (hmachine : (call m).machine = m) (n : Nat) :
    (series call n 0 #[] m).result.fault? = none ∧ (series call n 0 #[] m).machine = m := by
  induction n with
  | zero => exact ⟨rfl, rfl⟩
  | succ n ih =>
    rw [series_succ_of_ok hresult, hmachine]
    exact ih

/-- What every call keeps, every series of calls keeps. -/
theorem series_induction {P : Machine → Prop} (hcall : ∀ m, P m → P (call m).machine) (n : Nat)
    (h : P m) : P (series call n 0 #[] m).machine := by
  induction n generalizing m with
  | zero => exact h
  | succ n ih =>
    rcases hr : (call m).result with f | a
    · rw [series_succ_of_error hr]
      exact hcall m h
    · rw [series_succ_of_ok hr]
      exact ih (hcall m h)

end Series

/-! ### Series of steps -/

@[simp] theorem steps_zero (m : Machine) : m.steps 0 = ⟨⟨0, none⟩, m, #[]⟩ := rfl

theorem steps_succ_of_ok {m : Machine} (h : m.step.result = .ok ()) (n : Nat) :
    m.steps (n + 1) =
      let rest := m.step.machine.steps n
      ⟨⟨1 + rest.result.completed, rest.result.fault?⟩, rest.machine, m.step.log ++ rest.log⟩ :=
  series_succ_of_ok h n

theorem steps_succ_of_error {m : Machine} {f : Fault} (h : m.step.result = .error f) (n : Nat) :
    m.steps (n + 1) = ⟨⟨0, some f⟩, m.step.machine, m.step.log⟩ :=
  series_succ_of_error h n

theorem machine_steps_one (m : Machine) : (m.steps 1).machine = m.step.machine := by
  rcases hr : m.step.result with f | u
  · rw [steps_succ_of_error hr]
  · rw [steps_succ_of_ok hr, steps_zero]

/-- What every step keeps, every series of steps keeps. -/
theorem steps_induction {P : Machine → Prop} (hstep : ∀ m, P m → P m.step.machine) (n : Nat)
    {m : Machine} (h : P m) : P (m.steps n).machine :=
  series_induction hstep n h

@[simp] theorem config_steps (m : Machine) (n : Nat) : (m.steps n).machine.config = m.config :=
  steps_induction (P := fun m' ↦ m'.config = m.config) (fun m' h ↦ by rw [config_step, h]) n rfl

/-- **The answer of a series that is not empty tells whether the machine is halted after it.** -/
theorem fault?_steps (m : Machine) {n : Nat} (hn : 0 < n) :
    (m.steps n).machine.fault? = (m.steps n).result.fault? := by
  -- the induction is on the number of steps after the first one
  obtain ⟨n, rfl⟩ : ∃ k, n = k + 1 := ⟨n - 1, by omega⟩
  clear hn
  induction n generalizing m with
  | zero =>
    rcases hr : m.step.result with f | u
    · rw [steps_succ_of_error hr, machine_of_step_error hr]
    · rw [steps_succ_of_ok hr]
      exact (fault?_of_step_ok hr).2
  | succ n ih =>
    rcases hr : m.step.result with f | u
    · rw [steps_succ_of_error hr, machine_of_step_error hr]
    · rw [steps_succ_of_ok hr]
      exact ih m.step.machine

/-- **A series that a fault ends has changed nothing since the last step that succeeded**, but that
the machine is halted now. -/
theorem machine_steps_of_fault {m : Machine} {n : Nat} {f : Fault}
    (h : (m.steps n).result.fault? = some f) :
    ∃ k < n, (m.steps k).result = ⟨k, none⟩ ∧
      (m.steps n).machine = { (m.steps k).machine with fault? := some f } := by
  induction n generalizing m with
  | zero => exact absurd h (by simp)
  | succ n ih =>
    rcases hr : m.step.result with g | u
    · -- no step has succeeded yet
      rw [steps_succ_of_error hr] at h ⊢
      obtain rfl : g = f := Option.some.inj h
      exact ⟨0, by omega, rfl, machine_of_step_error hr⟩
    · rw [steps_succ_of_ok hr] at h ⊢
      obtain ⟨k, hk, hresult, hmachine⟩ := ih h
      refine ⟨k + 1, by omega, ?_, ?_⟩
      · rw [steps_succ_of_ok hr]
        show (⟨1 + _, _⟩ : Tally) = _
        rw [hresult, Nat.add_comm]
      · rw [steps_succ_of_ok hr]
        exact hmachine

/-! ### Frames -/

/-- The machine after the tick at the end of a frame. -/
def tick (m : Machine) : Machine :=
  { m with state := m.state.tick }

theorem runFrame_of_ok {m : Machine} (h : (m.steps m.config.stepsPerFrame).result.fault? = none) :
    m.runFrame =
      let o := m.steps m.config.stepsPerFrame
      ⟨.ok o.machine.screen, o.machine.tick, o.log⟩ := by
  rcases hs : m.steps m.config.stepsPerFrame with ⟨⟨completed, fault?⟩, m', log⟩
  rw [hs] at h
  obtain rfl : fault? = none := h
  rw [runFrame, hs]
  rfl

theorem runFrame_of_error {m : Machine} {f : Fault}
    (h : (m.steps m.config.stepsPerFrame).result.fault? = some f) :
    m.runFrame =
      let o := m.steps m.config.stepsPerFrame
      ⟨.error f, o.machine, o.log⟩ := by
  rcases hs : m.steps m.config.stepsPerFrame with ⟨⟨completed, fault?⟩, m', log⟩
  rw [hs] at h
  obtain rfl : fault? = some f := h
  rw [runFrame, hs]

/-- A frame ends with its first step if that one fails. -/
theorem result_runFrame_of_step_error {m : Machine} {f : Fault} (h : m.step.result = .error f) :
    m.runFrame.result = .error f := by
  obtain ⟨n, hn⟩ : ∃ n, m.config.stepsPerFrame = n + 1 :=
    ⟨m.config.stepsPerFrame - 1, by have := m.config.stepsPerFrame_pos; omega⟩
  rw [runFrame_of_error (f := f) (by rw [hn, steps_succ_of_error h])]

/-- What every step and the tick of every running machine keeps, every frame keeps. -/
theorem runFrame_induction {P : Machine → Prop} (hstep : ∀ m, P m → P m.step.machine)
    (htick : ∀ m, m.fault? = none → P m → P m.tick) {m : Machine} (h : P m) :
    P m.runFrame.machine := by
  have hsteps := steps_induction hstep m.config.stepsPerFrame h
  rcases hf : (m.steps m.config.stepsPerFrame).result.fault? with - | f
  · rw [runFrame_of_ok hf]
    -- the tick is only reached by a machine that still runs
    refine htick _ ?_ hsteps
    rw [fault?_steps m m.config.stepsPerFrame_pos, hf]
  · rw [runFrame_of_error hf]
    exact hsteps

/-! ### Calls -/

/-- The machine with other keys. -/
def withKeypad (m : Machine) (k : Keypad) : Machine :=
  { m with state := { m.state with keypad := k } }

theorem exists_withKeypad_self (m : Machine) : ∃ k, m = m.withKeypad k := ⟨m.state.keypad, rfl⟩

/-- Replacing the keys changes the keys at most, also when it is refused. -/
theorem machine_setKeys (m : Machine) (keys : List Bool) :
    ∃ k, (m.setKeys keys).machine = m.withKeypad k := by
  rw [setKeys]
  split
  · exact ⟨_, rfl⟩
  · exact m.exists_withKeypad_self

@[simp] theorem machine_perform_step (m : Machine) :
    (m.perform .step).machine = m.step.machine := rfl

@[simp] theorem machine_perform_runFrame (m : Machine) :
    (m.perform .runFrame).machine = m.runFrame.machine := rfl

@[simp] theorem machine_perform_reset (m : Machine) (entropy : UInt64) :
    (m.perform (.reset entropy)).machine = powerOn m.config m.rom entropy := rfl

@[simp] theorem config_powerOn (config : Config) (rom : Rom) (entropy : UInt64) :
    (powerOn config rom entropy).config = config := rfl

theorem load_of_size_le {m : Machine} {bytes : Array UInt8} (h : bytes.size ≤ maxRomSize)
    (entropy : UInt64) :
    m.load bytes entropy =
      ⟨.ok (), powerOn m.config ⟨bytes, h⟩ entropy, #[.loaded bytes.size]⟩ := by
  have hrom : Rom.ofBytes bytes = .ok ⟨bytes, h⟩ := Rom.ofBytes_eq_ok_iff.2 rfl
  rw [load, hrom]

theorem load_of_lt_size {m : Machine} {bytes : Array UInt8} (h : maxRomSize < bytes.size)
    (entropy : UInt64) : m.load bytes entropy = ⟨.error ⟨bytes.size⟩, m, #[]⟩ := by
  rw [load, Rom.ofBytes_eq_error_iff.2 ⟨h, rfl⟩]

/-- Restoring bytes that are the form of a snapshot puts its state in place and sets the machine
going again. -/
theorem restore_of_decode {m : Machine} {bytes : Array UInt8} {s : Snapshot}
    (h : Snapshot.decode bytes = .ok s) :
    m.restore bytes =
      ⟨.ok (), { m with state := s.state, fault? := none, waiting := false },
        #[.restored s.state.pc]⟩ := by
  rw [restore, h]

theorem restore_of_decode_error {m : Machine} {bytes : Array UInt8} {e : SnapshotError}
    (h : Snapshot.decode bytes = .error e) : m.restore bytes = ⟨.error e, m, #[]⟩ := by
  rw [restore, h]

/-- Restoring what another machine has saved puts the state of that machine in place. -/
theorem restore_snapshot (m n : Machine) :
    m.restore n.snapshot.toArray =
      ⟨.ok (), { m with state := n.state, fault? := none, waiting := false },
        #[.restored n.state.pc]⟩ :=
  restore_of_decode (Snapshot.decode_encode (Snapshot.ofState n.state))

@[simp] theorem config_runFrame (m : Machine) : m.runFrame.machine.config = m.config :=
  runFrame_induction (P := fun m' ↦ m'.config = m.config)
    (fun m' h ↦ by rw [config_step, h]) (fun _ _ h ↦ h) rfl

/-- No call changes the configuration. -/
@[simp] theorem config_perform (m : Machine) (c : Call) :
    (m.perform c).machine.config = m.config := by
  cases c with
  | load bytes entropy =>
    show (m.load bytes entropy).machine.config = m.config
    rw [load]
    split
    · exact config_powerOn _ _ _
    · rfl
  | reset entropy => rw [machine_perform_reset, config_powerOn]
  | step => exact m.config_step
  | runFrame => exact m.config_runFrame
  | setKeys keys =>
    obtain ⟨k, hk⟩ := m.machine_setKeys keys
    show (m.setKeys keys).machine.config = m.config
    rw [hk, withKeypad]
  | restore bytes =>
    show (m.restore bytes).machine.config = m.config
    rw [restore]
    split <;> rfl
  | screen | snapshot => rfl

/-- The machines that calls lead to, from one that was switched on without a program. -/
inductive Reachable : Machine → Prop
  | powerOn (config : Config) (entropy : UInt64) : Reachable (powerOn config Rom.empty entropy)
  | perform {m : Machine} (h : Reachable m) (c : Call) : Reachable (m.perform c).machine

end Machine

end Chip8
