import Chip8.Proofs.History
import Chip8.Proofs.KeyWaits
import Chip8.Proofs.Opcodes

/-!
# Accounting for the log

Records come from three layers: an instruction reports its fetch and the start of a wait, a step
reports the fault that halts the machine, and loading, resetting and restoring report themselves.
What is left out depends on the past, because a halted machine and one that is known to wait say
nothing more. `report` lists what has to be in the log from the outside, by the answers of the calls
and the steps that are attempted, and `log_accounts` says that **this list is the log**.

The counts rest on one equation for each kind of call. Every fetch is that of a step that succeeds
or of one that warns, and `reported_warn_perform` says that a call warns exactly if it halts a
machine that was running. Two warnings therefore need a call in between that sets the machine going
again.
-/

namespace Chip8

open Instruction

/-! ### Reading a log -/

/-- What is written of a record: its level and its text. -/
def Record.entry (r : Record) : Level × String :=
  (r.level, r.text)

/-- What is written of the records of a log, in order. -/
def entries (log : Array Record) : List (Level × String) :=
  log.toList.map Record.entry

/-- How many records of a level a log has. -/
def reported (l : Level) (log : Array Record) : Nat :=
  (log.toList.map Record.level).count l

theorem entries_append (log new : Array Record) :
    entries (log ++ new) = entries log ++ entries new := by
  simp [entries]

theorem reported_append (l : Level) (log new : Array Record) :
    reported l (log ++ new) = reported l log + reported l new := by
  simp [reported]

/-- The count of a level is that among what is written. -/
theorem reported_eq (l : Level) (log : Array Record) :
    reported l log = ((entries log).map Prod.fst).count l := by
  rw [entries, List.map_map]
  rfl

/-- Whether an event is a step that has succeeded. -/
def Event.isExecuted : Event → Bool
  | .executed _ => true
  | .ticked => false

namespace Machine

variable {m : Machine} {f : Fault}

/-! ### What has to be reported -/

/-- The machines that a series of up to `n` steps makes its attempts on. A halted machine attempts
nothing. -/
def attempts (m : Machine) : Nat → List Machine
  | 0 => []
  | n + 1 => if m.fault? = none then m :: m.step.machine.attempts n else []

/-- The next step is the first one of a wait: it stands on `FX0A`, finds no key down, and the
machine is not known to wait. -/
def StartsWaiting (m : Machine) : Prop :=
  (∃ x, m.state.fetch = wordXNN 0xF x 0x0A) ∧ true ∉ m.keys ∧ m.waiting = false

instance (m : Machine) : Decidable m.StartsWaiting :=
  inferInstanceAs (Decidable (_ ∧ _ ∧ _))

/-- What has to be reported by the next step of a running machine. -/
def stepReport (m : Machine) : List (Level × String) :=
  (.trace, s!"{Hexadecimal.address m.state.pc}: {Hexadecimal.opcode m.state.fetch}") ::
    match m.step.result with
    | .error f => [(.warn, s!"halting: {f.message}")]
    | .ok _ =>
      if m.StartsWaiting then
        [(.debug, s!"{Hexadecimal.address m.state.pc}: waiting for a key")]
      else []

/-- What has to be reported by a call. Refused calls, changing the keys and looking at the machine
are silent. -/
def callReport (m : Machine) : Call → List (Level × String)
  | .step => (m.attempts 1).flatMap stepReport
  | .runFrame => (m.attempts m.config.stepsPerFrame).flatMap stepReport
  | .load bytes entropy =>
    if (m.perform (.load bytes entropy)).result = .done then
      [(.info, s!"loaded {bytes.size} byte ROM")]
    else []
  | .reset _ => [(.info, "reset")]
  | .restore bytes =>
    let o := m.perform (.restore bytes)
    if o.result = .done then
      [(.debug, s!"restored snapshot, pc = {Hexadecimal.address o.machine.state.pc}")]
    else []
  | .setKeys _ | .screen | .snapshot => []

/-- What has to be reported by calls made one after the other. -/
def report (m : Machine) : List Call → List (Level × String)
  | [] => []
  | c :: cs => m.callReport c ++ (m.perform c).machine.report cs

/-! ### The entries -/

/-- A step stalls on `FX0A` while no key is down. -/
theorem effect_eq_stalled_iff :
    m.effect = .stalled ↔ (∃ x, m.state.fetch = wordXNN 0xF x 0x0A) ∧ true ∉ m.keys := by
  rw [effect, State.execute_eq_stalled_iff, Keypad.firstDown?_eq_none_iff_not_mem]
  simp only [decode_eq_some_iff, eq_comm (b := m.state.fetch)]
  rfl

/-- **The records of a step** of a running machine. -/
theorem entries_step (h : m.fault? = none) : entries m.step.log = m.stepReport := by
  have hstalled := m.effect_eq_stalled_iff
  have hcase := m.stepCase
  rw [stepReport]
  generalize m.step = o at hcase ⊢
  cases hcase with
  | halted hf => exact absurd (h.symm.trans hf) (by simp)
  | advanced _ he | answered _ he =>
    have hnot : ¬ m.StartsWaiting := fun hw ↦ by
      rw [hstalled.2 ⟨hw.1, hw.2.1⟩] at he
      exact absurd he (by simp)
    simp only [if_neg hnot]
    rfl
  | stalled _ he =>
    obtain ⟨hword, hkeys⟩ := hstalled.1 he
    rcases hw : m.waiting with - | -
    · have hstarts : m.StartsWaiting := ⟨hword, hkeys, hw⟩
      simp only [if_pos hstarts, waitingRecord, hw]
      rfl
    · have hnot : ¬ m.StartsWaiting := fun hs ↦ absurd (hw.symm.trans hs.2.2) (by simp)
      simp only [if_neg hnot, waitingRecord, hw]
      rfl
  | faulted _ _ => rfl

@[simp] theorem attempts_of_fault? (h : m.fault? = some f) (n : Nat) : m.attempts n = [] := by
  cases n with
  | zero => rfl
  | succ n => rw [attempts, if_neg (by rw [h]; simp)]

/-- The records of a series are those of its attempts. -/
theorem entries_steps (m : Machine) (n : Nat) :
    entries (m.steps n).log = (m.attempts n).flatMap stepReport := by
  induction n generalizing m with
  | zero => rfl
  | succ n ih =>
    rcases hm : m.fault? with - | f
    · rw [attempts, if_pos hm, List.flatMap_cons, ← entries_step hm]
      rcases hr : m.step.result with f | u
      · -- there are no attempts after a fault
        have hhalted : m.step.machine.fault? = some f := by rw [machine_of_step_error hr]
        rw [steps_succ_of_error hr, attempts_of_fault? hhalted]
        exact (List.append_nil _).symm
      · rw [steps_succ_of_ok hr, ← ih]
        exact entries_append _ _
    · have hr : m.step.result = .error f := by rw [step_of_fault? hm]
      rw [attempts_of_fault? hm, steps_succ_of_error hr, step_of_fault? hm]
      rfl

/-- A frame reports what its steps report. -/
theorem log_runFrame (m : Machine) : m.runFrame.log = (m.steps m.config.stepsPerFrame).log := by
  rcases hf : (m.steps m.config.stepsPerFrame).result.fault? with - | f
  · rw [runFrame_of_ok hf]
  · rw [runFrame_of_error hf]

theorem log_steps_one (m : Machine) : (m.steps 1).log = m.step.log := by
  rcases hr : m.step.result with f | u
  · rw [steps_succ_of_error hr]
  · rw [steps_succ_of_ok hr, steps_zero]
    exact Array.append_empty

/-- **The records of a call** on any machine. -/
theorem entries_perform (m : Machine) (c : Call) : entries (m.perform c).log = m.callReport c := by
  cases c with
  | step =>
    show entries m.step.log = (m.attempts 1).flatMap stepReport
    rw [← entries_steps, log_steps_one]
  | runFrame =>
    show entries m.runFrame.log = (m.attempts m.config.stepsPerFrame).flatMap stepReport
    rw [← entries_steps, log_runFrame]
  | load bytes entropy =>
    rw [callReport, perform, Outcome.map]
    rcases Nat.lt_or_ge maxRomSize bytes.size with hlt | hle
    · rw [load_of_lt_size hlt]
      rfl
    · rw [load_of_size_le hle]
      rfl
  | reset entropy => rfl
  | setKeys keys =>
    rw [callReport, perform, Outcome.map, setKeys]
    split <;> rfl
  | restore bytes =>
    rw [callReport, perform, Outcome.map]
    rcases hs : Snapshot.decode bytes with e | s
    · rw [restore_of_decode_error hs]
      rfl
    · rw [restore_of_decode hs]
      rfl
  | screen | snapshot => rfl

/-- **The records of a list of calls.** -/
theorem entries_performAll (m : Machine) (calls : List Call) :
    entries (m.performAll calls).log = m.report calls := by
  induction calls generalizing m with
  | nil => rfl
  | cons c calls ih =>
    rw [performAll, report, ← ih, ← entries_perform]
    exact entries_append _ _

/-! ### The counts -/

/-- A step that succeeds reports its fetch, and warns of nothing. -/
theorem reported_step_of_ok (h : m.step.result = .ok ()) :
    reported .trace m.step.log = 1 ∧ reported .warn m.step.log = 0 := by
  have hcase := m.stepCase
  generalize m.step = o at hcase h ⊢
  cases hcase with
  | stalled _ _ => rw [waitingRecord]; cases m.waiting <;> exact ⟨rfl, rfl⟩
  | advanced _ _ | answered _ _ => exact ⟨rfl, rfl⟩
  | halted _ | faulted _ _ => exact absurd h (by simp)

/-- A step that fails reports its fetch and warns, unless the machine was halted before. -/
theorem reported_step_of_error (h : m.step.result = .error f) (l : Level)
    (hl : l = .trace ∨ l = .warn) : reported l m.step.log = if m.fault? = none then 1 else 0 := by
  have hcase := m.stepCase
  generalize m.step = o at hcase h ⊢
  cases hcase with
  | halted hm => rw [if_neg (by rw [hm]; simp)]; rfl
  | faulted hm _ => rw [if_pos hm]; rcases hl with rfl | rfl <;> rfl
  | advanced _ _ | answered _ _ | stalled _ _ => exact absurd h (by simp)

/-- **A fetch is that of a step that succeeds or of one that warns.** -/
theorem reported_trace_steps (m : Machine) (n : Nat) :
    reported .trace (m.steps n).log =
      (m.steps n).result.completed + reported .warn (m.steps n).log := by
  induction n generalizing m with
  | zero => rfl
  | succ n ih =>
    rcases hr : m.step.result with f | u
    · have htrace : reported .trace m.step.log = reported .warn m.step.log := by
        rw [reported_step_of_error hr _ (.inl rfl), reported_step_of_error hr _ (.inr rfl)]
      rw [steps_succ_of_error hr]
      exact htrace.trans (Nat.zero_add _).symm
    · obtain ⟨htrace, hwarn⟩ := reported_step_of_ok hr
      have hrest := ih m.step.machine
      rw [steps_succ_of_ok hr, reported_append, reported_append, htrace, hwarn, hrest, Nat.zero_add,
        Nat.add_assoc]

/-- A series warns, once, if it halts a machine that was running. -/
theorem reported_warn_steps (m : Machine) (n : Nat) :
    reported .warn (m.steps n).log =
      if m.fault? = none ∧ (m.steps n).machine.fault? ≠ none then 1 else 0 := by
  induction n generalizing m with
  | zero => exact (if_neg fun h ↦ h.2 h.1).symm
  | succ n ih =>
    rcases hr : m.step.result with f | u
    · have hwarn := reported_step_of_error hr .warn (.inr rfl)
      have hhalted : m.step.machine.fault? ≠ none := by rw [machine_of_step_error hr]; simp
      rw [steps_succ_of_error hr]
      simp only [hhalted, ne_eq, not_false_eq_true, and_true]
      exact hwarn
    · obtain ⟨hm, hm'⟩ := fault?_of_step_ok hr
      have hwarn := (reported_step_of_ok hr).2
      have hrest := ih m.step.machine
      rw [steps_succ_of_ok hr, reported_append, hwarn, hrest, Nat.zero_add]
      simp only [hm, hm', true_and]

theorem countP_stepEvents (m : Machine) (n : Nat) :
    (m.stepEvents n).countP Event.isExecuted = (m.steps n).result.completed := by
  rw [stepEvents, List.countP_map]
  simp [Function.comp_def, Event.isExecuted]

theorem countP_events_runFrame (m : Machine) :
    (m.events .runFrame).countP Event.isExecuted =
      (m.steps m.config.stepsPerFrame).result.completed := by
  rw [← countP_stepEvents, events]
  split
  · rw [List.countP_append]
    rfl
  · rfl

/-- The tick at the end of a frame does not end a halt. -/
theorem fault?_runFrame (m : Machine) :
    m.runFrame.machine.fault? = (m.steps m.config.stepsPerFrame).machine.fault? := by
  rcases hf : (m.steps m.config.stepsPerFrame).result.fault? with - | f
  · rw [runFrame_of_ok hf]
    rfl
  · rw [runFrame_of_error hf]

/-- A call that executes nothing leaves a running machine running. -/
theorem fault?_perform_of_not_runs {c : Call} (hc : c.runs = false) (hm : m.fault? = none) :
    (m.perform c).machine.fault? = none := by
  by_cases hrevives : c.Revives
  · exact (perform_of_revives hrevives).2
  · obtain ⟨⟨k, hk⟩, -⟩ := perform_of_not_runs (m := m) hrevives hc
    rw [hk]
    exact hm

/-- A call that executes nothing reports no fetch and no warning. -/
theorem reported_perform_of_not_runs {c : Call} (hc : c.runs = false) {l : Level}
    (hl : l = .trace ∨ l = .warn) : reported l (m.perform c).log = 0 := by
  rw [reported_eq, entries_perform]
  cases c with
  | step | runFrame => exact absurd hc (by simp [Call.runs])
  | load _ _ | restore _ =>
    simp only [callReport]
    split <;> rcases hl with rfl | rfl <;> rfl
  | reset _ | setKeys _ | screen | snapshot => rcases hl with rfl | rfl <;> rfl

theorem reported_trace_perform (m : Machine) (c : Call) :
    reported .trace (m.perform c).log =
      (m.events c).countP Event.isExecuted + reported .warn (m.perform c).log := by
  have hsteps := m.reported_trace_steps
  cases c with
  | step =>
    have hone := hsteps 1
    rw [← countP_stepEvents, log_steps_one] at hone
    exact hone
  | runFrame =>
    have hframe := hsteps m.config.stepsPerFrame
    rw [← countP_events_runFrame, ← log_runFrame] at hframe
    exact hframe
  | load _ _ | reset _ | setKeys _ | restore _ | screen | snapshot =>
    rw [reported_perform_of_not_runs rfl (.inl rfl), reported_perform_of_not_runs rfl (.inr rfl)]
    rfl

/-- **There are as many fetches as steps that succeed and warnings**, over every list of calls. -/
theorem reported_trace_performAll (m : Machine) (calls : List Call) :
    reported .trace (m.performAll calls).log =
      (m.history calls).countP Event.isExecuted + reported .warn (m.performAll calls).log := by
  induction calls generalizing m with
  | nil => rfl
  | cons c calls ih =>
    rw [performAll, reported_append, reported_append, history, List.countP_append,
      reported_trace_perform, ih]
    omega

/-- **A call warns, once, exactly if it halts a machine that was running.** -/
theorem reported_warn_perform (m : Machine) (c : Call) :
    reported .warn (m.perform c).log =
      if m.fault? = none ∧ (m.perform c).machine.fault? ≠ none then 1 else 0 := by
  have hsteps := m.reported_warn_steps
  cases c with
  | step =>
    have hone := hsteps 1
    rw [machine_steps_one, log_steps_one] at hone
    exact hone
  | runFrame =>
    have hframe := hsteps m.config.stepsPerFrame
    rw [← fault?_runFrame, ← log_runFrame] at hframe
    exact hframe
  | load _ _ | reset _ | setKeys _ | restore _ | screen | snapshot =>
    -- no such call halts a machine
    rw [reported_perform_of_not_runs rfl (.inr rfl), if_neg]
    rintro ⟨hm, hm'⟩
    exact hm' (fault?_perform_of_not_runs rfl hm)

/-- After a warning there is no other one before a call that sets the machine going again. -/
theorem exists_revives_of_warns {c d : Call} {between : List Call}
    (hc : 0 < reported .warn (m.perform c).log)
    (hd : 0 < reported .warn ((m.performAll (c :: between)).machine.perform d).log) :
    ∃ e ∈ between, e.Revives := by
  rw [reported_warn_perform] at hc hd
  have hhalted : (m.perform c).machine.fault? ≠ none := by
    refine fun hnone ↦ absurd hc ?_
    rw [hnone]
    simp
  obtain ⟨f, hf⟩ := Option.ne_none_iff_exists'.1 hhalted
  refine Classical.byContradiction fun hnone ↦ absurd hd ?_
  obtain ⟨k, hk⟩ := performAll_of_halted hf fun e he hrevives ↦ hnone ⟨e, he, hrevives⟩
  have hstill : (m.performAll (c :: between)).machine.fault? = some f := by
    rw [performAll, hk]
    exact hf
  rw [hstill]
  simp

/-- **The log accounts for all that was done.** Over every list of calls on every machine, its
entries are, in order, those of `report`: for each step attempted while the machine was not halted,
one `TRACE` with the program counter and the word at hand, followed by one `WARN` with the fault if
the step raises one, or by one `DEBUG` if it is the first step of a wait; one entry for each call
that loads, resets or restores and succeeds; and nothing else. There are as many fetches as steps
that succeed and warnings. No call warns twice, and between two calls that warn there is one that
sets the machine going again. -/
theorem log_accounts (m : Machine) (calls : List Call) :
    let o := m.performAll calls
    entries o.log = m.report calls ∧
    reported .trace o.log = (m.history calls).countP Event.isExecuted + reported .warn o.log ∧
    ∀ before c rest, calls = before ++ c :: rest →
      let n := (m.performAll before).machine
      reported .warn (n.perform c).log ≤ 1 ∧
        ∀ between d after, rest = between ++ d :: after →
          0 < reported .warn (n.perform c).log →
          0 < reported .warn ((n.performAll (c :: between)).machine.perform d).log →
          ∃ e ∈ between, e.Revives := by
  refine ⟨entries_performAll m calls, reported_trace_performAll m calls, ?_⟩
  intro before c rest _ n
  refine ⟨?_, fun between d after _ ↦ exists_revives_of_warns⟩
  rw [reported_warn_perform]
  split <;> omega

/-- Without a program the first step halts the machine, and so does the first one after a reset. -/
theorem log_accounts_of_empty :
    let m := powerOn {} Rom.empty 0
    let calls : List Call := [.step, .runFrame, .reset 0, .step]
    let o := m.performAll calls
    let fetched := (Level.trace, "200: 0000")
    let halting := (Level.warn, "halting: invalid opcode 0x0000 at 0x200")
    entries o.log = [fetched, halting, (.info, "reset"), fetched, halting] ∧
      reported .trace o.log = (m.history calls).countP Event.isExecuted + reported .warn o.log ∧
      0 < reported .warn (m.perform .step).log ∧
      0 < reported .warn ((m.performAll [.step, .runFrame, .reset 0]).machine.perform .step).log ∧
      ∃ e ∈ [Call.runFrame, .reset 0], e.Revives := by
  -- what counts about the machine that was switched on is only this
  obtain ⟨m, hm⟩ : ∃ m, m = powerOn {} Rom.empty 0 := ⟨_, rfl⟩
  have hresult : m.step.result = .error (.invalidOpcode 0 0x200) := by
    rw [hm, result_step_powerOn_empty]
  have hfetch : m.state.fetch = 0 := by rw [hm, fetch_powerOn_empty]
  have hpc : m.state.pc = 0x200 := by rw [hm]; rfl
  have hrunning : m.fault? = none := by rw [hm]; rfl
  have hreset : powerOn m.config m.rom 0 = m := by rw [hm]; rfl
  rw [← hm]
  clear hm
  intro _ calls o fetched halting
  have hhalted : m.step.machine.fault? = some (.invalidOpcode 0 0x200) := by
    rw [machine_of_step_error hresult]
  have hagain : ((m.step.machine.perform .runFrame).machine.perform (.reset 0)).machine = m := by
    rw [machine_perform_runFrame, runFrame_of_fault? hhalted, machine_perform_reset,
      machine_of_step_error hresult]
    exact hreset
  have hwarns : 0 < reported .warn (m.perform .step).log := by
    rw [reported_warn_perform, machine_perform_step, hrunning, hhalted]
    decide
  have hwarns' : 0 < reported .warn
      ((m.performAll [.step, .runFrame, .reset 0]).machine.perform .step).log := by
    rw [performAll, performAll, performAll, performAll, machine_perform_step, hagain]
    exact hwarns
  obtain ⟨hentries, hcounts, hbetween⟩ := log_accounts m calls
  obtain ⟨-, hrevives⟩ := hbetween [] .step [.runFrame, .reset 0, .step] rfl
  have hstep : m.callReport .step = [fetched, halting] := by
    rw [callReport, attempts, attempts, if_pos hrunning, List.flatMap_singleton, stepReport,
      hresult, hpc, hfetch]
    exact congrArg₂ (fun a b ↦ [(Level.trace, a), (Level.warn, b)])
      (show s!"{Hexadecimal.address 0x200}: {Hexadecimal.opcode 0}" = "200: 0000" by decide)
      (show s!"halting: {(Fault.invalidOpcode 0 0x200).message}" = _ by decide)
  have hframe : m.step.machine.callReport .runFrame = [] := by
    rw [callReport, attempts_of_fault? hhalted]
    rfl
  refine ⟨?_, hcounts, hwarns, hwarns', hrevives [.runFrame, .reset 0] .step [] rfl hwarns hwarns'⟩
  rw [hentries]
  show m.callReport .step ++ (m.step.machine.callReport .runFrame ++ ([(.info, "reset")] ++
    (((m.step.machine.perform .runFrame).machine.perform (.reset 0)).machine.callReport .step ++
      []))) = _
  rw [hagain, hstep, hframe]
  rfl

end Machine

end Chip8
