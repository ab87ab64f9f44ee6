import Chip8.Proofs.Footprint
import Chip8.Proofs.Halting

/-!
# Waiting for a key

`FX0A` waits until a key is down. A machine that stands on it goes through the same instruction
again with every step, and remembers that it has reported this. What it remembers is not part of its
state, and `Reachable.waitStands` says what it means all the same: **a machine that is known to wait
runs, and stands on an instruction that waits**.

How long a wait lasts is up to whoever makes the calls. `Starves` describes calls that let it go on,
and `kept_performAll` what they can change: the keys, and the timers by one for each frame. However
many steps are among them, the wait is reported once. The instruction is over with the first step
that finds a key, and `key_waits_exact` puts both parts together.
-/

namespace Chip8

/-! ### The instruction -/

namespace State

variable {d : Dialect} {s : State} {i : Instruction}

theorem perform_eq_stalled_iff :
    s.perform d i = .stalled ↔ (∃ x, i = .waitForKey x) ∧ s.keypad.firstDown? = none := by
  cases i with
  | waitForKey x => rcases h : s.keypad.firstDown? with - | key <;> simp [perform, h]
  | ret => rcases h : s.stack.pop? with - | ⟨target, stack⟩ <;> simp [perform, h]
  | call target => rcases h : s.stack.push? (s.pc + 2) with - | stack <;> simp [perform, h]
  | _ => simp [perform] -- all others advance

/-- **Only an instruction that waits for a key stalls**, and only while none is down. -/
theorem execute_eq_stalled_iff :
    s.execute d = .stalled ↔
      (∃ x, Instruction.decode s.fetch = some (.waitForKey x)) ∧
        s.keypad.firstDown? = none := by
  rcases hi : Instruction.decode s.fetch with - | i
  · simp [execute, hi]
  · rw [execute, hi]
    simpa using perform_eq_stalled_iff

/-- No instruction changes the keys. -/
theorem keypad_execute : ((s.execute d).stateAfter s).keypad = s.keypad := by
  rw [execute]
  split
  · exact (spares_perform d s _).keypad
  · rfl

end State

namespace Machine

variable {m : Machine} {x : Register}

/-- The machine runs, and stands on an instruction that waits for a key to put into a register. -/
structure AtWait (m : Machine) (x : Register) : Prop where
  running : m.fault? = none
  decode : Instruction.decode m.state.fetch = some (.waitForKey x)

namespace AtWait

/-- Without a key, a step only notes and reports that the machine waits. -/
theorem step_of_none (h : m.AtWait x) (hkeys : m.state.keypad.firstDown? = none) :
    m.step = ⟨.ok (), { m with waiting := true }, #[m.fetchRecord] ++ m.waitingRecord⟩ := by
  have heffect : m.state.execute m.config.dialect = .stalled :=
    State.execute_eq_stalled_iff.2 ⟨⟨x, h.decode⟩, hkeys⟩
  rw [step_of_running h.running, stepRunning, heffect]
  rfl

/-- With a key, a step puts its number into the register and goes on. -/
theorem step_of_some (h : m.AtWait x) {key : UInt8}
    (hkeys : m.state.keypad.firstDown? = some key) :
    m.step = ⟨.ok (), { m with state := (m.state.setV x key).advance, waiting := false },
      #[m.fetchRecord]⟩ := by
  have heffect : m.state.execute m.config.dialect = .answered (m.state.setV x key).advance := by
    rw [State.execute, h.decode]
    show m.state.perform m.config.dialect (.waitForKey x) = _
    rw [State.perform, hkeys]
  rw [step_of_running h.running, stepRunning, heffect]
  rfl

end AtWait

/-! ### What is known about waiting -/

/-- If the machine is known to wait, it runs and stands on an instruction that waits. -/
def WaitStands (m : Machine) : Prop :=
  m.waiting = true → ∃ x, m.AtWait x

theorem waitStands_of_not_waiting (h : m.waiting = false) : m.WaitStands := by
  intro hwaiting
  rw [h] at hwaiting
  exact absurd hwaiting Bool.false_ne_true

/-- Only the two steps of a wait can be made where the machine is known to wait. -/
theorem WaitStands.step (h : m.WaitStands) : m.step.machine.WaitStands := by
  intro hwaiting
  rcases hm : m.waiting with - | -
  · -- only a stalled step makes it known
    have hcase := m.stepCase
    generalize m.step = o at hcase hwaiting ⊢
    cases hcase with
    | stalled hrunning he =>
      obtain ⟨⟨x, hx⟩, -⟩ := State.execute_eq_stalled_iff.1 he
      exact ⟨x, hrunning, hx⟩
    | answered _ _ => exact absurd hwaiting Bool.false_ne_true
    | halted _ | advanced _ _ | faulted _ _ =>
      exact absurd (hm.symm.trans hwaiting) Bool.false_ne_true
  · obtain ⟨x, hx⟩ := h hm
    rcases hkeys : m.state.keypad.firstDown? with - | key
    · rw [hx.step_of_none hkeys]
      exact ⟨x, hx.running, hx.decode⟩
    · rw [hx.step_of_some hkeys] at hwaiting
      exact absurd hwaiting Bool.false_ne_true

theorem WaitStands.withKeypad (h : m.WaitStands) (k : Keypad) : (m.withKeypad k).WaitStands := by
  intro hwaiting
  obtain ⟨x, hx⟩ := h hwaiting
  exact ⟨x, hx.running, hx.decode⟩

theorem WaitStands.runFrame (h : m.WaitStands) : m.runFrame.machine.WaitStands := by
  refine runFrame_induction (fun _ ↦ WaitStands.step) (fun m' _ h' hwaiting ↦ ?_) h
  obtain ⟨x, hx⟩ := h' hwaiting
  exact ⟨x, hx.running, hx.decode⟩

theorem waiting_of_revives {c : Call} (hc : c.Revives) : (m.perform c).machine.waiting = false := by
  cases c with
  | load bytes entropy => rw [perform, Outcome.map, load_of_size_le hc]; rfl
  | reset entropy => rfl
  | restore bytes =>
    obtain ⟨s, hs⟩ := Snapshot.exists_decode_iff.2 hc
    rw [perform, Outcome.map, restore_of_decode hs]
  | step | runFrame | setKeys _ | screen | snapshot => exact hc.elim

/-- Every call keeps what is known about waiting. -/
theorem WaitStands.perform (h : m.WaitStands) (c : Call) : (m.perform c).machine.WaitStands := by
  by_cases hc : c.Revives
  · exact waitStands_of_not_waiting (waiting_of_revives hc)
  · cases c with
    | step => exact h.step
    | runFrame => exact h.runFrame
    | load _ _ | reset _ | setKeys _ | restore _ | screen | snapshot =>
      obtain ⟨⟨k, hk⟩, -⟩ := perform_of_not_runs (m := m) hc rfl
      rw [hk]
      exact h.withKeypad k

/-- **In a reachable machine, what is known about waiting stands.** -/
theorem Reachable.waitStands (h : m.Reachable) : m.WaitStands := by
  induction h with
  | powerOn config entropy => exact waitStands_of_not_waiting rfl
  | perform _ c ih => exact ih.perform c

end Machine

/-! ### Reports -/

/-- Whether a record says that a machine has started to wait. -/
def Record.isWait : Record → Bool
  | .waiting _ => true
  | _ => false

/-- The records of a log that say that a machine has started to wait. -/
def waits (log : Array Record) : List Record :=
  log.toList.filter Record.isWait

theorem waits_append (log new : Array Record) : waits (log ++ new) = waits log ++ waits new := by
  rw [waits, Array.toList_append, List.filter_append]
  rfl

namespace Machine

variable {m : Machine} {x : Register}

/-- **A step reports a wait exactly if it makes it known.** -/
theorem waits_step (m : Machine) :
    waits m.step.log =
      if !m.waiting && m.step.machine.waiting then [.waiting m.state.pc] else [] := by
  have hcase := m.stepCase
  generalize m.step = o at hcase ⊢
  cases hcase with
  | stalled _ _ =>
    rw [waits_append, waitingRecord]
    cases m.waiting <;> rfl
  | halted _ | advanced _ _ | answered _ _ | faulted _ _ => cases m.waiting <;> rfl

/-! ### Letting a wait go on -/

/-- What is left and reported by calls that let a wait go on, among them a number of frames. -/
structure Kept {α : Type} (m : Machine) (o : Outcome α) (frames : Nat) (ran : Bool) : Prop where
  config_eq : o.machine.config = m.config
  rom_eq : o.machine.rom = m.rom
  fault?_eq : o.machine.fault? = m.fault?
  /-- Nothing in the state has changed but the keys and the timers. -/
  state_eq : o.machine.state =
    { m.state with
      keypad := o.machine.state.keypad
      timers := o.machine.state.timers }
  delay_eq : o.machine.state.timers.delay.toNat = m.state.timers.delay.toNat - frames
  sound_eq : o.machine.state.timers.sound.toNat = m.state.timers.sound.toNat - frames
  waiting_eq : o.machine.waiting = (m.waiting || ran)
  /-- The wait is reported if it was not known before and an instruction was executed. -/
  waits_eq : waits o.log = if !m.waiting && ran then [.waiting m.state.pc] else []

namespace Kept

variable {α β γ : Type} {o : Outcome α} {p : Outcome β} {frames frames' : Nat} {ran ran' : Bool}

theorem refl (m : Machine) (result : α) : Kept m ⟨result, m, #[]⟩ 0 false where
  config_eq := rfl
  rom_eq := rfl
  fault?_eq := rfl
  state_eq := rfl
  delay_eq := rfl
  sound_eq := rfl
  waiting_eq := (Bool.or_false _).symm
  waits_eq := by rw [Bool.and_false]; rfl

theorem map (h : Kept m o frames ran) (f : α → β) : Kept m (o.map f) frames ran :=
  { h with }

theorem atWait (h : Kept m o frames ran) (hx : m.AtWait x) : o.machine.AtWait x := by
  refine ⟨h.fault?_eq.trans hx.running, ?_⟩
  rw [h.state_eq]
  exact hx.decode

/-- What is kept by two parts is kept by both together, and the second one adds no report if there
was a first one. -/
theorem append (h : Kept m o frames ran) (h' : Kept o.machine p frames' ran') (result : γ) :
    Kept m (⟨result, p.machine, o.log ++ p.log⟩ : Outcome γ) (frames + frames') (ran || ran') where
  config_eq := h'.config_eq.trans h.config_eq
  rom_eq := h'.rom_eq.trans h.rom_eq
  fault?_eq := h'.fault?_eq.trans h.fault?_eq
  state_eq := h'.state_eq.trans (by rw [h.state_eq])
  delay_eq := by rw [h'.delay_eq, h.delay_eq, Nat.sub_sub]
  sound_eq := by rw [h'.sound_eq, h.sound_eq, Nat.sub_sub]
  waiting_eq := by rw [h'.waiting_eq, h.waiting_eq, Bool.or_assoc]
  waits_eq := by
    have hpc : o.machine.state.pc = m.state.pc := by rw [h.state_eq]
    rw [waits_append, h.waits_eq, h'.waits_eq, h.waiting_eq, hpc]
    cases m.waiting <;> cases ran <;> cases ran' <;> rfl

/-- A tick is one frame more. -/
theorem tick (h : Kept m o frames ran) (result : β) :
    Kept m (⟨result, o.machine.tick, o.log⟩ : Outcome β) (frames + 1) ran :=
  { h with
    state_eq := congrArg State.tick h.state_eq
    delay_eq := by
      show (Timers.countDown o.machine.state.timers.delay).toNat = _
      rw [Timers.toNat_countDown, h.delay_eq, Nat.sub_sub]
    sound_eq := by
      show (Timers.countDown o.machine.state.timers.sound).toNat = _
      rw [Timers.toNat_countDown, h.sound_eq, Nat.sub_sub] }

end Kept

namespace AtWait

theorem kept_step (h : m.AtWait x) (hkeys : m.state.keypad.firstDown? = none) :
    Kept m m.step 0 true := by
  have hwaits := waits_step m
  rw [h.step_of_none hkeys] at hwaits ⊢
  exact { Kept.refl m () with
    waiting_eq := (Bool.or_true _).symm
    waits_eq := hwaits }

theorem kept_steps (h : m.AtWait x) (hkeys : m.state.keypad.firstDown? = none) (n : Nat) :
    Kept m (m.steps n) 0 (decide (0 < n)) ∧ (m.steps n).machine.state = m.state := by
  induction n generalizing m with
  | zero => exact ⟨Kept.refl m _, rfl⟩
  | succ n ih =>
    have hstep := h.kept_step hkeys
    have hmachine : m.step.machine = { m with waiting := true } := by rw [h.step_of_none hkeys]
    obtain ⟨hrest, hstate⟩ := ih (hstep.atWait h) (by rw [hmachine]; exact hkeys)
    rw [steps_succ_of_ok (by rw [h.step_of_none hkeys])]
    refine ⟨?_, hstate.trans (by rw [hmachine])⟩
    rw [decide_eq_true n.succ_pos, ← Bool.true_or (decide (0 < n))]
    exact hstep.append hrest _

/-- A frame without a key lets the timers tick and changes nothing else. -/
theorem kept_runFrame (h : m.AtWait x) (hkeys : m.state.keypad.firstDown? = none) :
    Kept m m.runFrame 1 true ∧ m.runFrame.machine.state = m.state.tick := by
  obtain ⟨hsteps, hstate⟩ := h.kept_steps hkeys m.config.stepsPerFrame
  have hpos := m.config.stepsPerFrame_pos
  have hnone : (m.steps m.config.stepsPerFrame).result.fault? = none := by
    rw [← fault?_steps m hpos, hsteps.fault?_eq, h.running]
  rw [decide_eq_true hpos] at hsteps
  rw [runFrame_of_ok hnone]
  exact ⟨hsteps.tick _, congrArg State.tick hstate⟩

end AtWait

/-- Calls that let a wait go on: none of them switches the machine on or restores a snapshot, and
those that run it find no key. -/
def Starves (m : Machine) : List Call → Prop
  | [] => True
  | c :: cs =>
    ¬ c.Revives ∧ (c.runs = true → m.state.keypad.firstDown? = none) ∧
      (m.perform c).machine.Starves cs

theorem AtWait.kept_perform (h : m.AtWait x) {c : Call} (hc : ¬ c.Revives)
    (hkeys : c.runs = true → m.state.keypad.firstDown? = none) :
    Kept m (m.perform c) (if c == .runFrame then 1 else 0) c.runs := by
  cases c with
  | step => exact (h.kept_step (hkeys rfl)).map _
  | runFrame => exact (h.kept_runFrame (hkeys rfl)).1.map _
  | load _ _ | reset _ | setKeys _ | restore _ | screen | snapshot =>
    -- such a call changes the keys at most
    obtain ⟨⟨k, hk⟩, hlog⟩ := perform_of_not_runs (m := m) hc rfl
    have hnone := Kept.refl m ()
    exact {
      config_eq := by rw [hk]; rfl
      rom_eq := by rw [hk]; rfl
      fault?_eq := by rw [hk]; rfl
      state_eq := by rw [hk]; rfl
      delay_eq := by rw [hk]; rfl
      sound_eq := by rw [hk]; rfl
      waiting_eq := by rw [hk]; exact hnone.waiting_eq
      waits_eq := by rw [hlog]; exact hnone.waits_eq }

/-- **However long a wait is let go on, it changes the timers at most, and is reported once.** -/
theorem AtWait.kept_performAll (h : m.AtWait x) {calls : List Call} (hc : m.Starves calls) :
    Kept m (m.performAll calls) (calls.count .runFrame) (calls.any Call.runs) := by
  induction calls generalizing m with
  | nil => exact Kept.refl m _
  | cons c calls ih =>
    obtain ⟨hkeeps, hkeys, hrest⟩ := hc
    have hfirst := h.kept_perform hkeeps hkeys
    have hboth := hfirst.append (ih (hfirst.atWait h) hrest)
      ((m.perform c).result :: ((m.perform c).machine.performAll calls).result)
    rw [List.count_cons, Nat.add_comm]
    exact hboth

/-! ### The end of a wait -/

@[simp] theorem keypad_step (m : Machine) : m.step.machine.state.keypad = m.state.keypad := by
  have hcase := m.stepCase
  generalize m.step = o at hcase ⊢
  cases hcase with
  | advanced _ he | answered _ he =>
    have hkeys := State.keypad_execute (d := m.config.dialect) (s := m.state)
    rw [show m.state.execute m.config.dialect = _ from he] at hkeys
    exact hkeys
  | halted _ | stalled _ _ | faulted _ _ => rfl

/-- While a key is down, no step makes it known that the machine waits. -/
theorem not_waiting_step (h : m.waiting = false) (hkeys : m.state.keypad.firstDown? ≠ none) :
    m.step.machine.waiting = false := by
  have hcase := m.stepCase
  generalize m.step = o at hcase ⊢
  cases hcase with
  | stalled _ he => exact absurd (State.execute_eq_stalled_iff.1 he).2 hkeys
  | answered _ _ => rfl
  | halted _ | advanced _ _ | faulted _ _ => exact h

namespace AtWait

/-- The first step of a series that finds a key ends the wait, and the series goes on from there. -/
theorem not_waiting_steps (h : m.AtWait x) {key : UInt8}
    (hkeys : m.state.keypad.firstDown? = some key) {n : Nat} (hn : 0 < n) :
    (m.steps n).machine.waiting = false := by
  obtain ⟨n, rfl⟩ : ∃ k, n = k + 1 := ⟨n - 1, by omega⟩
  have hstep := h.step_of_some hkeys
  have hkept := steps_induction
    (P := fun m' ↦ m'.waiting = false ∧ m'.state.keypad.firstDown? ≠ none)
    (fun m' h' ↦ ⟨not_waiting_step h'.1 h'.2, by rw [keypad_step]; exact h'.2⟩) n
    (m := m.step.machine) ⟨by rw [hstep], by rw [keypad_step, hkeys]; simp⟩
  rw [steps_succ_of_ok (by rw [hstep])]
  exact hkept.1

theorem not_waiting_runFrame (h : m.AtWait x) {key : UInt8}
    (hkeys : m.state.keypad.firstDown? = some key) : m.runFrame.machine.waiting = false := by
  have hsteps := h.not_waiting_steps hkeys m.config.stepsPerFrame_pos
  rcases hf : (m.steps m.config.stepsPerFrame).result.fault? with - | f
  · rw [runFrame_of_ok hf]
    exact hsteps
  · rw [runFrame_of_error hf]
    exact hsteps

/-- **A wait that is known ends with a call that revives the machine, or that runs it while a key is
down, and with no other.** -/
theorem not_waiting_perform_iff (h : m.AtWait x) (hwaiting : m.waiting = true) {c : Call} :
    (m.perform c).machine.waiting = false ↔
      c.Revives ∨ c.runs = true ∧ m.state.keypad.firstDown? ≠ none := by
  constructor
  · intro hends
    refine Classical.byContradiction fun hno ↦ ?_
    obtain ⟨hc, hkeys⟩ := not_or.1 hno
    have hkept := h.kept_perform hc fun hruns ↦ Classical.not_not.1 fun hne ↦ hkeys ⟨hruns, hne⟩
    rw [hkept.waiting_eq, hwaiting] at hends
    exact absurd hends (by simp)
  · rintro (hc | ⟨hruns, hkeys⟩)
    · exact waiting_of_revives hc
    · obtain ⟨key, hkey⟩ := Option.ne_none_iff_exists'.1 hkeys
      cases c with
      | step => rw [machine_perform_step, h.step_of_some hkey]
      | runFrame => exact h.not_waiting_runFrame hkey
      | load _ _ | reset _ | setKeys _ | restore _ | screen | snapshot =>
        exact absurd hruns Bool.false_ne_true

end AtWait

/-- **Waits for a key are exact.** A reachable machine that is known to wait runs and stands on an
instruction that waits, and a step reports a wait exactly if it makes it known. Over any calls that
let a wait go on, which may be refused or press and release keys between two steps, nothing changes
but the keys and the timers, which go down by one for each frame, and the wait is reported once. A
step without a key leaves the whole state, and a frame lets the timers tick. With a key, the next
step puts the lowest one that is down into the register and goes on to the next instruction, and so
does the first step of a frame. A known wait ends in no other way than by this step, by a program or
a snapshot that is accepted, or by a reset. -/
theorem key_waits_exact {m : Machine} (hm : m.Reachable) :
    (m.waiting = true → ∃ x, m.AtWait x) ∧
    waits m.step.log =
      (if !m.waiting && m.step.machine.waiting then [.waiting m.state.pc] else []) ∧
    ∀ x, m.AtWait x → ∀ calls, m.Starves calls →
      let o := m.performAll calls
      let n := o.machine
      n.AtWait x ∧ Kept m o (calls.count .runFrame) (calls.any Call.runs) ∧
        (n.state.keypad.firstDown? = none →
          n.step.machine.state = n.state ∧ n.runFrame.machine.state = n.state.tick) ∧
        (∀ key, n.state.keypad.firstDown? = some key →
          (n.state.keypad.isDown key = true ∧
            ∀ lower < key, n.state.keypad.isDown lower = false) ∧
          n.step = ⟨.ok (),
            { n with
              state :=
                { n.state with
                  registers := n.state.registers.set x key
                  pc := n.state.pc + 2 }
              waiting := false },
            #[n.fetchRecord]⟩ ∧
          ∀ k, (n.steps (k + 1)).machine = (n.step.machine.steps k).machine) ∧
        (n.waiting = true → ∀ c, (n.perform c).machine.waiting = false ↔
          c.Revives ∨ c.runs = true ∧ n.state.keypad.firstDown? ≠ none) := by
  refine ⟨hm.waitStands, waits_step m, fun x hx calls hc ↦ ?_⟩
  intro o n
  have hkept := hx.kept_performAll hc
  have hn : n.AtWait x := hkept.atWait hx
  refine ⟨hn, hkept, fun hkeys ↦ ⟨?_, (hn.kept_runFrame hkeys).2⟩, fun key hkeys ↦ ⟨?_, ?_, ?_⟩,
    fun hwaiting c ↦ hn.not_waiting_perform_iff hwaiting⟩
  · rw [hn.step_of_none hkeys]
  · exact Keypad.isDown_of_firstDown? hkeys
  · exact hn.step_of_some hkeys
  · intro k
    rw [steps_succ_of_ok (by rw [hn.step_of_some hkeys])]

/-- A machine whose first instruction waits. A key is pressed and released between two steps before
two keys are held, of which the lower one counts. -/
theorem key_waits_exact_of_press :
    let m := ((powerOn {} Rom.empty 0).load #[0xF3, 0x0A] 0).machine
    let released := List.replicate 16 false
    let pressed := (released.set 5 true).set 9 true
    let calls : List Call := [.step, .setKeys pressed, .setKeys released, .restore #[], .runFrame,
      .setKeys pressed]
    let n := (m.performAll calls).machine
    m.Reachable ∧ m.AtWait 3 ∧ m.Starves calls ∧ waits (m.performAll calls).log = [.waiting 0x200] ∧
      n.state.keypad.firstDown? = some 5 ∧ n.step.machine.state.v 3 = 5 ∧
      n.step.machine.state.pc = 0x202 ∧ n.step.machine.waiting = false := by
  intro m released pressed calls n
  have hload := load_of_size_le (m := powerOn {} Rom.empty 0)
    (show (#[0xF3, 0x0A] : Array UInt8).size ≤ maxRomSize by decide) 0
  have hm : m.Reachable := (Reachable.powerOn {} 0).perform (.load #[0xF3, 0x0A] 0)
  have hwait : m.AtWait 3 := by
    have hfetch : m.state.fetch = 0xF30A := by
      rw [show m = _ from congrArg Outcome.machine hload, powerOn, State.fetch_powerOn]
      decide
    exact ⟨congrArg (fun o ↦ o.machine.fault?) hload, by rw [hfetch]; decide⟩
  have hpc : m.state.pc = 0x200 := congrArg (fun o ↦ o.machine.state.pc) hload
  have hkeys : m.state.keypad = .released := congrArg (fun o ↦ o.machine.state.keypad) hload
  have hidle : m.waiting = false := congrArg (fun o ↦ o.machine.waiting) hload
  clear_value m
  have hnone : Keypad.released.firstDown? = none := by decide
  have hstep := hwait.step_of_none (by rw [hkeys, hnone])
  have hstarves : m.Starves calls := by
    refine ⟨id, fun _ ↦ by rw [hkeys, hnone], ?_⟩
    rw [machine_perform_step, hstep]
    -- of the calls that are left only the frame runs the machine
    have hruns {P : Prop} : false = true → P := fun h ↦ absurd h Bool.false_ne_true
    exact ⟨id, hruns, id, hruns, fun h ↦ absurd h.1 (by decide), hruns, id, fun _ ↦ hnone, id,
      hruns, trivial⟩
  obtain ⟨-, -, hwaits⟩ := key_waits_exact hm
  obtain ⟨-, hkept, -, hanswer, -⟩ := hwaits 3 hwait calls hstarves
  have hheld : n.state.keypad = ⟨0x220⟩ := rfl
  have hfound : n.state.keypad.firstDown? = some 5 := by rw [hheld]; decide
  obtain ⟨-, hlast, -⟩ := hanswer 5 hfound
  have hreport := hkept.waits_eq
  rw [hidle, hpc] at hreport
  refine ⟨hm, hwait, hstarves, hreport, hfound, ?_, ?_, ?_⟩
  · rw [hlast]
    show (Registers.set _ 3 5).get 3 = 5
    rw [Registers.get_set]
    rfl
  · rw [hlast]
    show n.state.pc + 2 = 0x202
    rw [hkept.state_eq]
    show m.state.pc + 2 = 0x202
    rw [hpc]
    rfl
  · rw [hlast]

end Machine

end Chip8
