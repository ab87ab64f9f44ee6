import Chip8.Proofs.Transition

/-!
# Faults of reachable machines

`State.Faults` says which fault the instruction at hand raises, from three parts of the state only:
memory, program counter and call stack. `execute_eq_faulted_iff` says that execution faults in
exactly these cases, so nothing outside of the three parts can make an instruction fail or succeed.

The fault of a halted machine is kept beside its state, and is not written to snapshots. That this
loses nothing is an invariant: in every reachable machine **the fault stands**, that is, the
instruction at hand raises it again (`Reachable.faultStands`). Only replacing the keys changes the
state of a halted machine, and no fault depends on keys.
-/

namespace Chip8

/-! ### Exact conditions -/

namespace State

/-- The fault that the instruction at hand raises, if it raises one. -/
inductive Faults (s : State) : Fault → Prop
  | invalidOpcode (h : Instruction.decode s.fetch = none) : Faults s (.invalidOpcode s.fetch s.pc)
  | stackUnderflow (h : Instruction.decode s.fetch = some .ret) (hs : s.stack.pop? = none) :
    Faults s (.stackUnderflow s.pc)
  | stackOverflow {target : BitVec 12} (h : Instruction.decode s.fetch = some (.call target))
    (hs : s.stack.push? (s.pc + 2) = none) : Faults s (.stackOverflow s.pc)

/-- An instruction faults only if it is a return without a return address or a call without a free
slot. -/
theorem perform_eq_faulted_iff {d : Dialect} {s : State} {i : Instruction} {f : Fault} :
    s.perform d i = .faulted f ↔
      (i = .ret ∧ s.stack.pop? = none ∧ f = .stackUnderflow s.pc) ∨
        ∃ target, i = .call target ∧ s.stack.push? (s.pc + 2) = none ∧ f = .stackOverflow s.pc := by
  cases i with
  | ret =>
    rcases h : s.stack.pop? with - | ⟨target, stack⟩
    · simp [perform, h, eq_comm]
    · simp [perform, h]
  | call target =>
    rcases h : s.stack.push? (s.pc + 2) with - | stack
    · simp [perform, h, eq_comm]
    · simp [perform, h]
  | waitForKey x => rcases h : s.keypad.firstDown? with - | key <;> simp [perform, h]
  | _ => simp [perform] -- all others advance

/-- **Execution faults exactly when the instruction at hand does.** -/
theorem execute_eq_faulted_iff {d : Dialect} {s : State} {f : Fault} :
    s.execute d = .faulted f ↔ s.Faults f := by
  rcases hi : Instruction.decode s.fetch with - | i
  · rw [execute, hi]
    constructor
    · intro h
      obtain rfl := Effect.faulted.inj h
      exact .invalidOpcode hi
    · intro h
      cases h with
      | invalidOpcode _ => rfl
      | stackUnderflow h _ | stackOverflow h _ => rw [hi] at h; exact absurd h (by simp)
  · rw [execute, hi]
    refine perform_eq_faulted_iff.trans ⟨?_, ?_⟩
    · rintro (⟨rfl, hs, rfl⟩ | ⟨target, rfl, hs, rfl⟩)
      · exact .stackUnderflow hi hs
      · exact .stackOverflow hi hs
    · intro h
      cases h with
      | invalidOpcode h => rw [hi] at h; exact absurd h (by simp)
      | stackUnderflow h hs => exact .inl ⟨Option.some.inj (hi.symm.trans h), hs, rfl⟩
      | stackOverflow h hs => exact .inr ⟨_, Option.some.inj (hi.symm.trans h), hs, rfl⟩

/-- No fault depends on the keys. -/
theorem Faults.withKeypad {s : State} {f : Fault} (h : s.Faults f) (k : Keypad) :
    { s with keypad := k }.Faults f := by
  cases h with
  | invalidOpcode h => exact .invalidOpcode (s := { s with keypad := k }) h
  | stackUnderflow h hs => exact .stackUnderflow (s := { s with keypad := k }) h hs
  | stackOverflow h hs => exact .stackOverflow (s := { s with keypad := k }) h hs

end State

namespace Machine

/-! ### The fault stands -/

/-- If the machine is halted by a fault, the instruction at hand raises that fault. -/
def FaultStands (m : Machine) : Prop :=
  ∀ f, m.fault? = some f → m.effect = .faulted f

theorem faultStands_of_running {m : Machine} (h : m.fault? = none) : m.FaultStands := by
  intro f hf
  rw [h] at hf
  exact absurd hf (by simp)

theorem FaultStands.step {m : Machine} (h : m.FaultStands) : m.step.machine.FaultStands := by
  have hcase := m.stepCase
  generalize m.step = o at hcase ⊢
  cases hcase with
  | halted _ => exact h
  | advanced hm _ | answered hm _ | stalled hm _ => exact faultStands_of_running hm
  | faulted _ he =>
    intro g hg
    rw [← Option.some.inj hg]
    exact he

theorem FaultStands.runFrame {m : Machine} (h : m.FaultStands) :
    m.runFrame.machine.FaultStands :=
  runFrame_induction (fun _ ↦ FaultStands.step) (fun _ hm _ ↦ faultStands_of_running hm) h

theorem FaultStands.withKeypad {m : Machine} (h : m.FaultStands) (k : Keypad) :
    (m.withKeypad k).FaultStands := by
  intro f hf
  exact State.execute_eq_faulted_iff.2 ((State.execute_eq_faulted_iff.1 (h f hf)).withKeypad k)

theorem FaultStands.setKeys {m : Machine} (h : m.FaultStands) (keys : List Bool) :
    (m.setKeys keys).machine.FaultStands := by
  obtain ⟨k, hk⟩ := m.machine_setKeys keys
  rw [hk]
  exact h.withKeypad k

theorem FaultStands.restore {m : Machine} (h : m.FaultStands) (bytes : Array UInt8) :
    (m.restore bytes).machine.FaultStands := by
  rw [Machine.restore]
  split
  · exact faultStands_of_running rfl
  · exact h

theorem FaultStands.load {m : Machine} (h : m.FaultStands) (bytes : Array UInt8)
    (entropy : UInt64) : (m.load bytes entropy).machine.FaultStands := by
  rw [Machine.load]
  split
  · exact faultStands_of_running rfl
  · exact h

/-- **Every call keeps that the fault stands.** -/
theorem FaultStands.perform {m : Machine} (h : m.FaultStands) (c : Call) :
    (m.perform c).machine.FaultStands := by
  cases c with
  | load bytes entropy => exact h.load bytes entropy
  | reset entropy => exact faultStands_of_running rfl
  | step => exact h.step
  | runFrame => exact h.runFrame
  | setKeys keys => exact h.setKeys keys
  | restore bytes => exact h.restore bytes
  | screen | snapshot => exact h

/-- **In a reachable machine the fault stands.** -/
theorem Reachable.faultStands {m : Machine} (h : m.Reachable) : m.FaultStands := by
  induction h with
  | powerOn config entropy => exact faultStands_of_running rfl
  | perform _ c ih => exact ih.perform c

/-- Without a program the first word is zero. -/
theorem fetch_powerOn_empty (config : Config) (entropy : UInt64) :
    (powerOn config Rom.empty entropy).state.fetch = 0 := by
  rw [powerOn, State.fetch_powerOn]
  decide

/-- Without a program the first step raises a fault. -/
theorem result_step_powerOn_empty (config : Config) (entropy : UInt64) :
    (powerOn config Rom.empty entropy).step.result = .error (.invalidOpcode 0 0x200) := by
  rw [result_step rfl, effect, State.execute, fetch_powerOn_empty]
  rfl

end Machine

end Chip8
