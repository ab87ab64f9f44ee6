import Chip8.Proofs.Transition

/-!
# What an instruction leaves alone

Most parts of a state are changed by very few instructions. `Spares` lists such parts with the
instructions that may change them, and `spares_perform` is the one case analysis over the whole
instruction set that says so. `spares_step` carries it over to steps: what follows a part of the
state over a run has to look at **the instructions that are named there** and at no others.
-/

namespace Chip8

/-- What an instruction has left as it was, from one state to the next. -/
structure Spares (i : Instruction) (s t : State) : Prop where
  keypad : t.keypad = s.keypad
  stack : (∀ target, i ≠ .call target) → i ≠ .ret → t.stack = s.stack
  timers : (∀ x, i ≠ .setDelay x) → (∀ x, i ≠ .setSound x) → t.timers = s.timers
  random : (∀ x mask, i ≠ .random x mask) → t.random = s.random

variable {d : Dialect} {i : Instruction} {s t : State}

/-- Most instructions leave all of these parts as they were. -/
theorem Spares.of_eq (hkeypad : t.keypad = s.keypad) (hstack : t.stack = s.stack)
    (htimers : t.timers = s.timers) (hrandom : t.random = s.random) : Spares i s t :=
  ⟨hkeypad, fun _ _ ↦ hstack, fun _ _ ↦ htimers, fun _ ↦ hrandom⟩

namespace State

/-- **Every instruction leaves alone what it is not known to change**, and so does one that stalls
or faults. -/
theorem spares_perform (d : Dialect) (s : State) (i : Instruction) :
    Spares i s ((s.perform d i).stateAfter s) := by
  cases i with
  | ret =>
    rw [perform]
    split
    · exact ⟨rfl, fun _ h ↦ absurd rfl h, fun _ _ ↦ rfl, fun _ ↦ rfl⟩
    · exact .of_eq rfl rfl rfl rfl
  | call target =>
    rw [perform]
    split
    · exact ⟨rfl, fun h _ ↦ absurd rfl (h target), fun _ _ ↦ rfl, fun _ ↦ rfl⟩
    · exact .of_eq rfl rfl rfl rfl
  | setDelay x => exact ⟨rfl, fun _ _ ↦ rfl, fun h _ ↦ absurd rfl (h x), fun _ ↦ rfl⟩
  | setSound x => exact ⟨rfl, fun _ _ ↦ rfl, fun _ h ↦ absurd rfl (h x), fun _ ↦ rfl⟩
  | random x mask => exact ⟨rfl, fun _ _ ↦ rfl, fun _ _ ↦ rfl, fun h ↦ absurd rfl (h x mask)⟩
  | skipIfImmediate | skipUnlessImmediate | skipIfEqual | skipUnlessEqual | skipIfKey
    | skipUnlessKey =>
    rw [perform, skipWhen_eq]
    exact .of_eq rfl rfl rfl rfl
  | arithmetic operation x y =>
    rw [perform, combine_eq]
    exact .of_eq rfl rfl rfl rfl
  | storeRegisters x | loadRegisters x =>
    simp only [perform, Effect.stateAfter, advance]
    rw [passIndex_eq]
    exact .of_eq rfl rfl rfl rfl
  | waitForKey x =>
    rw [perform]
    split <;> exact .of_eq rfl rfl rfl rfl
  | _ => exact .of_eq rfl rfl rfl rfl

end State

namespace Machine

variable {m : Machine}

/-- What a step that succeeds leaves alone is decided by its instruction. -/
theorem spares_step (h : m.step.result = .ok ())
    (hi : Instruction.decode m.state.fetch = some i) : Spares i m.state m.step.machine.state := by
  rw [state_step (fault?_of_step_ok h).1, effect_of_decode hi]
  exact State.spares_perform _ _ _

end Machine

end Chip8
