import Chip8.Proofs.CallDiscipline
import Chip8.Proofs.Opcodes

/-!
# Where a step goes

Every instruction writes the program counter, most of them in the same way: they go on to the next
instruction. `Instruction.isSequential` tells these from the others, and
`State.pc_perform_of_isSequential` says so for all of them at once. What is left are jumps, calls
and returns, the wait for a key, and the six skips, which differ in nothing but their conditions:
`Machine.SkipsIff` is what they have in common.

The program counter has sixteen bits and wraps around at 65536, also where only twelve bits count
for fetching. A jump with `V0` added may leave the address space, and nothing takes it back.
-/

namespace Chip8

open Instruction (wordNNN wordXNN wordXYN)

/-- Whether an instruction always goes on to the next one. -/
def Instruction.isSequential : Instruction → Bool
  | ret | jump _ | call _ | jumpOffset _ | waitForKey _ => false
  | skipIfImmediate _ _ | skipUnlessImmediate _ _ | skipIfEqual _ _ | skipUnlessEqual _ _ => false
  | skipIfKey _ | skipUnlessKey _ => false
  | _ => true

/-! ### The program counter in one instruction -/

namespace State

variable {d : Dialect} {s : State} {i : Instruction}

/-- Widening an address does not change it. -/
theorem toNat_widen (target : BitVec 12) : (widen target).toNat = target.toNat := by
  rw [widen, UInt16.toNat_ofBitVec, BitVec.toNat_setWidth]
  exact Nat.mod_eq_of_lt (Nat.lt_trans target.isLt (by decide))

/-- A target with a register added stays below the end of the sixteen bits. -/
theorem toNat_widen_add (target : BitVec 12) (b : UInt8) :
    (widen target + b.toUInt16).toNat = target.toNat + b.toNat := by
  have htarget := target.isLt
  have hb := b.toNat_lt
  rw [UInt16.toNat_add, toNat_widen, UInt8.toNat_toUInt16]
  omega

theorem toNat_pc_skipWhen (s : State) (condition : Bool) :
    (s.skipWhen condition).pc.toNat =
      if condition then (s.pc.toNat + 4) % 65536 else (s.pc.toNat + 2) % 65536 := by
  rw [skipWhen_eq]
  cases condition with
  | false => exact UInt16.toNat_add _ _
  | true => exact UInt16.toNat_add _ _

/-- **Every other instruction goes on to the next one.** -/
theorem pc_perform_of_isSequential (h : i.isSequential = true) :
    ((s.perform d i).stateAfter s).pc = s.pc + 2 := by
  cases i with
  | ret | jump | call | jumpOffset | waitForKey | skipIfImmediate | skipUnlessImmediate
    | skipIfEqual | skipUnlessEqual | skipIfKey | skipUnlessKey => exact absurd h Bool.false_ne_true
  | arithmetic operation x y =>
    simp only [perform, Effect.stateAfter]
    rw [combine_eq]
    rfl
  | storeRegisters x | loadRegisters x =>
    simp only [perform, Effect.stateAfter]
    rw [passIndex_eq]
    rfl
  | _ => rfl

end State

namespace Machine

variable {m : Machine} {i : Instruction}

/-! ### The program counter in one step -/

/-- A step goes past the next instruction exactly if something is so, and else goes on to it. -/
structure SkipsIff (m : Machine) (p : Prop) : Prop where
  skips : m.step.machine.state.pc.toNat = (m.state.pc.toNat + 4) % 65536 ↔ p
  goesOn : ¬ p → m.step.machine.state.pc.toNat = (m.state.pc.toNat + 2) % 65536

/-- That is what the instructions do that skip by a condition. -/
theorem skipsIff_of_perform {condition : Bool} {p : Prop} (hm : m.fault? = none)
    (hw : m.state.fetch = i.word)
    (hi : m.state.perform m.config.dialect i = .advanced (m.state.skipWhen condition))
    (hp : condition = true ↔ p) : m.SkipsIff p := by
  have hpc := m.state.toNat_pc_skipWhen condition
  have hstate := state_step_of_fetch hm hw
  rw [hi] at hstate
  rw [show m.state.skipWhen condition = _ from hstate.symm] at hpc
  cases condition with
  | false =>
    have hnot : ¬ p := fun h ↦ Bool.false_ne_true (hp.2 h)
    refine ⟨?_, fun _ ↦ hpc⟩
    rw [hpc]
    exact iff_of_false (by simp only [Bool.false_eq_true, if_false]; omega) hnot
  | true => exact ⟨iff_of_true hpc (hp.1 rfl), fun h ↦ absurd (hp.1 rfl) h⟩

/-- A call that succeeds has kept the address behind it in the first slot that was not in use. -/
theorem slot_step_call {target : BitVec 12} (h : m.step.result = .ok ())
    (hw : m.state.fetch = wordNNN 0x2 target) :
    let stack := m.step.machine.state.stack
    stack.depth.toNat = m.state.stack.depth.toNat + 1 ∧
      stack.slots[m.state.stack.depth.toNat]? = some (m.state.pc + 2) := by
  have hpush := State.stack_perform_call (result_perform_of_fetch (i := .call target) h hw)
  rw [← state_step_of_fetch (i := .call target) (fault?_of_step_ok h).1 hw] at hpush
  obtain ⟨hlt, hdepth⟩ := CallStack.depth_of_push? hpush
  refine ⟨hdepth, ?_⟩
  rw [CallStack.slots_of_push? hpush, Vector.getElem?_set_self]

/-- A return that succeeds goes to the address in the last slot in use. -/
theorem slot_step_ret (h : m.step.result = .ok ()) (hw : m.state.fetch = 0x00EE) :
    0 < m.state.stack.depth.toNat ∧
      m.state.stack.slots[m.state.stack.depth.toNat - 1]? = some m.step.machine.state.pc := by
  have hpop := State.stack_perform_ret (result_perform_of_fetch (i := .ret) h hw)
  rw [← state_step_of_fetch (i := .ret) (fault?_of_step_ok h).1 hw] at hpop
  obtain ⟨-, hdepth⟩ := CallStack.depth_of_pop? hpop
  exact ⟨by omega, (CallStack.slots_of_pop? hpop).1⟩

/-- A call that succeeds goes to its target. -/
theorem pc_step_call {target : BitVec 12} (h : m.step.result = .ok ())
    (hw : m.state.fetch = wordNNN 0x2 target) :
    m.step.machine.state.pc = State.widen target := by
  have hpush := State.stack_perform_call (result_perform_of_fetch (i := .call target) h hw)
  rw [state_step_of_fetch (i := .call target) (fault?_of_step_ok h).1 hw, State.perform_call hpush]
  rfl

/-- A wait stays where it is as long as no key is held. -/
theorem pc_step_waitForKey {x : Register} (hm : m.fault? = none)
    (hw : m.state.fetch = wordXNN 0xF x 0x0A) :
    m.step.machine.state.pc = if true ∈ m.keys then m.state.pc + 2 else m.state.pc := by
  rw [state_step_of_fetch (i := .waitForKey x) hm hw, State.perform]
  rcases hkey : m.state.keypad.firstDown? with - | key
  · have hnot : true ∉ m.keys := Keypad.firstDown?_eq_none_iff_not_mem.1 hkey
    rw [if_neg hnot]
    rfl
  · have hmem : true ∈ m.keys := by
      refine Decidable.of_not_not fun hnot ↦ ?_
      rw [Keypad.firstDown?_eq_none_iff_not_mem.2 hnot] at hkey
      exact absurd hkey (by simp)
    rw [if_pos hmem]
    rfl

/-- **The next program counter, for every instruction.** Let a step of any machine succeed, with all
operands, keys and slots taken from before the step. It goes where the table says for the word at
hand: a call keeps the address behind it in the first free slot, a return goes to the address in the
last slot in use, and a jump with `V0` added is not reduced to the address space. Skips go past the
next instruction exactly by their conditions, and only the sixteen keys can be held. Every
instruction that is not in the table goes on to the next one. -/
theorem next_pc_exact (m : Machine) (h : m.step.result = .ok ()) :
    let s := m.state
    let w := s.fetch
    let pc := s.pc.toNat
    let t := m.step.machine.state
    let next := t.pc.toNat
    let used := s.stack.depth.toNat
    let held (x : Register) := m.keys[(s.v x).toNat]? = some true
    (∀ target, w = wordNNN 0x1 target → next = target.toNat) ∧
      (∀ target, w = wordNNN 0x2 target →
        next = target.toNat ∧ t.stack.depth.toNat = used + 1 ∧
          t.stack.slots[used]?.map UInt16.toNat = some ((pc + 2) % 65536)) ∧
      (w = 0x00EE → 0 < used ∧ s.stack.slots[used - 1]?.map UInt16.toNat = some next) ∧
      (∀ target, w = wordNNN 0xB target → next = target.toNat + (s.v V0).toNat) ∧
      (∀ x, w = wordXNN 0xF x 0x0A → next = if true ∈ m.keys then (pc + 2) % 65536 else pc) ∧
      (∀ x (nn : UInt8), w = wordXNN 0x3 x nn.toNat → m.SkipsIff (s.v x = nn)) ∧
      (∀ x (nn : UInt8), w = wordXNN 0x4 x nn.toNat → m.SkipsIff (s.v x ≠ nn)) ∧
      (∀ x y, w = wordXYN 0x5 x y 0x0 → m.SkipsIff (s.v x = s.v y)) ∧
      (∀ x y, w = wordXYN 0x9 x y 0x0 → m.SkipsIff (s.v x ≠ s.v y)) ∧
      m.keys.length = 16 ∧
      (∀ x, w = wordXNN 0xE x 0x9E → m.SkipsIff (held x)) ∧
      (∀ x, w = wordXNN 0xE x 0xA1 → m.SkipsIff ¬ held x) ∧
      ∀ i : Instruction, w = i.word → i.isSequential = true → next = (pc + 2) % 65536 := by
  intro s w pc t next used held
  obtain ⟨hm, -⟩ := fault?_of_step_ok h
  refine ⟨fun target hw ↦ ?jump, fun target hw ↦ ?call, fun hw ↦ ?ret, fun target hw ↦ ?jumpOffset,
    fun x hw ↦ ?wait, fun x nn hw ↦ ?_, fun x nn hw ↦ ?_, fun x y hw ↦ ?_, fun x y hw ↦ ?_,
    s.keypad.length_toList, fun x hw ↦ ?_, fun x hw ↦ ?_, fun i hw hi ↦ ?sequential⟩
  case jump =>
    rw [← State.toNat_widen]
    exact congrArg (·.pc.toNat) (state_step_of_fetch (i := .jump target) hm hw)
  case call =>
    obtain ⟨hdepth, hslot⟩ := slot_step_call h hw
    refine ⟨?_, hdepth, ?_⟩
    · rw [← State.toNat_widen, ← pc_step_call h hw]
    · rw [hslot]
      exact congrArg some (UInt16.toNat_add _ _)
  case ret =>
    obtain ⟨hpos, hslot⟩ := slot_step_ret h hw
    exact ⟨hpos, congrArg (Option.map UInt16.toNat) hslot⟩
  case jumpOffset =>
    rw [← State.toNat_widen_add]
    exact congrArg (·.pc.toNat) (state_step_of_fetch (i := .jumpOffset target) hm hw)
  case wait =>
    refine (congrArg UInt16.toNat (pc_step_waitForKey hm hw)).trans ?_
    rw [apply_ite UInt16.toNat, UInt16.toNat_add]
    rfl
  -- the six skips
  · exact skipsIff_of_perform (i := .skipIfImmediate x nn) hm hw rfl beq_iff_eq
  · exact skipsIff_of_perform (i := .skipUnlessImmediate x nn) hm hw rfl bne_iff_ne
  · exact skipsIff_of_perform (i := .skipIfEqual x y) hm hw rfl beq_iff_eq
  · exact skipsIff_of_perform (i := .skipUnlessEqual x y) hm hw rfl bne_iff_ne
  · exact skipsIff_of_perform (i := .skipIfKey x) hm hw rfl Keypad.isDown_eq_true_iff
  · refine skipsIff_of_perform (i := .skipUnlessKey x) hm hw rfl ?_
    rw [Bool.not_eq_true', ← Bool.not_eq_true]
    exact not_congr Keypad.isDown_eq_true_iff
  case sequential =>
    have hpc : t.pc = s.pc + 2 := by
      rw [show t = _ from state_step_of_fetch hm hw]
      exact State.pc_perform_of_isSequential hi
    exact (congrArg UInt16.toNat hpc).trans (UInt16.toNat_add _ _)

/-- A jump from the end of the address space leaves it, because nothing reduces the sum. -/
theorem next_pc_exact_of_offset :
    let rom : Rom := ⟨#[0xBF, 0xFF], by decide⟩
    let m : Machine :=
      { powerOn {} rom 0 with
        state := { State.powerOn rom 0 with registers := Registers.zero.set V0 0xFF } }
    m.step.result = .ok () ∧ m.state.fetch = wordNNN 0xB 0xFFF ∧
      m.step.machine.state.pc.toNat = 0x10FE := by
  have key (m : Machine) (hm : m.fault? = none) (hw : m.state.fetch = wordNNN 0xB 0xFFF)
      (hv : m.state.v V0 = 0xFF) :
      m.step.result = .ok () ∧ m.step.machine.state.pc.toNat = 0x10FE := by
    have h : m.step.result = .ok () := by
      rw [step_of_fetch (i := .jumpOffset 0xFFF) hm hw rfl]
    obtain ⟨-, -, -, hoffset, -⟩ := next_pc_exact m h
    refine ⟨h, (hoffset 0xFFF hw).trans ?_⟩
    rw [hv]
    decide
  intro rom m
  have hw : m.state.fetch = wordNNN 0xB 0xFFF := by
    show (State.powerOn rom 0).fetch = _
    rw [State.fetch_powerOn]
    decide
  obtain ⟨hok, hnext⟩ := key m rfl hw ((Registers.get_set _ _ _ _).trans (if_pos rfl))
  exact ⟨hok, hw, hnext⟩

end Machine

end Chip8
