import Chip8.Proofs.Faults
import Chip8.Proofs.Lockstep

/-!
# Twelve-bit addresses

`I`, the program counter and the slots of the call stack have sixteen bits, and memory has room for
the low twelve of them only. Two states are **congruent** if they differ in what that leaves unused:
in multiples of the size of memory that are added to addresses, and in slots that are not in use.
`performAll_congruent` says that no program can tell them apart. Its screens are the same, and its
faults differ by such a multiple in their address.

What makes it true is said once for each operation that takes addresses: reading and writing memory
give the same for congruent addresses, also in blocks, because adding keeps congruence
(`AddressCongruent.add`), and pushing and popping keep congruence of stacks.
`State.Congruent.perform` puts them together for every instruction.
-/

namespace Chip8

/-! ### Addresses and memory -/

/-- Addresses that differ by a multiple of the size of memory. -/
def AddressCongruent (a b : UInt16) : Prop :=
  a.toNat % memorySize = b.toNat % memorySize

instance (a b : UInt16) : Decidable (AddressCongruent a b) :=
  inferInstanceAs (Decidable (a.toNat % memorySize = b.toNat % memorySize))

namespace AddressCongruent

variable {a b : UInt16}

theorem refl (a : UInt16) : AddressCongruent a a := rfl

/-- **Adding keeps congruence**, also where the sum wraps around at sixteen bits: the size of memory
divides the number of addresses. -/
theorem add (h : AddressCongruent a b) (c : UInt16) : AddressCongruent (a + c) (b + c) := by
  have hdvd : memorySize ∣ 2 ^ 16 := ⟨16, rfl⟩
  rw [AddressCongruent, UInt16.toNat_add, UInt16.toNat_add, Nat.mod_mod_of_dvd _ hdvd,
    Nat.mod_mod_of_dvd _ hdvd, Nat.add_mod, h, ← Nat.add_mod]

theorem cell_eq (h : AddressCongruent a b) : Memory.cell a = Memory.cell b :=
  Fin.ext h

theorem read_eq (h : AddressCongruent a b) (m : Memory) : m.read a = m.read b :=
  m.read_congr h.cell_eq

theorem write_eq (h : AddressCongruent a b) (m : Memory) (v : UInt8) :
    m.write a v = m.write b v := by
  simp only [Memory.write, h.cell_eq]

theorem readWord_eq (h : AddressCongruent a b) (m : Memory) : m.readWord a = m.readWord b := by
  rw [Memory.readWord, Memory.readWord, h.read_eq, (h.add 1).read_eq]

theorem readBlock_eq (h : AddressCongruent a b) (m : Memory) (n : Nat) :
    m.readBlock a n = m.readBlock b n :=
  List.map_congr_left fun _ _ ↦ (h.add _).read_eq m

theorem writeBlock_eq (h : AddressCongruent a b) (m : Memory) (bs : List UInt8) :
    m.writeBlock a bs = m.writeBlock b bs := by
  induction bs generalizing m a b with
  | nil => rfl
  | cons v bs ih =>
    rw [Memory.writeBlock_cons, Memory.writeBlock_cons, h.write_eq]
    exact ih (h.add 1) _

end AddressCongruent

/-! ### Stacks -/

/-- Stacks with as many slots in use, and congruent addresses in them. Nothing is said about the
slots that are not in use. -/
structure CallStack.Congruent (s t : CallStack) : Prop where
  depth : s.depth = t.depth
  slots : ∀ (i : Nat) (hi : i < 16), i < s.depth.toNat → AddressCongruent s.slots[i] t.slots[i]

namespace CallStack.Congruent

variable {s t : CallStack} {a b : UInt16}

/-- The new slot is congruent, and the slots below it are as they were. -/
theorem push? (h : Congruent s t) (hab : AddressCongruent a b) :
    Option.Rel Congruent (s.push? a) (t.push? b) := by
  simp only [CallStack.push?, ← h.depth]
  split
  next hfree =>
    have hdepth : (s.depth + 1).toNat = s.depth.toNat + 1 := by
      rw [UInt8.toNat_add]
      exact Nat.mod_eq_of_lt (by have := hfree; simp only [UInt8.toNat_one]; omega)
    refine .some ⟨rfl, fun i hi hlt ↦ ?_⟩
    have hle : i < s.depth.toNat + 1 := hdepth ▸ hlt
    simp only [Vector.getElem_set]
    split
    · exact hab
    · exact h.slots i hi (by omega)
  next => exact .none

/-- Popping gives congruent addresses, and leaves the slots below. -/
theorem pop? (h : Congruent s t) :
    Option.Rel (fun p q ↦ AddressCongruent p.1 q.1 ∧ Congruent p.2 q.2) s.pop? t.pop? := by
  simp only [CallStack.pop?, ← h.depth]
  split
  next hused =>
    have hdepth : (s.depth - 1).toNat = s.depth.toNat - 1 :=
      UInt8.toNat_sub_of_le _ _ (UInt8.le_iff_toNat_le.2 hused.1)
    refine .some ⟨h.slots _ (by omega) (by omega), rfl, fun i hi hlt ↦ ?_⟩
    have hlt' : i < s.depth.toNat - 1 := hdepth ▸ hlt
    exact h.slots i hi (by omega)
  next => exact .none

end CallStack.Congruent

/-! ### States, faults and effects -/

/-- States that no program can tell apart. -/
structure State.Congruent (s t : State) : Prop where
  memory : s.memory = t.memory
  registers : s.registers = t.registers
  index : AddressCongruent s.index t.index
  pc : AddressCongruent s.pc t.pc
  stack : s.stack.Congruent t.stack
  timers : s.timers = t.timers
  screen : s.screen = t.screen
  keypad : s.keypad = t.keypad
  random : s.random = t.random

/-- Faults of one kind, with the same opcode, at congruent addresses. -/
inductive Fault.Congruent : Fault → Fault → Prop
  | invalidOpcode (w : UInt16) {a b : UInt16} (h : AddressCongruent a b) :
    Congruent (.invalidOpcode w a) (.invalidOpcode w b)
  | stackOverflow {a b : UInt16} (h : AddressCongruent a b) :
    Congruent (.stackOverflow a) (.stackOverflow b)
  | stackUnderflow {a b : UInt16} (h : AddressCongruent a b) :
    Congruent (.stackUnderflow a) (.stackUnderflow b)

/-- Effects of one kind, that lead to congruent states or to congruent faults. -/
inductive Effect.Congruent : Effect → Effect → Prop
  | advanced {s t : State} (h : s.Congruent t) : Congruent (.advanced s) (.advanced t)
  | answered {s t : State} (h : s.Congruent t) : Congruent (.answered s) (.answered t)
  | stalled : Congruent .stalled .stalled
  | faulted {f g : Fault} (h : f.Congruent g) : Congruent (.faulted f) (.faulted g)

namespace State.Congruent

variable {s t : State}

/-! ### Operations on states -/

theorem fetch_eq (h : s.Congruent t) : s.fetch = t.fetch := by
  rw [fetch, fetch, h.pc.readWord_eq, h.memory]

theorem v_eq (h : s.Congruent t) (x : Register) : s.v x = t.v x := by
  rw [v, v, h.registers]

theorem setV (h : s.Congruent t) (x : Register) (b : UInt8) : (s.setV x b).Congruent (t.setV x b) :=
  { h with registers := congrArg (Registers.set · x b) h.registers }

theorem setFlag (h : s.Congruent t) (condition : Bool) :
    (s.setFlag condition).Congruent (t.setFlag condition) :=
  h.setV VF _

theorem advance (h : s.Congruent t) : s.advance.Congruent t.advance :=
  { h with pc := h.pc.add 2 }

theorem skipWhen (h : s.Congruent t) (condition : Bool) :
    (s.skipWhen condition).Congruent (t.skipWhen condition) := by
  rw [skipWhen_eq, skipWhen_eq]
  exact { h with pc := h.pc.add _ }

theorem tick (h : s.Congruent t) : s.tick.Congruent t.tick :=
  { h with timers := congrArg Timers.tick h.timers }

theorem combine (h : s.Congruent t) (operation : Arithmetic) (x y : Register) :
    (s.combine operation x y).Congruent (t.combine operation x y) := by
  rw [State.combine, State.combine, h.v_eq, h.v_eq]
  split
  · exact (h.setV x _).setFlag _
  · exact h.setV x _

theorem shift (h : s.Congruent t) (direction : Direction) (x source : Register) :
    (s.shift direction x source).Congruent (t.shift direction x source) := by
  rw [State.shift, State.shift, h.v_eq]
  exact (h.setV x _).setFlag _

theorem drawRandom (h : s.Congruent t) (x : Register) (mask : UInt8) :
    (s.drawRandom x mask).Congruent (t.drawRandom x mask) := by
  rw [State.drawRandom, State.drawRandom, h.random]
  exact { h.setV x _ with random := rfl }

/-- The sprite is read from the same cells. -/
theorem drawSprite (h : s.Congruent t) (x y : Register) (rows : Nat) :
    (s.drawSprite x y rows).Congruent (t.drawSprite x y rows) := by
  rw [State.drawSprite, State.drawSprite, h.v_eq, h.v_eq, h.index.readBlock_eq, h.memory, h.screen]
  exact { h.setFlag _ with screen := rfl }

theorem passIndex (h : s.Congruent t) (d : Dialect) (x : Register) :
    (s.passIndex d x).Congruent (t.passIndex d x) := by
  rw [State.passIndex, State.passIndex]
  split
  · exact { h with index := h.index.add _ }
  · exact h

/-! ### Instructions -/

/-- **Every instruction has congruent effects in congruent states.** -/
theorem perform (h : s.Congruent t) (d : Dialect) (i : Instruction) :
    (s.perform d i).Congruent (t.perform d i) := by
  cases i with
  | clearScreen => exact .advanced { h.advance with screen := rfl }
  | ret =>
    have hpop := h.stack.pop?
    simp only [State.perform]
    generalize s.stack.pop? = p at hpop ⊢
    generalize t.stack.pop? = q at hpop ⊢
    cases hpop with
    | none => exact .faulted (.stackUnderflow h.pc)
    | some hpop => exact .advanced { h with pc := hpop.1, stack := hpop.2 }
  | jump target => exact .advanced { h with pc := .refl _ }
  | call target =>
    have hpush := h.stack.push? (h.pc.add 2)
    simp only [State.perform]
    generalize s.stack.push? (s.pc + 2) = p at hpush ⊢
    generalize t.stack.push? (t.pc + 2) = q at hpush ⊢
    cases hpush with
    | none => exact .faulted (.stackOverflow h.pc)
    | some hpush => exact .advanced { h with pc := .refl _, stack := hpush }
  | skipIfImmediate | skipUnlessImmediate | skipIfEqual | skipUnlessEqual =>
    simp only [State.perform, h.v_eq]
    exact .advanced (h.skipWhen _)
  | skipIfKey | skipUnlessKey =>
    simp only [State.perform, h.v_eq, h.keypad]
    exact .advanced (h.skipWhen _)
  | loadImmediate | addImmediate =>
    simp only [State.perform, h.v_eq]
    exact .advanced (h.setV _ _).advance
  | readDelay x =>
    simp only [State.perform, h.timers]
    exact .advanced (h.setV x _).advance
  | arithmetic operation x y => exact .advanced (h.combine operation x y).advance
  | shift direction x y => exact .advanced (h.shift direction x _).advance
  | loadIndex target => exact .advanced { h.advance with index := .refl _ }
  | jumpOffset target =>
    simp only [State.perform, h.v_eq]
    exact .advanced { h with pc := .refl _ }
  | random x mask => exact .advanced (h.drawRandom x mask).advance
  | draw x y rows => exact .advanced (h.drawSprite x y rows).advance
  | waitForKey x =>
    simp only [State.perform, h.keypad]
    split
    · exact .answered (h.setV x _).advance
    · exact .stalled
  | setDelay | setSound =>
    simp only [State.perform, h.v_eq, h.timers]
    exact .advanced { h.advance with timers := rfl }
  | addIndex x =>
    simp only [State.perform, h.v_eq]
    exact .advanced { h.advance with index := h.index.add _ }
  | loadGlyph x =>
    simp only [State.perform, h.v_eq]
    exact .advanced { h.advance with index := .refl _ }
  | storeDecimal x =>
    simp only [State.perform, h.v_eq, h.memory, h.index.writeBlock_eq]
    exact .advanced { h.advance with memory := rfl }
  | storeRegisters x =>
    simp only [State.perform, h.registers, h.memory, h.index.writeBlock_eq]
    refine .advanced (passIndex ?_ d x).advance
    exact { h with memory := rfl, registers := rfl }
  | loadRegisters x =>
    simp only [State.perform, h.registers, h.memory, h.index.readBlock_eq]
    refine .advanced (passIndex ?_ d x).advance
    exact { h with memory := rfl, registers := rfl }

/-- Congruent states stand on the same word. -/
theorem execute (h : s.Congruent t) (d : Dialect) : (s.execute d).Congruent (t.execute d) := by
  rw [State.execute, State.execute, h.fetch_eq]
  split
  · exact h.perform d _
  · exact .faulted (.invalidOpcode _ h.pc)

end State.Congruent

namespace Machine

/-! ### Machines -/

/-- Machines in congruent states, of one dialect and clock rate, that both run or are halted by
congruent faults. -/
structure Congruent (a b : Machine) : Prop where
  state : a.state.Congruent b.state
  dialect : a.config.dialect = b.config.dialect
  clockRate : a.config.clockRate = b.config.clockRate
  fault? : Option.Rel Fault.Congruent a.fault? b.fault?

variable {a b : Machine}

/-- Congruent machines step to congruent machines, with answers that agree. -/
theorem Congruent.step (h : a.Congruent b) :
    AnswersAgree Fault.Congruent a.step.result b.step.result ∧
      a.step.machine.Congruent b.step.machine := by
  have hfault := h.fault?
  generalize ha : a.fault? = x at hfault
  generalize hb : b.fault? = y at hfault
  cases hfault with
  | none =>
    have heffect := h.state.execute a.config.dialect
    rw [step_of_running ha, step_of_running hb, stepRunning, stepRunning, ← h.dialect]
    generalize a.state.execute a.config.dialect = e at heffect ⊢
    generalize b.state.execute a.config.dialect = e' at heffect ⊢
    cases heffect with
    | advanced hs | answered hs => exact ⟨.ok (), { h with state := hs }⟩
    | stalled => exact ⟨.ok (), { h with }⟩
    | faulted hf => exact ⟨.error hf, { h with fault? := .some hf }⟩
  | some hf =>
    rw [step_of_fault? ha, step_of_fault? hb]
    exact ⟨.error hf, h⟩

/-- **Congruent machines run in lockstep.** -/
theorem Congruent.lockstep : Lockstep Fault.Congruent Congruent where
  step h := h.step
  tick h _ _ := { h with state := h.state.tick }
  keys h _ := { h with state := { h.state with keypad := rfl } }
  stepsPerFrame h := by rw [Config.stepsPerFrame, Config.stepsPerFrame, h.clockRate]
  screen h := h.state.screen

/-- **No program can tell congruent states apart.** Let two running machines of one dialect and
clock rate be in states that are the same but for multiples of 4096 in `I`, in the program counter
and in the slots in use, and but for the slots that are not in use. Whatever calls run them or
change their keys, they give the same answers, or faults of one kind with the same opcode whose
addresses differ by such a multiple, and their states stay related in this way. -/
theorem performAll_congruent (ha : a.fault? = none) (hb : b.fault? = none)
    (hdialect : a.config.dialect = b.config.dialect)
    (hclock : a.config.clockRate = b.config.clockRate) (h : a.state.Congruent b.state)
    {calls : List Call} (hc : ∀ c ∈ calls, c.replacesState = false ∧ c ≠ .snapshot) :
    List.Forall₂ (Response.Agrees Fault.Congruent) (a.performAll calls).result
        (b.performAll calls).result ∧
      (a.performAll calls).machine.Congruent (b.performAll calls).machine := by
  have hrunning : a.Congruent b := ⟨h, hdialect, hclock, by rw [ha, hb]; exact .none⟩
  exact Congruent.lockstep.performAll hrunning hc

/-- A machine that was switched on, and one whose addresses and unused slots are far from its own.
The first step of both raises the fault of an empty program, each at its own address. -/
theorem performAll_congruent_of_empty :
    let a := powerOn {} Rom.empty 0
    let stack : CallStack := ⟨Vector.replicate 16 0xBEEF, 0⟩
    let b := { a with state := { a.state with index := 0x3000, pc := 0x1200, stack := stack } }
    let calls : List Call := [.setKeys (List.replicate 16 true), .step, .runFrame]
    a.fault? = none ∧ b.fault? = none ∧ a.config.dialect = b.config.dialect ∧
      a.config.clockRate = b.config.clockRate ∧ a.state.Congruent b.state ∧
      (∀ c ∈ calls, c.replacesState = false ∧ c ≠ .snapshot) ∧
      a.step.result = .error (.invalidOpcode 0 0x200) ∧
      b.step.result = .error (.invalidOpcode 0 0x1200) ∧
      List.Forall₂ (Response.Agrees Fault.Congruent) (a.performAll calls).result
        (b.performAll calls).result ∧
      (a.performAll calls).machine.Congruent (b.performAll calls).machine := by
  intro a stack b calls
  have hstack : a.state.stack.Congruent stack :=
    ⟨rfl, fun _ _ hlt ↦ absurd hlt (Nat.not_lt_zero _)⟩
  have hindex : AddressCongruent 0 0x3000 := by decide
  have hpc : AddressCongruent 0x200 0x1200 := by decide
  have h : a.state.Congruent b.state :=
    ⟨rfl, rfl, hindex, hpc, hstack, rfl, rfl, rfl, rfl⟩
  have hc : ∀ c ∈ calls, c.replacesState = false ∧ c ≠ .snapshot := by decide
  have hfetch : b.state.fetch = 0 := by
    rw [← h.fetch_eq, show a.state = State.powerOn Rom.empty 0 from rfl, State.fetch_powerOn]
    decide
  have hresult : b.step.result = .error (.invalidOpcode 0 0x1200) := by
    rw [result_step rfl, effect, State.execute, hfetch]
    rfl
  obtain ⟨hanswers, hlast⟩ := performAll_congruent (a := a) (b := b) rfl rfl rfl rfl h hc
  exact ⟨rfl, rfl, rfl, rfl, h, hc, result_step_powerOn_empty {} 0, hresult, hanswers, hlast⟩

end Machine

end Chip8
