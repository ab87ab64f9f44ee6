import Chip8.Proofs.Opcodes

/-!
# Arithmetic where registers coincide

The instructions `8XYN` and `7XNN` name registers that may be the same, and one of them may be the
flag. What they do then is decided by an order: both operands are read, the result is written, and
the flag is written **last**.

`Registers.Written` says what is left after such writes, without saying how they were made: the flag
is in `VF`, the result is in `VX` unless the flag has overwritten it, and every other register is as
it was. `written_set` and `written_setFlag` are the two ways to get there, and `Machine.Writes` adds
that a step does this and nothing else besides going on by one instruction. What is left for each
operation is to read its result and its flag as numbers.
-/

namespace Chip8

/-! ### Writing a result and a flag -/

/-- The registers after a result was written to `VX` and then a flag, if there is one, to `VF`. -/
structure Registers.Written (r t : Registers) (x : Register) (result : Nat) (flag? : Option Nat) :
    Prop where
  flag : ∀ f, flag? = some f → (t.get VF).toNat = f
  /-- The flag wins where both were written to the same register. -/
  result : flag? = none ∨ x ≠ VF → (t.get x).toNat = result
  others : ∀ z, z ≠ x → flag? = none ∨ z ≠ VF → t.get z = r.get z

namespace Registers

variable {r : Registers} {x : Register}

theorem written_set (b : UInt8) : Written r (r.set x b) x b.toNat none where
  flag f hf := absurd hf (by simp)
  result _ := by rw [get_set, if_pos rfl]
  others z hz _ := by rw [get_set, if_neg hz.symm]

theorem written_setFlag (b : UInt8) (condition : Bool) :
    Written r ((r.set x b).setFlag condition) x b.toNat (some condition.toNat) where
  flag f hf := by
    rw [setFlag, get_set, if_pos rfl, ← Option.some.inj hf]
    cases condition <;> rfl
  result hx := by
    have hne : VF ≠ x := (hx.resolve_left (by simp)).symm
    rw [setFlag, get_set, if_neg hne, get_set, if_pos rfl]
  others z hz hflag := by
    have hne : VF ≠ z := (hflag.resolve_left (by simp)).symm
    rw [setFlag, get_set, if_neg hne, get_set, if_neg hz.symm]

end Registers

/-! ### Results and flags as numbers -/

theorem toNat_decide (p : Prop) [Decidable p] : (decide p).toNat = if p then 1 else 0 :=
  Bool.cond_decide p 1 0

namespace Arithmetic

/-- The sum less its carry. -/
theorem toNat_result_add_eq_mod (a b : UInt8) :
    (result add a b).toNat = (a.toNat + b.toNat) % 256 := by
  have hsum := toNat_result_add a b
  have hlt := (result add a b).toNat_lt
  split at hsum <;> omega

/-- The difference, with what was borrowed. -/
theorem toNat_result_subtract_eq_mod (a b : UInt8) :
    (result subtract a b).toNat = (256 + a.toNat - b.toNat) % 256 := by
  have hdifference := toNat_result_subtract a b
  have hlt := (result subtract a b).toNat_lt
  split at hdifference <;> omega

theorem toNat_flag_le (a b : UInt8) :
    (decide (a ≤ b)).toNat = if a.toNat ≤ b.toNat then 1 else 0 := by
  simp only [UInt8.le_iff_toNat_le, toNat_decide]

end Arithmetic

namespace Direction

theorem toNat_result_right (b : UInt8) : (result right b).toNat = b.toNat / 2 :=
  UInt8.toNat_shiftRight b 1

theorem toNat_result_left (b : UInt8) : (result left b).toNat = 2 * b.toNat % 256 := by
  rw [result, UInt8.toNat_shiftLeft, Nat.mul_comm]
  exact congrArg (· % 256) (Nat.shiftLeft_eq _ _)

theorem toNat_flag_right (b : UInt8) : (flag right b).toNat = b.toNat % 2 := by
  rw [flag, toNat_decide]
  split <;> omega

theorem toNat_flag_left (b : UInt8) : (flag left b).toNat = b.toNat / 128 := by
  have hb := b.toNat_lt
  rw [flag, toNat_decide]
  split <;> omega

end Direction

/-! ### What the instructions write -/

namespace State

variable {s : State} {x : Register}

/-- The result of an operation is written before its flag, if it has one. -/
theorem written_combine (s : State) (operation : Arithmetic) (x y : Register) :
    s.registers.Written (s.combine operation x y).registers x
      (operation.result (s.v x) (s.v y)).toNat
      ((operation.flag? (s.v x) (s.v y)).map Bool.toNat) := by
  rw [combine]
  split
  next flag h =>
    rw [h]
    exact Registers.written_setFlag _ flag
  next h =>
    rw [h]
    exact Registers.written_set _

end State

namespace Machine

/-- A step that writes a result and maybe a flag to registers, goes on to the next instruction and
changes nothing else. -/
structure Writes (m : Machine) (x : Register) (result : Nat) (flag? : Option Nat) : Prop where
  answer : m.step.result = .ok ()
  registers :
    m.state.registers.Written m.step.machine.state.registers x result flag?
  others :
    m.step.machine =
      { m with state :=
        { m.state with
          registers := m.step.machine.state.registers
          pc := m.state.pc + 2 } }

variable {m : Machine} {x y : Register} {result : Nat} {flag? : Option Nat}

theorem writes_of_perform {i : Instruction} {t : Registers} (hm : m.fault? = none)
    (hw : m.state.fetch = i.word)
    (hi : m.state.perform m.config.dialect i = .advanced { m.state with registers := t }.advance)
    (ht : m.state.registers.Written t x result flag?) : m.Writes x result flag? := by
  have hstep := step_of_fetch hm hw hi
  constructor
  · rw [hstep]
  · rw [hstep]
    exact ht
  · rw [hstep]
    rfl

theorem writes_arithmetic (hm : m.fault? = none) (operation : Arithmetic)
    (hw : m.state.fetch = (Instruction.arithmetic operation x y).word) :
    m.Writes x (operation.result (m.state.v x) (m.state.v y)).toNat
      ((operation.flag? (m.state.v x) (m.state.v y)).map Bool.toNat) :=
  writes_of_perform hm hw (by rw [State.perform, State.combine_eq])
    (m.state.written_combine operation x y)

theorem writes_shift (hm : m.fault? = none) (direction : Direction)
    (hw : m.state.fetch = (Instruction.shift direction x y).word) :
    let b := m.state.v (if m.config.dialect.shiftReadsY then y else x)
    m.Writes x (direction.result b).toNat (some (direction.flag b).toNat) :=
  writes_of_perform hm hw rfl (Registers.written_setFlag _ _)

theorem writes_addImmediate (hm : m.fault? = none) {value : UInt8}
    (hw : m.state.fetch = (Instruction.addImmediate x value).word) :
    m.Writes x (m.state.v x + value).toNat none :=
  writes_of_perform hm hw rfl (Registers.written_set _)

theorem Writes.congr {result' : Nat} {flag?' : Option Nat} (h : m.Writes x result flag?)
    (hresult : result = result') (hflag : flag? = flag?') : m.Writes x result' flag?' := by
  rwa [← hresult, ← hflag]

/-- **What arithmetic on registers leaves, whichever registers coincide.** Let a running machine
stand on one of these words, and let `a` and `b` be the values of `VX` and `VY` before the step. The
step succeeds, and writes to `VX` and `VF` what stands beside the word. Where `X` is `F` the flag is
what is left, and every other register and everything else but the program counter stays as it
was. -/
theorem register_arithmetic_exact {m : Machine} (hm : m.fault? = none) (x y : Register) :
    let word := m.state.fetch
    let a := (m.state.v x).toNat
    let b := (m.state.v y).toNat
    let shifted := if m.config.dialect.shiftReadsY then b else a
    (word = Instruction.wordXYN 0x8 x y 0x0 → m.Writes x b none) ∧
    (word = Instruction.wordXYN 0x8 x y 0x1 → m.Writes x (a ||| b) none) ∧
    (word = Instruction.wordXYN 0x8 x y 0x2 → m.Writes x (a &&& b) none) ∧
    (word = Instruction.wordXYN 0x8 x y 0x3 → m.Writes x (a ^^^ b) none) ∧
    (word = Instruction.wordXYN 0x8 x y 0x4 →
      m.Writes x ((a + b) % 256) (some (if 256 ≤ a + b then 1 else 0))) ∧
    (word = Instruction.wordXYN 0x8 x y 0x5 →
      m.Writes x ((256 + a - b) % 256) (some (if b ≤ a then 1 else 0))) ∧
    (word = Instruction.wordXYN 0x8 x y 0x6 →
      m.Writes x (shifted / 2) (some (shifted % 2))) ∧
    (word = Instruction.wordXYN 0x8 x y 0x7 →
      m.Writes x ((256 + b - a) % 256) (some (if a ≤ b then 1 else 0))) ∧
    (word = Instruction.wordXYN 0x8 x y 0xE →
      m.Writes x (2 * shifted % 256) (some (shifted / 128))) ∧
    ∀ nn < 256, word = Instruction.wordXNN 0x7 x nn → m.Writes x ((a + nn) % 256) none := by
  intro word a b shifted
  have hshifted : (m.state.v (if m.config.dialect.shiftReadsY then y else x)).toNat = shifted :=
    apply_ite (fun z ↦ (m.state.v z).toNat) _ y x
  refine ⟨fun h ↦ writes_arithmetic hm .copy h, fun h ↦ ?or, fun h ↦ ?and, fun h ↦ ?xor,
    fun h ↦ ?add, fun h ↦ ?subtract, fun h ↦ ?right, fun h ↦ ?subtractFrom, fun h ↦ ?left,
    fun nn hnn h ↦ ?addImmediate⟩
  case or => exact (writes_arithmetic hm .or h).congr (UInt8.toNat_or _ _) rfl
  case and => exact (writes_arithmetic hm .and h).congr (UInt8.toNat_and _ _) rfl
  case xor => exact (writes_arithmetic hm .xor h).congr (UInt8.toNat_xor _ _) rfl
  case add =>
    exact (writes_arithmetic hm .add h).congr (Arithmetic.toNat_result_add_eq_mod _ _)
      (congrArg some (toNat_decide _))
  case subtract =>
    exact (writes_arithmetic hm .subtract h).congr (Arithmetic.toNat_result_subtract_eq_mod _ _)
      (congrArg some (Arithmetic.toNat_flag_le _ _))
  case subtractFrom =>
    rw [← Arithmetic.toNat_result_subtract_eq_mod, ← Arithmetic.result_subtractFrom]
    exact (writes_arithmetic hm .subtractFrom h).congr rfl
      (congrArg some (Arithmetic.toNat_flag_le _ _))
  case right =>
    rw [← hshifted]
    exact (writes_shift hm .right h).congr (Direction.toNat_result_right _)
      (congrArg some (Direction.toNat_flag_right _))
  case left =>
    rw [← hshifted]
    exact (writes_shift hm .left h).congr (Direction.toNat_result_left _)
      (congrArg some (Direction.toNat_flag_left _))
  case addImmediate =>
    have hvalue : (UInt8.ofNat nn).toNat = nn := Nat.mod_eq_of_lt hnn
    have hword : word = (Instruction.addImmediate x (UInt8.ofNat nn)).word := by
      rw [h, Instruction.word, hvalue]
    refine (writes_addImmediate hm hword).congr ?_ rfl
    rw [UInt8.toNat_add, hvalue]

/-- A machine adds `VF` to itself: the sum of 200 and 200 is gone, and the carry is left. -/
theorem register_arithmetic_exact_of_flag :
    let rom : Rom := ⟨#[0x8F, 0xF4], by decide⟩
    let m : Machine :=
      { powerOn {} rom 0 with
        state := { State.powerOn rom 0 with registers := Registers.zero.set VF 200 } }
    m.fault? = none ∧ m.state.fetch = Instruction.wordXYN 0x8 VF VF 0x4 ∧
      (m.state.v VF).toNat = 200 ∧ m.step.result = .ok () ∧
      (m.step.machine.state.v VF).toNat = 1 ∧ m.step.machine.state.pc = m.state.pc + 2 := by
  intro rom m
  have hm : m.fault? = none := rfl
  have hword : m.state.fetch = Instruction.wordXYN 0x8 VF VF 0x4 := by
    show (State.powerOn rom 0).fetch = _
    rw [State.fetch_powerOn]
    decide
  have hv : (m.state.v VF).toNat = 200 := by
    show ((Registers.zero.set VF 200).get VF).toNat = 200
    rw [Registers.get_set, if_pos rfl]
    rfl
  obtain ⟨-, -, -, -, hadd, -⟩ := register_arithmetic_exact hm VF VF
  obtain ⟨hanswer, hregisters, hothers⟩ := hadd hword
  rw [hv] at hregisters
  exact ⟨hm, hword, hv, hanswer, hregisters.flag 1 rfl, congrArg (·.state.pc) hothers⟩

end Machine

end Chip8
