import Chip8.Proofs.CheckedLoops
import Chip8.Proofs.SnapshotLayout

/-!
# Execution that checks every access

A step, a frame and the written form of a state, once more, with a check wherever an entry of an
array is used by its number and wherever a number is computed that is not meant to wrap: registers,
cells of memory, slots of the call stack, the rows of a sprite and the pixels it inverts, the number
of slots in use, the address of a picture, and how far `I` moves. Sums that wrap by design and
shifts by a fixed amount need no check, and the lookups of keys and of the newest return address are
part of what an instruction does, since a machine goes on or faults when they find nothing.

A check that fails gives `none`. **No check fails in any state**, whatever its program counter, `I`
and number of slots in use: `Machine.step?_eq`, `Machine.runFrame?_eq` and `Machine.snapshot?_eq`
say that the checked operation gives exactly what the operation gives.
-/

namespace Chip8

namespace State

variable {s : State}

/-! ### Registers -/

/-- The value of a register. -/
def v? (s : State) (x : Register) : Option UInt8 :=
  s.registers.values[x.val]?

/-- Give a register a value. -/
def setV? (s : State) (x : Register) (b : UInt8) : Option State := do
  let registers ← s.registers.set? x.val b
  return { s with registers := registers }

/-- Write the flag. -/
def setFlag? (s : State) (condition : Bool) : Option State :=
  s.setV? VF (if condition then 1 else 0)

@[simp] theorem v?_eq (s : State) (x : Register) : s.v? x = some (s.v x) :=
  Vector.getElem?_eq_getElem x.isLt

@[simp] theorem setV?_eq (s : State) (x : Register) (b : UInt8) :
    s.setV? x b = some (s.setV x b) := by
  rw [setV?, Registers.set?_val]
  rfl

@[simp] theorem setFlag?_eq (s : State) (condition : Bool) :
    s.setFlag? condition = some (s.setFlag condition) :=
  setV?_eq s VF _

/-! ### Instructions -/

/-- The word that is executed next. -/
def fetch? (s : State) : Option UInt16 := do
  let high ← s.memory.read? s.pc
  let low ← s.memory.read? (s.pc + 1)
  return high.toUInt16 <<< 8 ||| low.toUInt16

/-- Go on if the condition holds of the values of two registers, or else skip an instruction. -/
def skipBy? (s : State) (x y : Register) (condition : UInt8 → UInt8 → Bool) : Option State := do
  let a ← s.v? x
  let b ← s.v? y
  return s.skipWhen (condition a b)

/-- Combine `VX` and `VY`. -/
def combine? (s : State) (operation : Arithmetic) (x y : Register) : Option State := do
  let a ← s.v? x
  let b ← s.v? y
  let t ← s.setV? x (operation.result a b)
  match operation.flag? a b with
  | some flag => t.setFlag? flag
  | none => return t

/-- Shift a register into `VX`. -/
def shift? (s : State) (direction : Direction) (x source : Register) : Option State := do
  let b ← s.v? source
  let t ← s.setV? x (direction.result b)
  t.setFlag? (direction.flag b)

/-- Use one more slot of the call stack, if there is one, and go to an address. -/
def call? (s : State) (target : BitVec 12) : Option Effect :=
  match s.stack.slots[s.stack.depth.toNat]? with
  | none => return .faulted (.stackOverflow s.pc)
  | some _ => do
    let slots ← Checked.put? s.stack.slots s.stack.depth.toNat (s.pc + 2)
    let depth ← Checked.below? UInt8.size (s.stack.depth.toNat + 1)
    return .advanced { s with stack := ⟨slots, UInt8.ofNat depth⟩, pc := widen target }

/-- Read the rows of a sprite into a buffer of fifteen bytes, and draw them. -/
def drawSprite? (s : State) (x y : Register) (rows : Nat) : Option State := do
  let column ← s.v? x
  let row ← s.v? y
  let n ← Checked.below? 16 rows
  let bytes ← (List.range n).mapM fun k ↦ s.memory.read? (s.index + UInt16.ofNat k)
  let (screen, hit) ← Sprite.draw? ⟨column, row, bytes⟩ s.screen
  let t ← s.setFlag? hit
  return { t with screen := screen }

/-- Write bytes to memory from `I` on. -/
def store? (s : State) (n : Nat) (byte? : Nat → Option UInt8) : Option State := do
  let memory ← (List.range n).foldlM (fun (m : Memory) k ↦ do
    let b ← byte? k
    m.write? (s.index + UInt16.ofNat k) b) s.memory
  return { s with memory := memory }

/-- Read as many registers from memory as there are in a number, from `I` on. -/
def load? (s : State) (n : Nat) : Option State := do
  let registers ← (List.range n).foldlM (fun (r : Registers) k ↦ do
    let b ← s.memory.read? (s.index + UInt16.ofNat k)
    r.set? k b) s.registers
  return { s with registers := registers }

/-- Move `I` behind the bytes of `V0` to `VX`, in the dialects that do so. -/
def passIndex? (s : State) (d : Dialect) (x : Register) : Option State :=
  if d.transferMovesIndex then do
    let length ← Checked.below? UInt16.size (x.val + 1)
    return { s with index := s.index + UInt16.ofNat length }
  else return s

/-- The address of the picture of a digit. -/
def glyphAddress? (digit : UInt8) : Option UInt16 := do
  let address ← Checked.below? UInt16.size ((digit &&& 0x0F).toNat * 5)
  return UInt16.ofNat address

/-- Perform an instruction. -/
def perform? (d : Dialect) (s : State) : Instruction → Option Effect
  | .clearScreen => return .advanced { s with screen := Screen.blank }.advance
  | .ret =>
    match s.stack.pop? with
    | some (target, stack) => return .advanced { s with stack := stack, pc := target }
    | none => return .faulted (.stackUnderflow s.pc)
  | .jump target => return .advanced { s with pc := widen target }
  | .call target => s.call? target
  | .skipIfImmediate x value => do
    let a ← s.v? x
    return .advanced (s.skipWhen (a == value))
  | .skipUnlessImmediate x value => do
    let a ← s.v? x
    return .advanced (s.skipWhen (a != value))
  | .skipIfEqual x y => do
    let t ← s.skipBy? x y (· == ·)
    return .advanced t
  | .loadImmediate x value => do
    let t ← s.setV? x value
    return .advanced t.advance
  | .addImmediate x value => do
    let a ← s.v? x
    let t ← s.setV? x (a + value)
    return .advanced t.advance
  | .arithmetic operation x y => do
    let t ← s.combine? operation x y
    return .advanced t.advance
  | .shift direction x y => do
    let t ← s.shift? direction x (if d.shiftReadsY then y else x)
    return .advanced t.advance
  | .skipUnlessEqual x y => do
    let t ← s.skipBy? x y (· != ·)
    return .advanced t
  | .loadIndex target => return .advanced { s with index := widen target }.advance
  | .jumpOffset target => do
    let a ← s.v? V0
    return .advanced { s with pc := widen target + a.toUInt16 }
  | .random x mask => do
    let t ← s.setV? x (s.random.next &&& mask)
    return .advanced { t with random := s.random.advance }.advance
  | .draw x y rows => do
    let t ← s.drawSprite? x y rows
    return .advanced t.advance
  | .skipIfKey x => do
    let a ← s.v? x
    return .advanced (s.skipWhen (s.keypad.isDown a))
  | .skipUnlessKey x => do
    let a ← s.v? x
    return .advanced (s.skipWhen (!s.keypad.isDown a))
  | .readDelay x => do
    let t ← s.setV? x s.timers.delay
    return .advanced t.advance
  | .waitForKey x =>
    match s.keypad.firstDown? with
    | some key => do
      let t ← s.setV? x key
      return .answered t.advance
    | none => return .stalled
  | .setDelay x => do
    let a ← s.v? x
    return .advanced { s with timers := { s.timers with delay := a } }.advance
  | .setSound x => do
    let a ← s.v? x
    return .advanced { s with timers := { s.timers with sound := a } }.advance
  | .addIndex x => do
    let a ← s.v? x
    return .advanced { s with index := s.index + a.toUInt16 }.advance
  | .loadGlyph x => do
    let a ← s.v? x
    let address ← glyphAddress? a
    return .advanced { s with index := address }.advance
  | .storeDecimal x => do
    let a ← s.v? x
    let t ← s.store? 3 fun k ↦ (decimalDigits a)[k]?
    return .advanced t.advance
  | .storeRegisters x => do
    let t ← s.store? (x.val + 1) fun k ↦ s.registers.values[k]?
    let u ← t.passIndex? d x
    return .advanced u.advance
  | .loadRegisters x => do
    let t ← s.load? (x.val + 1)
    let u ← t.passIndex? d x
    return .advanced u.advance

/-- Execute the word at the program counter. -/
def execute? (d : Dialect) (s : State) : Option Effect := do
  let word ← s.fetch?
  match Instruction.decode word with
  | some instruction => s.perform? d instruction
  | none => return .faulted (.invalidOpcode word s.pc)

/-! ### No check fails -/

theorem fetch?_eq (s : State) : s.fetch? = some s.fetch := by
  simp only [fetch?, Memory.read?_eq]
  rfl

theorem combine?_eq (s : State) (operation : Arithmetic) (x y : Register) :
    s.combine? operation x y = some (s.combine operation x y) := by
  simp only [combine?, combine, v?_eq, setV?_eq, setFlag?_eq, Option.bind_eq_bind,
    Option.bind_some]
  cases operation.flag? (s.v x) (s.v y) <;> rfl

/-- A slot that there is has a number less than sixteen, so one more still fits into a byte. -/
theorem call?_eq (d : Dialect) (s : State) (target : BitVec 12) :
    s.call? target = some (s.perform d (.call target)) := by
  by_cases h : s.stack.depth.toNat < 16
  · have hdepth : s.stack.depth.toNat + 1 < 256 := by omega
    simp only [call?, perform, CallStack.push?, dif_pos h, Vector.getElem?_eq_getElem h,
      Checked.put?_of_lt h, Checked.below?_of_lt hdepth, Option.bind_eq_bind, Option.bind_some]
    rw [UInt8.ofNat_add, UInt8.ofNat_toNat]
    rfl
  · have hnone : s.stack.slots[s.stack.depth.toNat]? = none :=
      Vector.getElem?_eq_none (Nat.le_of_not_lt h)
    simp only [call?, perform, CallStack.push?, dif_neg h, hnone]
    rfl

theorem drawSprite?_eq (s : State) (x y : Register) {rows : Nat} (h : rows < 16) :
    s.drawSprite? x y rows = some (s.drawSprite x y rows) := by
  have hrows : (s.memory.readBlock s.index rows).length ≤ 32 := by
    rw [Memory.length_readBlock]
    omega
  have hdraw : Sprite.draw? ⟨s.v x, s.v y, s.memory.readBlock s.index rows⟩ s.screen = _ :=
    Sprite.draw?_eq hrows s.screen
  simp only [drawSprite?, v?_eq, Checked.below?_of_lt h, Memory.readBlock_loop, hdraw, setFlag?_eq,
    Option.bind_eq_bind, Option.bind_some]
  rfl

theorem store?_eq {bs : List UInt8} {n : Nat} {byte? : Nat → Option UInt8} (hn : bs.length = n)
    (h : ∀ k < n, byte? k = bs[k]?) :
    s.store? n byte? = some { s with memory := s.memory.writeBlock s.index bs } := by
  subst hn
  simp only [store?, Memory.writeBlock_loop h]
  rfl

theorem load?_eq {n : Nat} (h : n ≤ 16) :
    s.load? n = some { s with
      registers := s.registers.setFrom (s.memory.readBlock s.index n) } := by
  have hlen : (s.memory.readBlock s.index n).length = n := Memory.length_readBlock ..
  have hbytes : ∀ k < (s.memory.readBlock s.index n).length,
      s.memory.read? (s.index + UInt16.ofNat k) = (s.memory.readBlock s.index n)[k]? := by
    intro k hk
    rw [List.getElem?_eq_getElem hk, Memory.getElem_readBlock, Memory.read?_eq]
  have hloop := s.registers.setFrom_loop (by omega) hbytes
  rw [hlen] at hloop
  simp only [load?, hloop]
  rfl

theorem passIndex?_eq (s : State) (d : Dialect) (x : Register) :
    s.passIndex? d x = some (s.passIndex d x) := by
  have hx : x.val + 1 < 65536 := by omega
  rw [passIndex?, passIndex, Checked.below?_of_lt hx]
  split <;> rfl

theorem glyphAddress?_eq (digit : UInt8) :
    glyphAddress? digit = some (Memory.glyphAddress digit) := by
  have hdigit : (digit &&& 0x0F).toNat ≤ 15 := by
    rw [UInt8.toNat_and]
    exact Nat.and_le_right
  have hsize : (digit &&& 0x0F).toNat * 5 < 65536 := by omega
  have haddress : UInt16.ofNat ((digit &&& 0x0F).toNat * 5) = Memory.glyphAddress digit := by
    rw [UInt16.ofNat_mul, UInt16.ofNat_uInt8ToNat]
    rfl
  simp only [glyphAddress?, Checked.below?_of_lt hsize, ← haddress]
  rfl

/-- **No instruction fails a check.** -/
theorem perform?_eq (d : Dialect) (s : State) (i : Instruction) :
    s.perform? d i = some (s.perform d i) := by
  cases i with
  | ret =>
    simp only [perform?, perform]
    cases s.stack.pop? <;> rfl
  | call target => exact call?_eq d s target
  | arithmetic operation x y =>
    rw [perform?, combine?_eq]
    rfl
  | draw x y rows =>
    rw [perform?, drawSprite?_eq s x y rows.isLt]
    rfl
  | waitForKey x =>
    simp only [perform?, perform, setV?_eq]
    cases s.keypad.firstDown? <;> rfl
  | loadGlyph x =>
    simp only [perform?, v?_eq, Option.bind_eq_bind, Option.bind_some, glyphAddress?_eq]
    rfl
  | storeDecimal x =>
    have hstore : s.store? 3 (fun k ↦ (decimalDigits (s.v x))[k]?) = _ :=
      store?_eq rfl fun _ _ ↦ rfl
    simp only [perform?, v?_eq, Option.bind_eq_bind, Option.bind_some, hstore]
    rfl
  | storeRegisters x =>
    have hlen : (s.registers.upTo x).length = x.val + 1 := by
      rw [Registers.upTo, List.length_take, Vector.length_toList]
      omega
    have hbytes : ∀ k < x.val + 1, s.registers.values[k]? = (s.registers.upTo x)[k]? := by
      intro k hk
      rw [Registers.upTo, List.getElem?_take_of_lt hk, Vector.getElem?_toList]
    rw [perform?, store?_eq hlen hbytes]
    simp only [Option.bind_eq_bind, Option.bind_some, passIndex?_eq]
    rfl
  | loadRegisters x =>
    rw [perform?, load?_eq (by omega)]
    simp only [Option.bind_eq_bind, Option.bind_some, passIndex?_eq]
    rfl
  | _ => -- the others use single registers, or none
    simp only [perform?, shift?, skipBy?, v?_eq, setV?_eq, setFlag?_eq, Option.bind_eq_bind,
      Option.bind_some]
    rfl

theorem execute?_eq (d : Dialect) (s : State) : s.execute? d = some (s.execute d) := by
  simp only [execute?, execute, fetch?_eq, Option.bind_eq_bind, Option.bind_some, perform?_eq]
  cases Instruction.decode s.fetch <;> rfl

end State

namespace Machine

/-! ### Steps and frames -/

/-- The outcome of a step whose instruction has this effect. -/
def conclude (m : Machine) : Effect → Outcome (Except Fault Unit)
  | .advanced s => ⟨.ok (), { m with state := s }, #[m.fetchRecord]⟩
  | .answered s => ⟨.ok (), { m with state := s, waiting := false }, #[m.fetchRecord]⟩
  | .stalled => ⟨.ok (), { m with waiting := true }, #[m.fetchRecord] ++ m.waitingRecord⟩
  | .faulted f => ⟨.error f, { m with fault? := some f }, #[m.fetchRecord, .halting f]⟩

/-- Execute one instruction. A halted machine gives its fault again. -/
def step? (m : Machine) : Option (Outcome (Except Fault Unit)) :=
  match m.fault? with
  | some f => return ⟨.error f, m, #[]⟩
  | none => do
    let effect ← m.state.execute? m.config.dialect
    return m.conclude effect

/-- Execute up to `n` instructions, and stop at the first fault. -/
def steps? : (n completed : Nat) → (log : Array Record) → Machine → Option (Outcome Tally)
  | 0, completed, log, m => return ⟨⟨completed, none⟩, m, log⟩
  | n + 1, completed, log, m => do
    match ← m.step? with
    | ⟨.ok _, m', new⟩ => steps? n (completed + 1) (log ++ new) m'
    | ⟨.error f, m', new⟩ => return ⟨⟨completed, some f⟩, m', log ++ new⟩

/-- Execute the instructions of one frame, let the timers tick, and show the screen. -/
def runFrame? (m : Machine) : Option (Outcome (Except Fault Screen)) := do
  match ← steps? m.config.stepsPerFrame 0 #[] m with
  | ⟨⟨_, none⟩, m', log⟩ => return ⟨.ok m'.state.screen, { m' with state := m'.state.tick }, log⟩
  | ⟨⟨_, some f⟩, m', log⟩ => return ⟨.error f, m', log⟩

theorem step?_eq (m : Machine) : m.step? = some m.step := by
  rcases h : m.fault? with - | f
  · simp only [step?, h, State.execute?_eq, Option.bind_eq_bind, Option.bind_some]
    have hcase := m.stepCase
    generalize m.step = o at hcase ⊢
    cases hcase with
    | halted h' => rw [h] at h'; exact absurd h' (by simp)
    | advanced _ he | answered _ he | stalled _ he | faulted _ he =>
      show some (m.conclude m.effect) = _
      rw [he]
      rfl
  · simp only [step?, h, step_of_fault? h]
    rfl

/-- What the steps of a series do, the series does. -/
theorem steps?_eq (n completed : Nat) (log : Array Record) (m : Machine) :
    steps? n completed log m = some (series step n completed log m) := by
  induction n generalizing completed log m with
  | zero => rfl
  | succ n ih =>
    simp only [steps?, step?_eq, Option.bind_eq_bind, Option.bind_some, series, ih]
    rcases m.step with ⟨f | -, m', new⟩ <;> rfl

/-- **No step of a frame fails a check.** -/
theorem runFrame?_eq (m : Machine) : m.runFrame? = some m.runFrame := by
  simp only [runFrame?, runFrame, steps, steps?_eq, Option.bind_eq_bind, Option.bind_some]
  rcases series step m.config.stepsPerFrame 0 #[] m with ⟨⟨completed, - | f⟩, m', log⟩ <;> rfl

/-! ### The written form of the state -/

/-- The written form of the state, put together field by field. -/
def snapshot? (m : Machine) : Option (List UInt8) := do
  let s := m.state
  let pixels ← s.screen.packed?
  let keys ← s.keypad.packed?
  return [Snapshot.version] ++ s.memory.cells.toList ++ s.registers.values.toList ++
    (Codec.word.encode s.index).toList ++ (Codec.word.encode s.pc).toList ++
    ((Codec.word.replicate 16).encode s.stack.slots).toList ++
    [s.stack.depth, s.timers.delay, s.timers.sound] ++ pixels ++
    ((Codec.bigEndian 2).encode keys).toList ++ s.random.key.toList ++
    ((Codec.bigEndian 16).encode (Snapshot.count s.random.position 0)).toList

theorem snapshot?_eq (m : Machine) : m.snapshot? = some m.snapshot.toList := by
  simp only [snapshot?, Screen.packed?_eq, Keypad.packed?_eq, Option.bind_eq_bind,
    Option.bind_some]
  rw [snapshot, Snapshot.toList_encode, Snapshot.frontBytes]
  simp only [List.append_assoc]
  rfl

end Machine

end Chip8
