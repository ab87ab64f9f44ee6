import Chip8.Proofs.PowerOn
import Chip8.Proofs.RegisterArithmetic
import Chip8.Proofs.Sprites
import Chip8.Proofs.TimerValues

/-!
# What a step writes

A state is taken apart into `Location`s that hold one number each: a cell of memory, a pixel, a slot
of the call stack, a register. `State.Targets` is the table of **which instructions write where**,
by the word at hand. It says where exactly: a transfer writes the cells from `I` on and no more of
them than registers, and a draw the pixels that its sprite covers.

`value_perform_of_not_targets` goes through the instructions once and says that the table is
complete: what is not targeted keeps its value. Keys, the key of the random stream, the
configuration and the program are in no table, because no step writes them at all.

For runs nothing more has to be known about instructions. Events target what their instructions
target, a tick targets the timers, and `untouched_follows` carries a value past all events that do
not target it.
-/

namespace Chip8

open Instruction (wordNNN wordXNN wordXYN)

/-! ### Locations -/

/-- A part of a state that holds one number. The program counter is none of them, because every
instruction writes it. -/
inductive Location where
  /-- The cell of memory that an address selects, however large the address is. -/
  | cell (a : Nat)
  | pixel (p : Fin 64) (q : Fin 32)
  | slot (j : Fin 16)
  /-- The number of slots in use. -/
  | depth
  | timer (t : Timer)
  /-- The number of words drawn from the random stream. -/
  | position
  | index
  | register (z : Register)
  deriving DecidableEq, Repr

/-- The number that a state holds there. -/
def Location.value (l : Location) (s : State) : Nat :=
  match l with
  | cell a => (s.memory.byteAt a).toNat
  | pixel p q => (s.screen.lit p q).toNat
  | slot j => s.stack.slots[j].toNat
  | depth => s.stack.depth.toNat
  | timer t => (t.value s.timers).toNat
  | position => s.random.position.toNat
  | index => s.index.toNat
  | register z => (s.v z).toNat

/-- The program counter does not matter to any of them. -/
theorem Location.value_withPc (l : Location) (s : State) (a : UInt16) :
    l.value { s with pc := a } = l.value s := by
  cases l <;> rfl

theorem Location.value_withKeypad (l : Location) (s : State) (k : Keypad) :
    l.value { s with keypad := k } = l.value s := by
  cases l <;> rfl

/-! ### The table -/

namespace State

/-- **The table**: the instruction at hand writes to a location. -/
inductive Targets (d : Dialect) (s : State) : Location → Prop
  /-- `FX33` writes three cells. -/
  | storeDecimal {x : Register} {k a : Nat} (hw : s.fetch = wordXNN 0xF x 0x33) (hk : k < 3)
    (ha : (s.index.toNat + k) % memorySize = a % memorySize) : Targets d s (.cell a)
  /-- `FX55` writes a cell for each register up to `VX`. -/
  | storeRegisters {x : Register} {k a : Nat} (hw : s.fetch = wordXNN 0xF x 0x55) (hk : k ≤ x.val)
    (ha : (s.index.toNat + k) % memorySize = a % memorySize) : Targets d s (.cell a)
  | clearScreen {p : Fin 64} {q : Fin 32} (hw : s.fetch = 0x00E0) : Targets d s (.pixel p q)
  /-- `DXYN` writes the pixels of its sprite. -/
  | draw {x y : Register} {n : Nat} {p : Fin 64} {q : Fin 32} (hw : s.fetch = wordXYN 0xD x y n)
    (hn : n < 16) (hcovers : (s.sprite x y n).Covers p q) : Targets d s (.pixel p q)
  /-- `2NNN` writes the first slot that is not in use. -/
  | push {target : BitVec 12} {j : Fin 16} (hw : s.fetch = wordNNN 0x2 target)
    (hj : s.stack.depth.toNat = j.val) : Targets d s (.slot j)
  | call {target : BitVec 12} (hw : s.fetch = wordNNN 0x2 target) : Targets d s .depth
  /-- `00EE` writes no slot. -/
  | ret (hw : s.fetch = 0x00EE) : Targets d s .depth
  | setDelay {x : Register} (hw : s.fetch = wordXNN 0xF x 0x15) : Targets d s (.timer .delay)
  | setSound {x : Register} (hw : s.fetch = wordXNN 0xF x 0x18) : Targets d s (.timer .sound)
  | drawWord {x : Register} {nn : Nat} (hw : s.fetch = wordXNN 0xC x nn) (hnn : nn < 256) :
    Targets d s .position
  | loadIndex {target : BitVec 12} (hw : s.fetch = wordNNN 0xA target) : Targets d s .index
  | addIndex {x : Register} (hw : s.fetch = wordXNN 0xF x 0x1E) : Targets d s .index
  | loadGlyph {x : Register} (hw : s.fetch = wordXNN 0xF x 0x29) : Targets d s .index
  /-- `FX55` and `FX65` move `I` in some dialects. -/
  | passIndex {x : Register} (hd : d.transferMovesIndex = true)
    (hw : s.fetch = wordXNN 0xF x 0x55 ∨ s.fetch = wordXNN 0xF x 0x65) : Targets d s .index
  | loadImmediate {z : Register} {nn : Nat} (hw : s.fetch = wordXNN 0x6 z nn) (hnn : nn < 256) :
    Targets d s (.register z)
  | addImmediate {z : Register} {nn : Nat} (hw : s.fetch = wordXNN 0x7 z nn) (hnn : nn < 256) :
    Targets d s (.register z)
  | combine {z y : Register} {n : Nat} (hw : s.fetch = wordXYN 0x8 z y n) (hn : n < 16) :
    Targets d s (.register z)
  | random {z : Register} {nn : Nat} (hw : s.fetch = wordXNN 0xC z nn) (hnn : nn < 256) :
    Targets d s (.register z)
  | readDelay {z : Register} (hw : s.fetch = wordXNN 0xF z 0x07) : Targets d s (.register z)
  /-- `FX0A` writes only when a key is down. -/
  | waitForKey {z : Register} (hw : s.fetch = wordXNN 0xF z 0x0A) {key : UInt8}
    (hkey : s.keypad.isDown key = true) : Targets d s (.register z)
  | loadRegisters {x z : Register} (hw : s.fetch = wordXNN 0xF x 0x65) (hz : z ≤ x) :
    Targets d s (.register z)
  /-- `8XY4` to `8XY7` and `8XYE` write the flag. -/
  | flag {x y : Register} {n : Nat} (hw : s.fetch = wordXYN 0x8 x y n)
    (hn : n ∈ [0x4, 0x5, 0x6, 0x7, 0xE]) : Targets d s (.register VF)
  /-- `DXYN` writes the flag. -/
  | hit {x y : Register} {n : Nat} (hw : s.fetch = wordXYN 0xD x y n) (hn : n < 16) :
    Targets d s (.register VF)

/-! ### The table is complete -/

variable {d : Dialect} {s : State} {i : Instruction} {l : Location}

/-- Registers that neither a result nor a flag was written to are as they were. -/
theorem toNat_get_of_written {t : Registers} {x z : Register} {result : Nat} {flag? : Option Nat}
    (h : s.registers.Written t x result flag?) (hx : z ≠ x) (hflag : flag? = none ∨ z ≠ VF) :
    (t.get z).toNat = (s.v z).toNat :=
  congrArg UInt8.toNat (h.others z hx hflag)

/-- The operations without a flag are those that are not in the table. -/
theorem flag?_eq_none_or (operation : Arithmetic) (a b : UInt8) :
    operation.flag? a b = none ∨ operation.lastDigit ∈ [0x4, 0x5, 0x6, 0x7, 0xE] := by
  cases operation <;> simp [Arithmetic.flag?, Arithmetic.lastDigit]

/-- A result goes to the register that the table gives for it. -/
theorem toNat_v_setV_of_not_targets {x z : Register} (b : UInt8)
    (h : ¬ s.Targets d (.register z)) (hx : s.Targets d (.register x)) :
    ((s.setV x b).v z).toNat = (s.v z).toNat := by
  have hne : x ≠ z := by
    rintro rfl
    exact h hx
  rw [v, setV, Registers.get_set, if_neg hne]
  rfl

/-- `I` stays where it is in the dialects that do not move it. -/
theorem toNat_index_passIndex_of_not_targets {t : State} {x : Register}
    (h : ¬ s.Targets d .index)
    (hw : s.fetch = wordXNN 0xF x 0x55 ∨ s.fetch = wordXNN 0xF x 0x65) :
    (t.passIndex d x).index.toNat = t.index.toNat := by
  have hd : ¬ d.transferMovesIndex = true := fun hd ↦ h (.passIndex hd hw)
  rw [passIndex, if_neg hd]

/-- **An instruction leaves alone what it does not target**, and so does one that stalls or
faults. -/
theorem value_perform_of_not_targets (hw : s.fetch = i.word) (h : ¬ s.Targets d l) :
    l.value ((s.perform d i).stateAfter s) = l.value s := by
  cases i with
  | clearScreen =>
    cases l with
    | pixel p q => exact absurd (.clearScreen hw) h
    | _ => rfl
  | ret =>
    rw [perform]
    split
    next target stack hpop =>
      cases l with
      | slot j =>
        show stack.slots[j].toNat = _
        rw [(CallStack.slots_of_pop? hpop).2]
        rfl
      | depth => exact absurd (.ret hw) h
      | _ => rfl
    next => rfl
  | jump | jumpOffset => exact l.value_withPc s _
  | call target =>
    rw [perform]
    split
    next stack hpush =>
      cases l with
      | slot j =>
        have hj : s.stack.depth.toNat ≠ j.val := fun hj ↦ h (.push hw hj)
        show stack.slots[j.val].toNat = s.stack.slots[j.val].toNat
        rw [CallStack.slots_of_push? hpush, Vector.getElem_set_ne _ _ hj]
      | depth => exact absurd (.call hw) h
      | _ => rfl
    next => rfl
  | skipIfImmediate | skipUnlessImmediate | skipIfEqual | skipUnlessEqual | skipIfKey
    | skipUnlessKey =>
    rw [perform, skipWhen_eq]
    exact l.value_withPc s _
  | loadImmediate x b =>
    cases l with
    | register z =>
      exact toNat_v_setV_of_not_targets _ h (.loadImmediate hw b.toNat_lt)
    | _ => rfl
  | addImmediate x b =>
    cases l with
    | register z =>
      exact toNat_v_setV_of_not_targets _ h (.addImmediate hw b.toNat_lt)
    | _ => rfl
  | arithmetic operation x y =>
    rw [perform, combine_eq]
    cases l with
    | register z =>
      refine toNat_get_of_written (s.written_combine operation x y) ?_ ?_
      · rintro rfl
        exact h (.combine hw (by cases operation <;> decide))
      · rcases flag?_eq_none_or operation (s.v x) (s.v y) with hnone | hn
        · exact .inl (by rw [hnone]; rfl)
        · exact .inr fun hz ↦ h (hz ▸ .flag hw hn)
    | _ => rfl
  | shift direction x y =>
    cases l with
    | register z =>
      refine toNat_get_of_written (Registers.written_setFlag _ _) ?_ (.inr ?_)
      · rintro rfl
        exact h (.combine hw (by cases direction <;> decide))
      · rintro rfl
        exact h (.flag hw (by cases direction <;> simp [Direction.lastDigit]))
    | _ => rfl
  | loadIndex target =>
    cases l with
    | index => exact absurd (.loadIndex hw) h
    | _ => rfl
  | random x mask =>
    cases l with
    | register z =>
      exact toNat_v_setV_of_not_targets _ h (.random hw mask.toNat_lt)
    | position => exact absurd (.drawWord hw mask.toNat_lt) h
    | _ => rfl
  | draw x y rows =>
    rw [perform, drawSprite_eq]
    cases l with
    | pixel p q =>
      have hlen : (s.sprite x y rows).bytes.length ≤ 32 := by
        rw [length_bytes_sprite]
        omega
      refine congrArg Bool.toNat (Screen.lit_flip_mask_of_not_covers hlen _ fun hcovers ↦ ?_)
      exact h (.draw hw rows.isLt hcovers)
    | register z =>
      have hz : VF ≠ z := by
        rintro rfl
        exact h (.hit hw rows.isLt)
      show ((s.registers.setFlag _).get z).toNat = _
      rw [Registers.setFlag, Registers.get_set, if_neg hz]
      rfl
    | _ => rfl
  | readDelay x =>
    cases l with
    | register z =>
      exact toNat_v_setV_of_not_targets _ h (.readDelay hw)
    | _ => rfl
  | waitForKey x =>
    rw [perform]
    split
    next key hkey =>
      cases l with
      | register z =>
        exact toNat_v_setV_of_not_targets _ h (.waitForKey hw (Keypad.isDown_of_firstDown? hkey).1)
      | _ => rfl
    next => rfl
  | setDelay x =>
    cases l with
    | timer t =>
      cases t with
      | delay => exact absurd (.setDelay hw) h
      | sound => rfl
    | _ => rfl
  | setSound x =>
    cases l with
    | timer t =>
      cases t with
      | delay => rfl
      | sound => exact absurd (.setSound hw) h
    | _ => rfl
  | addIndex x =>
    cases l with
    | index => exact absurd (.addIndex hw) h
    | _ => rfl
  | loadGlyph x =>
    cases l with
    | index => exact absurd (.loadGlyph hw) h
    | _ => rfl
  | storeDecimal x =>
    cases l with
    | cell a =>
      refine congrArg UInt8.toNat (Memory.byteAt_writeBlock_of_ne fun k hk ha ↦ ?_)
      exact h (.storeDecimal hw hk ha)
    | _ => rfl
  | storeRegisters x =>
    simp only [perform, Effect.stateAfter, advance]
    rw [passIndex_eq]
    cases l with
    | cell a =>
      refine congrArg UInt8.toNat (Memory.byteAt_writeBlock_of_ne fun k hk ha ↦ ?_)
      rw [Registers.length_upTo] at hk
      exact h (.storeRegisters hw (Nat.le_of_lt_succ hk) ha)
    | index => exact toNat_index_passIndex_of_not_targets h (.inl hw)
    | _ => simp only [Location.value, v]
  | loadRegisters x =>
    simp only [perform, Effect.stateAfter, advance]
    rw [passIndex_eq]
    cases l with
    | register z =>
      have hz : ¬ z.val < x.val + 1 := fun hz ↦ h (.loadRegisters hw (Nat.le_of_lt_succ hz))
      show ((s.registers.setFrom _).get z).toNat = _
      rw [Registers.get_setFrom, List.getD_eq_getElem?_getD, List.getElem?_eq_none]
      · rfl
      · rw [Memory.length_readBlock]
        exact Nat.le_of_not_lt hz
    | index => exact toNat_index_passIndex_of_not_targets h (.inr hw)
    | _ => simp only [Location.value]

/-- The key of the random stream is written by no instruction. -/
theorem key_perform (d : Dialect) (s : State) (i : Instruction) :
    ((s.perform d i).stateAfter s).random.key = s.random.key := by
  cases i with
  | random x mask => rfl
  | _ => rw [(s.spares_perform d _).random (by simp)]

/-- The locations are everything in a state, but for the program counter and what no instruction
writes. -/
theorem ext_of_values {s t : State} (h : ∀ l : Location, l.value s = l.value t) (hpc : s.pc = t.pc)
    (hkeypad : s.keypad = t.keypad) (hkey : s.random.key = t.random.key) : s = t := by
  obtain ⟨⟨cells⟩, registers, index, pc, ⟨slots, depth⟩, ⟨delay, sound⟩, screen, keypad,
    ⟨key, position⟩⟩ := s
  obtain ⟨⟨cells'⟩, registers', index', pc', ⟨slots', depth'⟩, ⟨delay', sound'⟩, screen', keypad',
    ⟨key', position'⟩⟩ := t
  obtain rfl : pc = pc' := hpc
  obtain rfl : keypad = keypad' := hkeypad
  obtain rfl : key = key' := hkey
  obtain rfl : index = index' := UInt16.toNat_inj.1 (h .index)
  obtain rfl : depth = depth' := UInt8.toNat_inj.1 (h .depth)
  obtain rfl : delay = delay' := UInt8.toNat_inj.1 (h (.timer .delay))
  obtain rfl : sound = sound' := UInt8.toNat_inj.1 (h (.timer .sound))
  obtain rfl : position = position' := BitVec.eq_of_toNat_eq (h .position)
  obtain rfl : registers = registers' := Registers.ext fun z ↦ UInt8.toNat_inj.1 (h (.register z))
  obtain rfl : screen = screen' := by
    refine Screen.ext fun p q ↦ Bool.eq_iff_iff.2 ?_
    rw [← Bool.toNat_eq_one, ← Bool.toNat_eq_one]
    exact iff_of_eq (congrArg (· = 1) (h (.pixel p q)))
  obtain rfl : slots = slots' := Vector.ext fun j hj ↦ UInt16.toNat_inj.1 (h (.slot ⟨j, hj⟩))
  have hcells : cells = cells' := by
    refine Vector.ext fun a ha ↦ ?_
    have hcell := UInt8.toNat_inj.1 (h (.cell a))
    simpa only [Memory.byteAt, Nat.mod_eq_of_lt ha, Fin.getElem_fin] using hcell
  rw [hcells]

/-! ### The cells that are targeted -/

/-- The cells that digits are written to. -/
theorem targets_cell_storeDecimal_iff {x : Register} {a : Nat}
    (hw : s.fetch = wordXNN 0xF x 0x33) :
    s.Targets d (.cell a) ↔ ∃ k < 3, (s.index.toNat + k) % memorySize = a % memorySize := by
  refine ⟨fun h ↦ ?_, fun ⟨k, hk, ha⟩ ↦ .storeDecimal hw hk ha⟩
  cases h with
  | storeDecimal _ hk ha => exact ⟨_, hk, ha⟩
  | @storeRegisters y _ _ hw' _ _ =>
    have hsame := @Instruction.word_inj (.storeDecimal x) (.storeRegisters y) (hw.symm.trans hw')
    exact absurd hsame (by simp)

/-- The cells that registers are written to. -/
theorem targets_cell_storeRegisters_iff {x : Register} {a : Nat}
    (hw : s.fetch = wordXNN 0xF x 0x55) :
    s.Targets d (.cell a) ↔ ∃ k ≤ x.val, (s.index.toNat + k) % memorySize = a % memorySize := by
  refine ⟨fun h ↦ ?_, fun ⟨k, hk, ha⟩ ↦ .storeRegisters hw hk ha⟩
  cases h with
  | @storeRegisters y _ _ hw' hk ha =>
    have hsame := @Instruction.word_inj (.storeRegisters x) (.storeRegisters y) (hw.symm.trans hw')
    obtain rfl := Instruction.storeRegisters.inj hsame
    exact ⟨_, hk, ha⟩
  | @storeDecimal y _ _ hw' _ _ =>
    have hsame := @Instruction.word_inj (.storeRegisters x) (.storeDecimal y) (hw.symm.trans hw')
    exact absurd hsame (by simp)

/-- No other instruction targets a cell. -/
theorem not_targets_cell {a : Nat} (hw : s.fetch = i.word) (hdecimal : ∀ x, i ≠ .storeDecimal x)
    (hregisters : ∀ x, i ≠ .storeRegisters x) : ¬ s.Targets d (.cell a) := by
  intro h
  cases h with
  | @storeDecimal x _ _ hw' _ _ =>
    exact hdecimal x (@Instruction.word_inj i (.storeDecimal x) (hw.symm.trans hw'))
  | @storeRegisters x _ _ hw' _ _ =>
    exact hregisters x (@Instruction.word_inj i (.storeRegisters x) (hw.symm.trans hw'))

/-! ### Counting cells -/

/-- The addresses of the cells of memory in which two states differ. -/
def changedCells (s t : State) : List Nat :=
  (List.range memorySize).filter fun a ↦ s.memory.byteAt a != t.memory.byteAt a

/-- If all of them are among some successive addresses, there are not more of them. -/
theorem length_changedCells_le {s t : State} (start : Nat) {n : Nat}
    (h : ∀ a, s.memory.byteAt a ≠ t.memory.byteAt a →
      ∃ k < n, (start + k) % memorySize = a % memorySize) :
    (s.changedCells t).length ≤ n := by
  have hsubset : s.changedCells t ⊆ (List.range n).map fun k ↦ (start + k) % memorySize := by
    intro a ha
    rw [changedCells, List.mem_filter, List.mem_range, bne_iff_ne] at ha
    obtain ⟨k, hk, hcell⟩ := h a ha.2
    exact List.mem_map.2 ⟨k, List.mem_range.2 hk, hcell.trans (Nat.mod_eq_of_lt ha.1)⟩
  have hnodup : (s.changedCells t).Nodup := List.Pairwise.filter _ List.nodup_range
  simpa using hnodup.length_le_of_subset hsubset

end State

namespace Machine

variable {m : Machine}

/-! ### Steps -/

/-- What holds before a step and after every instruction at hand holds after the step. -/
theorem state_step_induction {P : State → Prop} (hstart : P m.state)
    (hperform : ∀ i : Instruction, m.state.fetch = i.word →
      P ((m.state.perform m.config.dialect i).stateAfter m.state)) :
    P m.step.machine.state := by
  rcases hm : m.fault? with - | f
  · rw [state_step hm]
    rcases hi : Instruction.decode m.state.fetch with - | i
    · rw [effect_of_decode_none hi]
      exact hstart
    · rw [effect_of_decode hi]
      exact hperform i (Instruction.word_of_decode hi).symm
  · rw [step_of_fault? hm]
    exact hstart

/-- **A step changes only what its instruction targets.** -/
theorem value_step_of_not_targets {l : Location} (h : ¬ m.state.Targets m.config.dialect l) :
    l.value m.step.machine.state = l.value m.state :=
  state_step_induction (P := fun t ↦ l.value t = l.value m.state) rfl fun _ hw ↦
    State.value_perform_of_not_targets hw h

theorem targets_of_value_ne {l : Location}
    (h : l.value m.step.machine.state ≠ l.value m.state) : m.state.Targets m.config.dialect l := by
  by_contra hnot
  exact h (value_step_of_not_targets hnot)

/-- Where a step changes memory, its instruction targets a cell. -/
theorem targets_of_byteAt_ne {a : Nat}
    (h : m.state.memory.byteAt a ≠ m.step.machine.state.memory.byteAt a) :
    m.state.Targets m.config.dialect (.cell a) :=
  targets_of_value_ne fun hvalue ↦ h (UInt8.toNat_inj.1 hvalue).symm

/-- A step that writes digits changes three cells at most. -/
theorem length_changedCells_storeDecimal {x : Register}
    (hw : m.state.fetch = wordXNN 0xF x 0x33) :
    (m.state.changedCells m.step.machine.state).length ≤ 3 :=
  State.length_changedCells_le m.state.index.toNat fun _ ha ↦
    (State.targets_cell_storeDecimal_iff hw).1 (targets_of_byteAt_ne ha)

/-- A step that writes registers to memory changes at most one cell for each of them. -/
theorem length_changedCells_storeRegisters {x : Register}
    (hw : m.state.fetch = wordXNN 0xF x 0x55) :
    (m.state.changedCells m.step.machine.state).length ≤ x.val + 1 := by
  refine State.length_changedCells_le m.state.index.toNat fun a ha ↦ ?_
  obtain ⟨k, hk, hcell⟩ := (State.targets_cell_storeRegisters_iff hw).1 (targets_of_byteAt_ne ha)
  exact ⟨k, Nat.lt_succ_of_le hk, hcell⟩

end Machine

/-! ### Runs -/

/-- An event writes to a location: an instruction by the table, and a tick to the timers. -/
def Event.Targets (d : Dialect) (l : Location) : Event → Prop
  | executed s => s.Targets d l
  | ticked => ∃ t, l = .timer t

namespace Machine

variable {m : Machine}

/-- **A location keeps its value past all events that do not target it.** -/
theorem untouched_follows (d : Dialect) (l : Location) (start : Nat) :
    Follows fun es m ↦
      m.config.dialect = d ∧ ((∀ e ∈ es, ¬ e.Targets d l) → l.value m.state = start) where
  step {es m} h _ := by
    obtain ⟨rfl, hvalue⟩ := h
    refine ⟨by rw [config_step], fun hes ↦ ?_⟩
    rw [value_step_of_not_targets (hes (.executed m.state) (by simp))]
    exact hvalue fun e he ↦ hes e (List.mem_append_left _ he)
  halt h _ := h
  tick {es m} h _ := by
    refine ⟨h.1, fun hes ↦ ?_⟩
    have hl : ∀ t, l ≠ .timer t := not_exists.1 (hes .ticked (by simp))
    rw [← h.2 fun e he ↦ hes e (List.mem_append_left _ he)]
    cases l with
    | timer t => exact absurd rfl (hl t)
    | _ => rfl
  keys {es m} h k := ⟨h.1, fun hes ↦ (l.value_withKeypad m.state k).trans (h.2 hes)⟩

/-- A location that no event of a run targets has the same value afterwards. -/
theorem value_until_of_not_targets {calls : List Call} (hc : ∀ c ∈ calls, c.replacesState = false)
    (k : Nat) {l : Location} (h : ∀ e ∈ m.eventsUntil calls k, ¬ e.Targets m.config.dialect l) :
    l.value ((m.performAll calls).machine.steps k).machine.state = l.value m.state := by
  have hstart : m.config.dialect = m.config.dialect ∧
      ((∀ e ∈ [], ¬ Event.Targets m.config.dialect l e) → l.value m.state = l.value m.state) :=
    ⟨rfl, fun _ ↦ rfl⟩
  exact ((untouched_follows _ l _).until hstart hc k).2 h

/-- **A step writes what the table says and nothing else.** Whatever a step of any machine changes
is targeted by the instruction at hand. An instruction that writes digits changes at most three
cells of memory, and one that writes registers at most as many cells as registers. No step changes
the keys, the key of the random stream, the configuration or the program that is kept, and if it
changes none of the locations it changes nothing in the state but the program counter.

Over any calls that run the machine or replace its keys, and any number of steps after them, which
may lie within a frame, a location that no event targets keeps its value. -/
theorem writes_confined (m : Machine) {calls : List Call}
    (hc : ∀ c ∈ calls, c.replacesState = false) (k : Nat) :
    let s := m.state
    let d := m.config.dialect
    let t := m.step.machine.state
    let now := ((m.performAll calls).machine.steps k).machine.state
    (∀ l : Location, l.value t ≠ l.value s → s.Targets d l) ∧
      (∀ x, s.fetch = wordXNN 0xF x 0x33 → (s.changedCells t).length ≤ 3) ∧
      (∀ x, s.fetch = wordXNN 0xF x 0x55 → (s.changedCells t).length ≤ x.val + 1) ∧
      t.keypad = s.keypad ∧ t.random.key = s.random.key ∧
      m.step.machine.config = m.config ∧ m.step.machine.rom = m.rom ∧
      ((∀ l : Location, l.value t = l.value s) → t = { s with pc := t.pc }) ∧
      ∀ l : Location, (∀ e ∈ m.eventsUntil calls k, ¬ e.Targets d l) → l.value now = l.value s := by
  intro s d t now
  have hkeypad : t.keypad = s.keypad :=
    state_step_induction (P := fun t ↦ t.keypad = s.keypad) rfl fun i _ ↦
      (s.spares_perform d i).keypad
  have hkey : t.random.key = s.random.key :=
    state_step_induction (P := fun t ↦ t.random.key = s.random.key) rfl fun i _ ↦
      s.key_perform d i
  refine ⟨fun l ↦ targets_of_value_ne, fun x ↦ length_changedCells_storeDecimal,
    fun x ↦ length_changedCells_storeRegisters, hkeypad, hkey, m.config_step, m.rom_step,
    fun hsame ↦ ?_, fun l hl ↦ value_until_of_not_targets hc k hl⟩
  refine State.ext_of_values (fun l ↦ ?_) rfl hkeypad hkey
  rw [hsame]
  exact (l.value_withPc s t.pc).symm

/-- Two registers are written to the last cell of memory and, around its end, to the first one. The
second cell, which is in the font too, is not among them, and keeps its byte. -/
theorem writes_confined_of_store :
    let rom : Rom := ⟨#[0xF1, 0x55], by decide⟩
    let m : Machine :=
      { powerOn {} rom 0 with state := { State.powerOn rom 0 with index := 0xFFFF } }
    let now := (m.performAll [.step]).machine.state
    (∀ c ∈ [Call.step], c.replacesState = false) ∧ m.state.fetch = wordXNN 0xF 1 0x55 ∧
      m.state.Targets {} (.cell 0) ∧ (∀ e ∈ m.eventsUntil [.step] 0, ¬ e.Targets {} (.cell 1)) ∧
      (m.state.changedCells m.step.machine.state).length ≤ 2 ∧
      now.memory.byteAt 1 = m.state.memory.byteAt 1 := by
  -- only the word and `I` count about the machine
  have key (m : Machine) (hm : m.fault? = none) (hd : m.config.dialect = {})
      (hindex : m.state.index.toNat = 0xFFFF) (hword : m.state.fetch = wordXNN 0xF 1 0x55) :
      (∀ c ∈ [Call.step], c.replacesState = false) ∧ m.state.fetch = wordXNN 0xF 1 0x55 ∧
        m.state.Targets {} (.cell 0) ∧ (∀ e ∈ m.eventsUntil [.step] 0, ¬ e.Targets {} (.cell 1)) ∧
        (m.state.changedCells m.step.machine.state).length ≤ 2 ∧
        (m.performAll [.step]).machine.state.memory.byteAt 1 = m.state.memory.byteAt 1 := by
    have hfirst : m.state.Targets {} (.cell 0) := by
      refine .storeRegisters (k := 1) hword (by decide) ?_
      rw [hindex]
      decide
    have hsecond : ¬ m.state.Targets {} (.cell 1) := by
      rw [State.targets_cell_storeRegisters_iff hword, hindex]
      rintro ⟨k, hk, hcell⟩
      have hk : k ≤ 1 := hk
      rw [memorySize] at hcell
      omega
    have hstep : m.step.result = .ok () := by
      rw [step_of_fetch (i := .storeRegisters 1) hm hword rfl]
    have huntouched : ∀ e ∈ m.eventsUntil [.step] 0, ¬ e.Targets {} (.cell 1) := by
      intro e he
      rw [eventsUntil_step_of_ok hstep] at he
      obtain rfl := List.mem_singleton.1 he
      exact hsecond
    have hcalls : ∀ c ∈ [Call.step], c.replacesState = false := by decide
    obtain ⟨-, -, hcount, -, -, -, -, -, hkept⟩ := writes_confined m hcalls 0
    rw [hd] at hkept
    exact ⟨hcalls, hword, hfirst, huntouched, hcount 1 hword,
      UInt8.toNat_inj.1 (hkept (.cell 1) huntouched)⟩
  intro rom m now
  refine key m rfl rfl rfl ?_
  show (State.powerOn rom 0).fetch = _
  rw [State.fetch_powerOn]
  decide

end Machine

end Chip8
