import Chip8.Proofs.Targets

/-!
# Transfers between registers and memory

`FX55` and `FX65` move up to sixteen bytes and `FX33` writes three, one after the other, at
addresses that wrap around the end of memory. None of them moves as many bytes as there are cells,
so **no cell is met twice**, and what is left is the same as if all bytes had been moved at once.
That holds as well where the cells contain the instruction itself: it was fetched before.

`Machine.Stores` and `Machine.Loads` say of a step that it does this and nothing else. As storing
does not lose anything, loading from the same cells gives the registers back, however long that is
afterwards, if no instruction in between targets one of these cells.
-/

namespace Chip8

open Instruction (wordXNN)

/-! ### Digits and `I` -/

namespace State

/-- The decimal digits of a byte as numbers. -/
theorem getElem?_decimalDigits (b : UInt8) (k : Nat) :
    (decimalDigits b)[k]?.map UInt8.toNat =
      [b.toNat / 100, b.toNat / 10 % 10, b.toNat % 10][k]? := by
  rw [← List.getElem?_map]
  rfl

/-- Where `I` is after a transfer of the registers up to `VX`. -/
theorem toNat_index_passIndex (s : State) (d : Dialect) (x : Register) :
    (s.passIndex d x).index.toNat =
      if d.transferMovesIndex then (s.index.toNat + x.val + 1) % 65536 else s.index.toNat := by
  rw [passIndex]
  split
  · rw [UInt16.toNat_add, UInt16.toNat_ofNat']
    omega
  · rfl

end State

namespace Machine

variable {m : Machine} {x : Register} {n index : Nat}

/-! ### Storing -/

/-- A step that succeeds, writes at most to the `n` cells from `I` on, leaves `I` at `index`, and
changes nothing else but that it goes on to the next instruction. -/
structure Stores (m : Machine) (n index : Nat) : Prop where
  answer : m.step.result = .ok ()
  cells : ∀ a, (∀ k < n, (m.state.index.toNat + k) % memorySize ≠ a % memorySize) →
    m.step.machine.state.memory.byteAt a = m.state.memory.byteAt a
  index : m.step.machine.state.index.toNat = index
  others :
    m.step.machine =
      { m with state :=
        { m.state with
          memory := m.step.machine.state.memory
          index := m.step.machine.state.index
          pc := m.state.pc + 2 } }

theorem step_storeRegisters (hm : m.fault? = none) (hw : m.state.fetch = wordXNN 0xF x 0x55) :
    m.step =
      let memory := m.state.memory.writeBlock m.state.index (m.state.registers.upTo x)
      ⟨.ok (), { m with state := { m.state with
        memory := memory
        index := (m.state.passIndex m.config.dialect x).index
        pc := m.state.pc + 2 } }, #[m.fetchRecord]⟩ := by
  refine step_of_fetch (i := .storeRegisters x) hm hw ?_
  rw [State.perform, State.passIndex_eq, State.passIndex, State.passIndex]
  split <;> rfl

theorem step_storeDecimal (hm : m.fault? = none) (hw : m.state.fetch = wordXNN 0xF x 0x33) :
    m.step =
      let digits := State.decimalDigits (m.state.v x)
      ⟨.ok (), { m with state := { m.state with
        memory := m.state.memory.writeBlock m.state.index digits
        pc := m.state.pc + 2 } }, #[m.fetchRecord]⟩ :=
  step_of_fetch (i := .storeDecimal x) hm hw rfl

theorem stores_of_step {bs : List UInt8} {i : UInt16} {log : Array Record}
    (hstep : m.step = ⟨.ok (), { m with state := { m.state with
      memory := m.state.memory.writeBlock m.state.index bs
      index := i
      pc := m.state.pc + 2 } }, log⟩) : m.Stores bs.length i.toNat := by
  constructor
  · rw [hstep]
  · intro a ha
    rw [hstep]
    exact Memory.byteAt_writeBlock_of_ne ha
  · rw [hstep]
  · rw [hstep]

theorem stores_storeRegisters (hm : m.fault? = none) (hw : m.state.fetch = wordXNN 0xF x 0x55) :
    m.Stores (x.val + 1)
      (if m.config.dialect.transferMovesIndex then (m.state.index.toNat + x.val + 1) % 65536
        else m.state.index.toNat) := by
  have hstores := stores_of_step (step_storeRegisters hm hw)
  rwa [Registers.length_upTo, State.toNat_index_passIndex] at hstores

/-- A step that stores registers puts each of them into its own cell. -/
theorem byteAt_step_storeRegisters (hm : m.fault? = none)
    (hw : m.state.fetch = wordXNN 0xF x 0x55) {k : Register} (hk : k ≤ x) :
    m.step.machine.state.memory.byteAt (m.state.index.toNat + k.val) = m.state.v k := by
  have hlt : k.val < (m.state.registers.upTo x).length := by
    rw [Registers.length_upTo]
    exact Nat.lt_succ_of_le hk
  have hsize : (m.state.registers.upTo x).length ≤ memorySize := by
    rw [Registers.length_upTo]
    exact Nat.le_trans x.isLt (by decide)
  rw [step_storeRegisters hm hw]
  exact (Memory.byteAt_writeBlock hsize hlt).trans (Registers.getElem_upTo _ hlt)

theorem stores_storeDecimal (hm : m.fault? = none) (hw : m.state.fetch = wordXNN 0xF x 0x33) :
    m.Stores 3 m.state.index.toNat :=
  stores_of_step (step_storeDecimal hm hw)

/-- A step that stores digits puts each of them into its own cell. -/
theorem byteAt_step_storeDecimal (hm : m.fault? = none)
    (hw : m.state.fetch = wordXNN 0xF x 0x33) {k digit : Nat}
    (hk : [(m.state.v x).toNat / 100, (m.state.v x).toNat / 10 % 10,
      (m.state.v x).toNat % 10][k]? = some digit) :
    (m.step.machine.state.memory.byteAt (m.state.index.toNat + k)).toNat = digit := by
  rw [← State.getElem?_decimalDigits, Option.map_eq_some_iff] at hk
  obtain ⟨b, hb, rfl⟩ := hk
  obtain ⟨hlt, rfl⟩ := List.getElem?_eq_some_iff.1 hb
  have hsize : (State.decimalDigits (m.state.v x)).length ≤ memorySize :=
    show 3 ≤ memorySize by decide
  rw [step_storeDecimal hm hw]
  exact congrArg UInt8.toNat (Memory.byteAt_writeBlock hsize hlt)

/-! ### Loading -/

/-- A step that succeeds, reads the registers up to `VX` from the cells from `I` on, leaves `I` at
`index`, and changes nothing else but that it goes on to the next instruction. -/
structure Loads (m : Machine) (x : Register) (index : Nat) : Prop where
  answer : m.step.result = .ok ()
  loaded : ∀ k ≤ x, m.step.machine.state.v k =
    m.state.memory.byteAt (m.state.index.toNat + k.val)
  kept : ∀ k, x < k → m.step.machine.state.v k = m.state.v k
  index : m.step.machine.state.index.toNat = index
  others :
    m.step.machine =
      { m with state :=
        { m.state with
          registers := m.step.machine.state.registers
          index := m.step.machine.state.index
          pc := m.state.pc + 2 } }

theorem step_loadRegisters (hm : m.fault? = none) (hw : m.state.fetch = wordXNN 0xF x 0x65) :
    m.step =
      let bytes := m.state.memory.readBlock m.state.index (x.val + 1)
      ⟨.ok (), { m with state := { m.state with
        registers := m.state.registers.setFrom bytes
        index := (m.state.passIndex m.config.dialect x).index
        pc := m.state.pc + 2 } }, #[m.fetchRecord]⟩ := by
  refine step_of_fetch (i := .loadRegisters x) hm hw ?_
  rw [State.perform, State.passIndex_eq, State.passIndex, State.passIndex]
  split <;> rfl

theorem loads_loadRegisters (hm : m.fault? = none) (hw : m.state.fetch = wordXNN 0xF x 0x65) :
    m.Loads x
      (if m.config.dialect.transferMovesIndex then (m.state.index.toNat + x.val + 1) % 65536
        else m.state.index.toNat) := by
  have hstep := step_loadRegisters hm hw
  have hv (k : Register) : m.step.machine.state.v k =
      (m.state.memory.readBlock m.state.index (x.val + 1)).getD k.val (m.state.v k) := by
    rw [hstep]
    exact Registers.get_setFrom _ _ k
  constructor
  · rw [hstep]
  · intro k hk
    have hlt : k.val < (m.state.memory.readBlock m.state.index (x.val + 1)).length := by
      rw [Memory.length_readBlock]
      exact Nat.lt_succ_of_le hk
    rw [hv, List.getD_eq_getElem?_getD, List.getElem?_eq_getElem hlt, Option.getD_some,
      Memory.getElem_readBlock, Memory.read_add_ofNat]
  · intro k hk
    rw [hv, List.getD_eq_getElem?_getD, List.getElem?_eq_none, Option.getD_none]
    rw [Memory.length_readBlock]
    exact hk
  · rw [hstep, ← State.toNat_index_passIndex]
  · rw [hstep]

/-! ### Storing and loading again -/

/-- Registers that were stored come back when they are loaded from the same address, if the cells
still hold what was stored there. -/
theorem v_step_loadRegisters_of_stored {later : Machine} (hm : m.fault? = none)
    (hstore : m.state.fetch = wordXNN 0xF x 0x55) (hlater : later.fault? = none)
    (hload : later.state.fetch = wordXNN 0xF x 0x65) (hindex : later.state.index = m.state.index)
    {k : Register} (hk : k ≤ x)
    (hcell : later.state.memory.byteAt (m.state.index.toNat + k.val) =
      m.step.machine.state.memory.byteAt (m.state.index.toNat + k.val)) :
    later.step.machine.state.v k = m.state.v k := by
  rw [(loads_loadRegisters hlater hload).loaded k hk, hindex, hcell]
  exact byteAt_step_storeRegisters hm hstore hk

/-- **Transfers are exact, around the end of memory as well.** On a machine that is not halted, a
step that stores registers leaves each of them in its own cell from `I` on and writes no other cell.
A step that loads registers reads each of them from its own cell and changes no other register and
no memory. Both leave `I` where it was, or pass it behind the last cell, as the dialect has it. A
step that stores digits leaves the decimal digits of `VX` in the three cells from `I` on, and writes
no other cell. Nothing else changes but that the step goes on to the next instruction.

So registers that were stored come back when they are loaded from the same address, at any moment of
a run on from there, if no event in between targets their cells. -/
theorem memory_transfers_exact (m : Machine) (hm : m.fault? = none) (x : Register) :
    let s := m.state
    let d := m.config.dialect
    let t := m.step.machine.state
    let i := s.index.toNat
    let passed := if d.transferMovesIndex then (i + x.val + 1) % 65536 else i
    (s.fetch = wordXNN 0xF x 0x55 →
        m.Stores (x.val + 1) passed ∧
          ∀ k ≤ x, t.memory.byteAt (i + k.val) = s.v k) ∧
      (s.fetch = wordXNN 0xF x 0x65 → m.Loads x passed) ∧
      (s.fetch = wordXNN 0xF x 0x33 →
        m.Stores 3 i ∧
          ∃ d2 ≤ 9, ∃ d1 ≤ 9, ∃ d0 ≤ 9, 100 * d2 + 10 * d1 + d0 = (s.v x).toNat ∧
            (t.memory.byteAt i).toNat = d2 ∧ (t.memory.byteAt (i + 1)).toNat = d1 ∧
            (t.memory.byteAt (i + 2)).toNat = d0) ∧
      (s.fetch = wordXNN 0xF x 0x55 →
        ∀ calls : List Call, (∀ c ∈ calls, c.replacesState = false) → ∀ n,
          let later := ((m.step.machine.performAll calls).machine.steps n).machine
          later.fault? = none → later.state.fetch = wordXNN 0xF x 0x65 →
            later.state.index = s.index →
            (∀ k ≤ x, ∀ e ∈ m.step.machine.eventsUntil calls n,
              ¬ e.Targets d (.cell (i + k.val))) →
            ∀ k ≤ x, later.step.machine.state.v k = s.v k) := by
  intro s d t i passed
  refine ⟨fun hw ↦ ⟨stores_storeRegisters hm hw, fun k ↦ byteAt_step_storeRegisters hm hw⟩,
    fun hw ↦ loads_loadRegisters hm hw, fun hw ↦ ⟨stores_storeDecimal hm hw, ?_⟩, ?_⟩
  · have hlt : (m.state.v x).toNat < 256 := (m.state.v x).toNat_lt
    have hsum : 100 * ((m.state.v x).toNat / 100) + 10 * ((m.state.v x).toNat / 10 % 10) +
        (m.state.v x).toNat % 10 = (m.state.v x).toNat := by omega
    exact ⟨_, by omega, _, by omega, _, by omega, hsum,
      byteAt_step_storeDecimal (k := 0) hm hw rfl, byteAt_step_storeDecimal (k := 1) hm hw rfl,
      byteAt_step_storeDecimal (k := 2) hm hw rfl⟩
  · intro hw calls hc n later hlater hload hindex hkept k hk
    have hcell := value_until_of_not_targets (m := m.step.machine) (l := .cell (i + k.val)) hc n (by
      rw [config_step]
      exact hkept k hk)
    exact v_step_loadRegisters_of_stored hm hw hlater hload hindex hk (UInt8.toNat_inj.1 hcell)

/-- `V0` and `V1` are written to the last cell of memory and, around its end, over the font in the
first one. The next instruction overwrites `V0`, and loading from the same address gives it back. -/
theorem memory_transfers_exact_of_wrap :
    let rom : Rom := ⟨#[0xF1, 0x55, 0x60, 0x12, 0xF1, 0x65], by decide⟩
    let m : Machine :=
      { powerOn {} rom 0 with state :=
        { State.powerOn rom 0 with
          index := 0xFFFF
          registers := Registers.zero.set V0 7 } }
    let later := (m.step.machine.performAll [.step]).machine
    m.fault? = none ∧ m.state.fetch = wordXNN 0xF 1 0x55 ∧
      (∀ c ∈ [Call.step], c.replacesState = false) ∧ later.fault? = none ∧
      later.state.fetch = wordXNN 0xF 1 0x65 ∧ later.state.index = m.state.index ∧
      (∀ k ≤ (1 : Register), ∀ e ∈ m.step.machine.eventsUntil [.step] 0,
        ¬ e.Targets {} (.cell (0xFFFF + k.val))) ∧
      m.step.machine.state.memory.byteAt 0xFFF = 7 ∧ later.state.v V0 = 0x12 ∧
      later.step.machine.state.v V0 = 7 := by
  -- only the three words, `I` and `V0` count about the machine
  have key (m later : Machine) (hcalled : later = (m.step.machine.performAll [.step]).machine)
      (hm : m.fault? = none) (hd : m.config.dialect = {}) (hindex : m.state.index = 0xFFFF)
      (hpc : m.state.pc = 0x200) (hv : m.state.v V0 = 7)
      (hfirst : m.state.fetch = wordXNN 0xF 1 0x55)
      (hsecond : m.state.memory.readWord 0x202 = wordXNN 0x6 0 0x12)
      (hthird : m.state.memory.readWord 0x204 = wordXNN 0xF 1 0x65) :
      (∀ c ∈ [Call.step], c.replacesState = false) ∧ later.fault? = none ∧
        later.state.fetch = wordXNN 0xF 1 0x65 ∧ later.state.index = m.state.index ∧
        (∀ k ≤ (1 : Register), ∀ e ∈ m.step.machine.eventsUntil [.step] 0,
          ¬ e.Targets {} (.cell (0xFFFF + k.val))) ∧
        m.step.machine.state.memory.byteAt 0xFFF = 7 ∧ later.state.v V0 = 0x12 ∧
        later.step.machine.state.v V0 = 7 := by
    have hlater : later = m.step.machine.step.machine := hcalled
    obtain ⟨hstore, -, -, hback⟩ := memory_transfers_exact m hm 1
    obtain ⟨⟨hok, hcells, hkept, hothers⟩, hstored⟩ := hstore hfirst
    have hlast : m.step.machine.state.memory.byteAt 0xFFF = 7 := by
      rw [← hv, ← hstored V0 (by decide), hindex]
      exact Memory.byteAt_congr (by decide)
    have hword (a : UInt16) (ha : 1 ≤ a.toNat ∧ a.toNat < 0xFFE) :
        m.step.machine.state.memory.readWord a = m.state.memory.readWord a := by
      have hne (c : Nat) (hc : 1 ≤ c ∧ c < 0xFFF) (k : Nat) (hk : k < 2) :
          (m.state.index.toNat + k) % memorySize ≠ c % memorySize := by
        rw [hindex, memorySize]
        show (0xFFFF + k) % 4096 ≠ c % 4096
        omega
      rw [← UInt16.toNat_inj, Memory.toNat_readWord, Memory.toNat_readWord,
        hcells _ (hne _ (by omega)), hcells _ (hne _ (by omega))]
    have hpc' : m.step.machine.state.pc = 0x202 := by
      rw [hothers, hpc]
      rfl
    have hnext : m.step.machine.state.fetch = wordXNN 0x6 0 0x12 := by
      rw [State.fetch, hpc', hword _ (by decide), hsecond]
    have hstep := step_of_fetch (i := .loadImmediate 0 0x12) (fault?_of_step_ok hok).2 hnext rfl
    have hload : later.state.fetch = wordXNN 0xF 1 0x65 := by
      rw [hlater, hstep]
      show m.step.machine.state.memory.readWord (m.step.machine.state.pc + 2) = _
      rw [hpc', ← hthird]
      exact hword 0x204 (by decide)
    have hindex' : later.state.index = m.state.index := by
      rw [hlater, hstep]
      rw [hindex] at hkept
      exact (UInt16.toNat_inj.1 (hkept.trans (by rw [hd]; rfl))).trans hindex.symm
    -- the second instruction writes a register and no cell
    have huntouched : ∀ k ≤ (1 : Register), ∀ e ∈ m.step.machine.eventsUntil [.step] 0,
        ¬ e.Targets m.config.dialect (.cell (m.state.index.toNat + k.val)) := by
      intro k _ e he
      rw [eventsUntil_step_of_ok (by rw [hstep])] at he
      obtain rfl := List.mem_singleton.1 he
      exact State.not_targets_cell (i := .loadImmediate 0 0x12) hnext (by simp) (by simp)
    have hcalls : ∀ c ∈ [Call.step], c.replacesState = false := by decide
    have hrunning : later.fault? = none := by
      rw [hlater]
      exact (fault?_of_step_ok (by rw [hstep])).2
    have hrestored : later.step.machine.state.v V0 = m.state.v V0 := by
      rw [hlater] at hrunning hload hindex' ⊢
      exact hback hfirst [.step] hcalls 0 hrunning hload hindex' huntouched V0 (by decide)
    rw [hd, hindex] at huntouched
    refine ⟨hcalls, hrunning, hload, hindex', huntouched, hlast, ?_, hrestored.trans hv⟩
    rw [hlater, hstep]
    exact (Registers.get_set _ _ _ _).trans (if_pos rfl)
  intro rom m later
  have hfirst : m.state.fetch = wordXNN 0xF 1 0x55 := by
    show (State.powerOn rom 0).fetch = _
    rw [State.fetch_powerOn]
    decide
  refine ⟨rfl, hfirst, key m later rfl rfl rfl rfl rfl ?_ hfirst ?_ ?_⟩
  · exact (Registers.get_set _ _ _ _).trans (if_pos rfl)
  · exact (Memory.readWord_ofRom_program rom (by decide) (by decide)).trans (by decide)
  · exact (Memory.readWord_ofRom_program rom (by decide) (by decide)).trans (by decide)

end Machine

end Chip8
