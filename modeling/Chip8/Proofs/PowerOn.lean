import Chip8.Proofs.Halting

/-!
# Switching on

Loading a program and resetting switch the machine off and on again, and **nothing of what was done
before survives that** but the configuration and the program that is kept for a reset. `PoweredOn`
lists what a machine is like then, field by field and cell by cell, and `PoweredOn.unique` says that
the list leaves nothing open.

The program that is kept is tied to the history by one equation, `bytes_performAll`: it is the
program of the last load that was accepted. Steps, frames, keys, snapshots, refused loads and resets
do not count. So a reset does what loading that program once more would do, and
`powerOn_history_free` says both of any list of calls on a new machine.

Machines without a seed start their random stream anywhere. For them the same is said up to the key
of the stream, which is 32 bytes of what is saved.
-/

namespace Chip8

/-! ### The program that is kept -/

/-- The program that a call puts in place, which is what loading does if it fits. -/
def Call.program? : Call → Option (Array UInt8)
  | .load bytes _ => if bytes.size ≤ maxRomSize then some bytes else none
  | _ => none

/-- The program of the last load that was accepted. -/
def lastProgram? (calls : List Call) : Option (Array UInt8) :=
  (calls.filterMap Call.program?).getLast?

theorem getD_lastProgram?_cons (c : Call) (calls : List Call) (bytes : Array UInt8) :
    (lastProgram? (c :: calls)).getD bytes =
      (lastProgram? calls).getD (c.program?.getD bytes) := by
  rw [lastProgram?, lastProgram?, List.filterMap_cons]
  rcases c.program? with - | first
  · rfl
  · rw [List.getLast?_cons]
    rfl

/-! ### Memory with a program -/

namespace Memory

theorem getElem?_cells_ofRom (rom : Rom) {i : Nat} (hi : i < 4096) :
    (ofRom rom).cells[i]? = some
      (if h : i < 16 * glyphSize then font[i]
      else if programStart ≤ i then rom.bytes.getD (i - programStart) 0 else 0) := by
  have hlt : i < memorySize := hi
  rw [Vector.getElem?_eq_getElem hlt, ofRom, Vector.getElem_ofFn]

theorem getElem?_cells_ofRom_program (rom : Rom) {i : Nat} (hi : 0x200 + i < 4096) :
    (ofRom rom).cells[0x200 + i]? = some (rom.bytes.getD i 0) := by
  have hge : ¬ 0x200 + i < 16 * glyphSize :=
    Nat.not_lt.2 (Nat.le_trans (by decide) (Nat.le_add_right _ i))
  have hle : programStart ≤ 0x200 + i := Nat.le_add_right _ i
  have hsub : 0x200 + i - programStart = i := Nat.add_sub_cancel_left _ i
  rw [getElem?_cells_ofRom rom hi, dif_neg hge, if_pos hle, hsub]

end Memory

namespace Machine

/-! ### The program of a machine -/

@[simp] theorem rom_step (m : Machine) : m.step.machine.rom = m.rom := by
  have hcase := m.stepCase
  generalize m.step = o at hcase ⊢
  cases hcase <;> rfl

@[simp] theorem rom_runFrame (m : Machine) : m.runFrame.machine.rom = m.rom :=
  runFrame_induction (P := fun m' ↦ m'.rom = m.rom) (fun m' h ↦ by rw [rom_step, h])
    (fun _ _ h ↦ h) rfl

/-- A call keeps the program, unless it puts another one in place. -/
theorem bytes_perform (m : Machine) (c : Call) :
    (m.perform c).machine.rom.bytes = c.program?.getD m.rom.bytes := by
  cases c with
  | load bytes entropy =>
    show (m.load bytes entropy).machine.rom.bytes = (Call.program? _).getD _
    rw [Call.program?]
    split
    next hle => rw [load_of_size_le hle]; rfl
    next hlt => rw [load_of_lt_size (Nat.lt_of_not_le hlt)]; rfl
  | reset entropy => rfl
  | step => exact congrArg Rom.bytes m.rom_step
  | runFrame => exact congrArg Rom.bytes m.rom_runFrame
  | setKeys keys =>
    obtain ⟨k, hk⟩ := m.machine_setKeys keys
    show (m.setKeys keys).machine.rom.bytes = m.rom.bytes
    rw [hk, withKeypad]
  | restore bytes =>
    show (m.restore bytes).machine.rom.bytes = m.rom.bytes
    rw [restore]
    split <;> rfl
  | screen | snapshot => rfl

/-- **The program that is kept is that of the last load that was accepted.** -/
theorem bytes_performAll (m : Machine) (calls : List Call) :
    (m.performAll calls).machine.rom.bytes = (lastProgram? calls).getD m.rom.bytes := by
  induction calls generalizing m with
  | nil => rfl
  | cons c calls ih => rw [getD_lastProgram?_cons, ← bytes_perform, ← ih]; rfl

theorem config_performAll (m : Machine) (calls : List Call) :
    (m.performAll calls).machine.config = m.config := by
  induction calls generalizing m with
  | nil => rfl
  | cons c calls ih => exact (ih _).trans (m.config_perform c)

/-! ### What a machine is like when it was switched on -/

/-- The machine was just switched on, with a program and with the random stream of a seed. -/
structure PoweredOn (config : Config) (bytes : Array UInt8) (seed : UInt64) (m : Machine) :
    Prop where
  config_eq : m.config = config
  bytes_eq : m.rom.bytes = bytes
  font : ∀ i < 80, m.state.memory.cells[i]? = Memory.font[i]?
  zeros_below : ∀ i, 80 ≤ i → i < 0x200 → m.state.memory.cells[i]? = some 0
  program : ∀ i < bytes.size, m.state.memory.cells[0x200 + i]? = bytes[i]?
  zeros_above : ∀ i, 0x200 + bytes.size ≤ i → i < 4096 → m.state.memory.cells[i]? = some 0
  registers : ∀ x, m.state.v x = 0
  index : m.state.index = 0
  pc : m.state.pc = 0x200
  stack : m.state.stack = ⟨Vector.replicate 16 0, 0⟩
  timers : m.state.timers = ⟨0, 0⟩
  screen : ∀ x y, m.screen.lit x y = false
  keypad : m.state.keypad = ⟨0⟩
  random : m.state.random = ⟨RandomStream.keyOfSeed seed, 0⟩
  fault? : m.fault? = none
  waiting : m.waiting = false

theorem poweredOn_powerOn (config : Config) (rom : Rom) (entropy : UInt64) :
    PoweredOn config rom.bytes (config.seed.getD entropy) (powerOn config rom entropy) where
  config_eq := rfl
  bytes_eq := rfl
  font i hi := by
    have hlt : i < 16 * Memory.glyphSize := hi
    rw [powerOn, State.powerOn, Memory.getElem?_cells_ofRom rom (Nat.lt_trans hi (by decide)),
      dif_pos hlt, Vector.getElem?_eq_getElem hlt]
  zeros_below i hlow hhigh := by
    have hge : ¬ i < 16 * Memory.glyphSize := Nat.not_lt.2 hlow
    have hlt : ¬ programStart ≤ i := Nat.not_le.2 hhigh
    rw [powerOn, State.powerOn, Memory.getElem?_cells_ofRom rom (Nat.lt_trans hhigh (by decide)),
      dif_neg hge, if_neg hlt]
  program i hi := by
    have hsize : i < 3584 := Nat.lt_of_lt_of_le hi rom.size_le
    rw [powerOn, State.powerOn, Memory.getElem?_cells_ofRom_program rom (by omega),
      Array.getD_eq_getD_getElem?, Array.getElem?_eq_getElem hi]
    rfl
  zeros_above i hlow hhigh := by
    obtain ⟨k, rfl⟩ : ∃ k, i = 0x200 + k := ⟨i - 0x200, by omega⟩
    rw [powerOn, State.powerOn, Memory.getElem?_cells_ofRom_program rom (by omega),
      Array.getD_eq_getD_getElem?, Array.getElem?_eq_none (by omega)]
    rfl
  registers x := Registers.get_zero x
  index := rfl
  pc := rfl
  stack := rfl
  timers := rfl
  screen x y := Screen.lit_blank x y
  keypad := rfl
  random :=
    congrArg₂ RandomStream.mk (chaCha8.key_ofSeed (config.seed.getD entropy))
      (chaCha8.position_ofSeed (config.seed.getD entropy))
  fault? := rfl
  waiting := rfl

/-- The machine with another key of its random stream. -/
def withRandomKey (m : Machine) (key : ChaCha.Key) : Machine :=
  { m with state := { m.state with random := { m.state.random with key := key } } }

@[simp] theorem random_withRandomKey (m : Machine) (key : ChaCha.Key) :
    (m.withRandomKey key).state.random = ⟨key, m.state.random.position⟩ := rfl

theorem result_load_eq_ok_iff {m : Machine} {bytes : Array UInt8} {entropy : UInt64} :
    (m.load bytes entropy).result = .ok () ↔ bytes.size ≤ maxRomSize := by
  rcases Nat.lt_or_ge maxRomSize bytes.size with hlt | hle
  · rw [load_of_lt_size hlt]
    exact iff_of_false (by simp) (Nat.not_le.2 hlt)
  · rw [load_of_size_le hle]
    exact iff_of_true rfl hle

/-- A machine that accepts a program was just switched on with it. -/
theorem poweredOn_load (m : Machine) {bytes : Array UInt8} (h : bytes.size ≤ maxRomSize)
    (entropy : UInt64) :
    PoweredOn m.config bytes (m.config.seed.getD entropy) (m.load bytes entropy).machine := by
  rw [load_of_size_le h]
  exact poweredOn_powerOn m.config ⟨bytes, h⟩ entropy

/-- A machine that was reset was just switched on with the program that it has kept. -/
theorem poweredOn_reset (m : Machine) (entropy : UInt64) :
    PoweredOn m.config m.rom.bytes (m.config.seed.getD entropy) (m.reset entropy).machine :=
  poweredOn_powerOn m.config m.rom entropy

namespace PoweredOn

variable {config : Config} {bytes : Array UInt8} {seed : UInt64} {m n : Machine}

/-- Every cell of memory belongs to the font or to the program, or is zero. -/
theorem memory_eq (hm : PoweredOn config bytes seed m) {other : UInt64}
    (hn : PoweredOn config bytes other n) : m.state.memory = n.state.memory := by
  have hcells : ∀ i < 4096, m.state.memory.cells[i]? = n.state.memory.cells[i]? := by
    intro i hi
    by_cases hfont : i < 80
    · rw [hm.font i hfont, hn.font i hfont]
    by_cases hlow : i < 0x200
    · rw [hm.zeros_below i (by omega) hlow, hn.zeros_below i (by omega) hlow]
    by_cases hprogram : i < 0x200 + bytes.size
    · obtain ⟨k, rfl⟩ : ∃ k, i = 0x200 + k := ⟨i - 0x200, by omega⟩
      rw [hm.program k (by omega), hn.program k (by omega)]
    · rw [hm.zeros_above i (by omega) hi, hn.zeros_above i (by omega) hi]
  rw [Memory.mk.injEq]
  refine Vector.ext fun i hi ↦ Option.some.inj ?_
  rw [← Vector.getElem?_eq_getElem hi, ← Vector.getElem?_eq_getElem hi]
  exact hcells i hi

theorem registers_eq (hm : PoweredOn config bytes seed m) {other : UInt64}
    (hn : PoweredOn config bytes other n) : m.state.registers = n.state.registers :=
  Registers.ext fun x ↦ (hm.registers x).trans (hn.registers x).symm

theorem screen_eq (hm : PoweredOn config bytes seed m) {other : UInt64}
    (hn : PoweredOn config bytes other n) : m.state.screen = n.state.screen :=
  Screen.ext fun x y ↦ (hm.screen x y).trans (hn.screen x y).symm

/-- **Nothing is left open**: the configuration, the program and the seed determine the machine. -/
theorem unique (hm : PoweredOn config bytes seed m) (hn : PoweredOn config bytes seed n) :
    m = n := by
  have hrom : m.rom = n.rom := Rom.mk.injEq .. ▸ hm.bytes_eq.trans hn.bytes_eq.symm
  have hstate : m.state = n.state := by
    rw [State.mk.injEq]
    exact ⟨hm.memory_eq hn, hm.registers_eq hn, hm.index.trans hn.index.symm,
      hm.pc.trans hn.pc.symm, hm.stack.trans hn.stack.symm, hm.timers.trans hn.timers.symm,
      hm.screen_eq hn, hm.keypad.trans hn.keypad.symm, hm.random.trans hn.random.symm⟩
  rw [Machine.mk.injEq]
  exact ⟨hm.config_eq.trans hn.config_eq.symm, hrom, hstate, hm.fault?.trans hn.fault?.symm,
    hm.waiting.trans hn.waiting.symm⟩

theorem withRandomKey (hm : PoweredOn config bytes seed m) {other : UInt64} {key : ChaCha.Key}
    (hkey : key = RandomStream.keyOfSeed other) :
    PoweredOn config bytes other (m.withRandomKey key) :=
  { hm with random := by rw [random_withRandomKey, hm.random, hkey] }

/-- Another seed shows in the key of the random stream only. -/
theorem eq_withRandomKey (hm : PoweredOn config bytes seed m) {other : UInt64}
    (hn : PoweredOn config bytes other n) : m = n.withRandomKey m.state.random.key := by
  have hkey : m.state.random.key = RandomStream.keyOfSeed seed := by rw [hm.random]
  exact hm.unique (hn.withRandomKey hkey)

end PoweredOn

/-! ### Machines that were switched on alike -/

/-- Machines that are the same, but for the key of the random stream if they have no seed. -/
structure SamePowerOn (m n : Machine) : Prop where
  eq_of_seed : m.config.seed.isSome → m = n
  eq_withRandomKey : m = n.withRandomKey m.state.random.key
  bytes_eq : ∀ i, i < 4410 ∨ 4442 ≤ i → m.snapshot.toList[i]? = n.snapshot.toList[i]?

theorem PoweredOn.same {config : Config} {bytes : Array UInt8} {entropy entropy' : UInt64}
    {m n : Machine} (hm : PoweredOn config bytes (config.seed.getD entropy) m)
    (hn : PoweredOn config bytes (config.seed.getD entropy') n) : SamePowerOn m n where
  eq_of_seed hseed := by
    rw [hm.config_eq] at hseed
    obtain ⟨seed, hseed⟩ := Option.isSome_iff_exists.1 hseed
    rw [hseed] at hm hn
    exact hm.unique hn
  eq_withRandomKey := hm.eq_withRandomKey hn
  bytes_eq i hi := by
    rw [hm.eq_withRandomKey hn]
    exact Snapshot.getElem?_encode_withKey n.state _ hi

/-! ### After any history -/

/-- **Switching on forgets the past.** Take a new machine and any calls on it. A program is accepted
exactly if it has at most 3584 bytes. Then the machine is as `PoweredOn` says, and the same as a new
one that has loaded the program; a program that is refused leaves the whole machine as it was. A
reset does what loading the last accepted program would do, or makes the machine a new one if there
was none, and it never finds that the program it has kept does not fit. -/
theorem powerOn_history_free (config : Config) (entropy : UInt64) (calls : List Call) :
    let new := powerOn config Rom.empty
    let m := ((new entropy).performAll calls).machine
    (∀ bytes e,
      let o := m.load bytes e
      (o.result = .ok () ↔ bytes.size ≤ 3584) ∧
        (o.result = .ok () →
          PoweredOn config bytes (config.seed.getD e) o.machine ∧
            ∀ e₁ e₂, SamePowerOn o.machine ((new e₁).load bytes e₂).machine) ∧
        (o.result ≠ .ok () → o.result = .error ⟨bytes.size⟩ ∧ o.machine = m)) ∧
    ∀ e,
      let o := m.reset e
      (∀ bytes, lastProgram? calls = some bytes → ∀ e',
        (m.load bytes e').result = .ok () ∧ SamePowerOn o.machine (m.load bytes e').machine) ∧
      (lastProgram? calls = none → ∀ e', SamePowerOn o.machine (new e')) ∧
      (m.load m.rom.bytes e).result = .ok () ∧ o.machine = (m.load m.rom.bytes e).machine := by
  intro new m
  have hconfig : m.config = config := config_performAll _ _
  have hkept : m.rom.bytes = (lastProgram? calls).getD #[] := bytes_performAll _ _
  have hloaded : ∀ bytes e, bytes.size ≤ maxRomSize →
      PoweredOn config bytes (config.seed.getD e) (m.load bytes e).machine := by
    intro bytes e hsize
    have h := m.poweredOn_load hsize e
    rwa [hconfig] at h
  have hreset : ∀ e, PoweredOn config m.rom.bytes (config.seed.getD e) (m.reset e).machine := by
    intro e
    have h := m.poweredOn_reset e
    rwa [hconfig] at h
  refine ⟨fun bytes e ↦ ⟨result_load_eq_ok_iff, fun hok ↦ ?_, fun hrefused ↦ ?_⟩,
    fun e ↦ ⟨fun bytes hlast e' ↦ ?_, fun hnone e' ↦ ?_, ?_⟩⟩
  · have hsize := result_load_eq_ok_iff.1 hok
    exact ⟨hloaded bytes e hsize, fun e₁ e₂ ↦
      (hloaded bytes e hsize).same ((new e₁).poweredOn_load hsize e₂)⟩
  · have hlt := Nat.lt_of_not_le fun hle ↦ hrefused (result_load_eq_ok_iff.2 hle)
    rw [load_of_lt_size hlt]
    exact ⟨rfl, rfl⟩
  · rw [hlast] at hkept
    obtain rfl : m.rom.bytes = bytes := hkept
    exact ⟨result_load_eq_ok_iff.2 m.rom.size_le, (hreset e).same (hloaded _ e' m.rom.size_le)⟩
  · rw [hnone] at hkept
    have hempty : m.rom.bytes = Rom.empty.bytes := hkept
    have h := hreset e
    rw [hempty] at h
    exact h.same (poweredOn_powerOn config Rom.empty e')
  · rw [load_of_size_le m.rom.size_le]
    exact ⟨rfl, rfl⟩

/-- A machine that has loaded two programs, was halted, has restored a snapshot, was given keys and
refused a third program. -/
theorem powerOn_history_free_of_refused :
    let config : Config := { seed := some 7 }
    let calls : List Call := [.load #[0x12, 0x00] 0, .load #[0xFF, 0xFF] 1, .step,
      .restore (Array.replicate 4458 2), .setKeys (List.replicate 16 true),
      .load (Array.replicate 3585 0) 2]
    let m := ((powerOn config Rom.empty 0).performAll calls).machine
    lastProgram? calls = some #[0xFF, 0xFF] ∧
      (m.load #[0x12, 0x00] 3).machine =
        ((powerOn config Rom.empty 4).load #[0x12, 0x00] 5).machine ∧
      (m.load (Array.replicate 3585 0) 6).machine = m ∧
      (m.reset 7).machine = (m.load #[0xFF, 0xFF] 8).machine := by
  -- of the program that is refused and of the snapshot only the sizes count
  have hbig : maxRomSize < (Array.replicate 3585 (0 : UInt8)).size := by
    rw [Array.size_replicate]
    decide
  generalize Array.replicate 3585 (0 : UInt8) = big at hbig ⊢
  generalize Array.replicate 4458 (2 : UInt8) = twos
  intro config calls m
  have hlast : lastProgram? calls = some #[0xFF, 0xFF] := by
    have hsmall : 2 ≤ maxRomSize := by decide
    simp [calls, lastProgram?, List.filterMap_cons, Call.program?, hsmall, Nat.not_le.2 hbig]
  have hconfig : m.config = config := config_performAll _ _
  obtain ⟨hload, hreset⟩ := powerOn_history_free config 0 calls
  obtain ⟨hok, hsame, -⟩ := hload #[0x12, 0x00] 3
  obtain ⟨-, -, hrefused⟩ := hload big 6
  obtain ⟨hagain, -⟩ := hreset 7
  refine ⟨hlast, ?_, ?_, ?_⟩
  · obtain ⟨hpowered, hfresh⟩ := hsame (hok.2 (by decide))
    exact (hfresh 4 5).eq_of_seed (by rw [hpowered.config_eq]; rfl)
  · exact (hrefused (by rw [load_of_lt_size hbig]; simp)).2
  · obtain ⟨-, hreloaded⟩ := hagain _ hlast 8
    exact hreloaded.eq_of_seed (by rw [(m.poweredOn_reset 7).config_eq, hconfig]; rfl)

end Machine

end Chip8
