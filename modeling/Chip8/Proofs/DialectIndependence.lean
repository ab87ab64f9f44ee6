import Chip8.Proofs.Faults
import Chip8.Proofs.Lockstep
import Chip8.Proofs.RegisterArithmetic

/-!
# What the dialect has an influence on

Two dialects may disagree on shifts, on transfers between registers and memory, or on both. All
other instructions do not look at the dialect. `State.ReadAlike` says of a state that the
disagreement does not matter there: what is shifted is in both registers, and there is no transfer.
Execution is the same then (`execute_eq_of_readAlike`), and a fault is the same in any case, because
no fault depends on the dialect.

Machines that differ in nothing but their dialects therefore run in lockstep until the first
instruction on which the dialects disagree, with **the same machine apart from the dialect** on both
sides (`SameButDialect.lockstepWhile`). What this instruction does is then compared directly: a
transfer moves `I` on one side only (`perform_transfer`), and a shift differs in what it writes to
`VX` and `VF`.
-/

namespace Chip8

open Instruction (wordXNN wordXYN)

/-! ### Where dialects do not matter -/

/-- It makes no difference to the word at hand in which of two dialects it is read. -/
structure State.ReadAlike (s : State) (d d' : Dialect) : Prop where
  /-- A shift on which the dialects disagree finds the same value in both registers. -/
  shift : d.shiftReadsY ≠ d'.shiftReadsY → ∀ x y,
    s.fetch = wordXYN 0x8 x y 0x6 ∨ s.fetch = wordXYN 0x8 x y 0xE → s.v x = s.v y
  /-- It is no transfer on which the dialects disagree. -/
  transfer : d.transferMovesIndex ≠ d'.transferMovesIndex → ∀ x,
    s.fetch ≠ wordXNN 0xF x 0x55 ∧ s.fetch ≠ wordXNN 0xF x 0x65

namespace State

variable {s : State} {d d' : Dialect} {i : Instruction}

theorem ReadAlike.v_eq (h : s.ReadAlike d d') {direction : Direction} {x y : Register}
    (hw : s.fetch = (Instruction.shift direction x y).word) :
    s.v (if d.shiftReadsY then y else x) = s.v (if d'.shiftReadsY then y else x) := by
  by_cases hd : d.shiftReadsY = d'.shiftReadsY
  · rw [hd]
  · have hxy : s.v x = s.v y := by
      refine h.shift hd x y ?_
      cases direction with
      | right => exact .inl hw
      | left => exact .inr hw
    simp only [apply_ite s.v, hxy, ite_self]

theorem ReadAlike.transferMovesIndex_eq (h : s.ReadAlike d d') {x : Register}
    (hw : s.fetch = wordXNN 0xF x 0x55 ∨ s.fetch = wordXNN 0xF x 0x65) :
    d.transferMovesIndex = d'.transferMovesIndex := by
  by_contra hd
  obtain ⟨hstore, hload⟩ := h.transfer hd x
  exact hw.elim hstore hload

/-- **An instruction that both dialects read alike does the same in both.** -/
theorem perform_eq_of_readAlike (h : s.ReadAlike d d') (hw : s.fetch = i.word) :
    s.perform d i = s.perform d' i := by
  cases i with
  | shift direction x y =>
    rw [perform, perform, State.shift, State.shift, h.v_eq hw]
  | storeRegisters x =>
    rw [perform, perform, passIndex, passIndex, h.transferMovesIndex_eq (.inl hw)]
  | loadRegisters x =>
    rw [perform, perform, passIndex, passIndex, h.transferMovesIndex_eq (.inr hw)]
  | _ => rfl -- the others do not look at the dialect

theorem execute_eq_of_readAlike (h : s.ReadAlike d d') : s.execute d = s.execute d' := by
  rcases hi : Instruction.decode s.fetch with - | i
  · rw [execute, execute, hi]
  · rw [execute, execute, hi]
    exact perform_eq_of_readAlike h (Instruction.word_of_decode hi).symm

/-- A transfer does the same in all dialects, up to `I`. -/
theorem perform_transfer {x : Register} (hi : i = .storeRegisters x ∨ i = .loadRegisters x) :
    ∃ t : State, ∀ d : Dialect, s.perform d i =
      .advanced { t with index :=
        if d.transferMovesIndex then t.index + UInt16.ofNat (x.val + 1) else t.index } := by
  rcases hi with rfl | rfl
  · refine ⟨{ s with memory := s.memory.writeBlock s.index (s.registers.upTo x) }.advance, ?_⟩
    intro d
    rw [perform, passIndex]
    split <;> rfl
  · refine ⟨{ s with
      registers := s.registers.setFrom (s.memory.readBlock s.index (x.val + 1)) }.advance, ?_⟩
    intro d
    rw [perform, passIndex]
    split <;> rfl

end State

namespace Machine

variable {a b m : Machine} {d d' : Dialect}

/-! ### Lockstep -/

/-- The machine with another dialect. -/
def inDialect (m : Machine) (d : Dialect) : Machine :=
  { m with config := { m.config with dialect := d } }

/-- A step makes the same difference to both machines if the word at hand does the same. -/
theorem step_inDialect (h : m.fault? = none → m.state.execute d' = m.effect) :
    (m.inDialect d').step = { m.step with machine := m.step.machine.inDialect d' } := by
  rcases hm : m.fault? with - | f
  · have hexecute : m.state.execute d' = m.state.execute m.config.dialect := h hm
    rw [step_of_running hm, step_of_running (show (m.inDialect d').fault? = none from hm),
      stepRunning, stepRunning]
    simp only [inDialect, hexecute]
    cases m.state.execute m.config.dialect <;> rfl
  · rw [step_of_fault? hm, step_of_fault? (show (m.inDialect d').fault? = some f from hm)]

/-- An instruction that faults needs no condition. -/
theorem execute_eq_effect (hm : m.fault? = none)
    (h : m.step.result = .ok () → m.state.ReadAlike m.config.dialect d') :
    m.state.execute d' = m.effect := by
  rcases he : m.effect with s | s | - | f
  case faulted => exact State.execute_eq_faulted_iff.2 (State.execute_eq_faulted_iff.1 he)
  all_goals
    rw [← he]
    refine (State.execute_eq_of_readAlike (h ?_)).symm
    rw [result_step hm, he]
    rfl

/-- The machines have the dialects `d` and `d'`, and are the same otherwise. -/
structure SameButDialect (d d' : Dialect) (a b : Machine) : Prop where
  dialect : a.config.dialect = d
  eq_inDialect : b = a.inDialect d'

namespace SameButDialect

/-- **They run in lockstep**, as long as the first one executes nothing on which the dialects
disagree. -/
theorem lockstepWhile (d d' : Dialect) :
    LockstepWhile (fun s ↦ s.ReadAlike d d') Eq Eq (SameButDialect d d') where
  logs := logRelation_eq
  step := by
    rintro a - ⟨rfl, rfl⟩ hok
    rw [step_inDialect fun hm ↦ execute_eq_effect hm hok]
    exact ⟨answersAgree_of_eq rfl, rfl, by rw [config_step], rfl⟩
  tick := by
    rintro a - ⟨rfl, rfl⟩ - -
    exact ⟨rfl, rfl⟩
  keys := by
    rintro a - ⟨rfl, rfl⟩ k
    exact ⟨rfl, rfl⟩
  stepsPerFrame := by
    rintro a - ⟨rfl, rfl⟩
    rfl
  screen := by
    rintro a - ⟨rfl, rfl⟩
    rfl

/-- Snapshots do not show the dialect, so they agree as well. -/
theorem perform (h : SameButDialect d d' a b) {c : Call} (hc : c.replacesState = false)
    (hG : Admits (fun s ↦ s.ReadAlike d d') (a.events c)) :
    Response.Agrees Eq (a.perform c).result (b.perform c).result ∧
      (a.perform c).log = (b.perform c).log ∧
      SameButDialect d d' (a.perform c).machine (b.perform c).machine := by
  by_cases hs : c = .snapshot
  · obtain ⟨rfl, rfl⟩ := h
    subst hs
    exact ⟨.same _, rfl, rfl, rfl⟩
  · exact (lockstepWhile d d').perform h hc hs hG

end SameButDialect

/-! ### The first difference -/

/-- Both steps succeed, and lead to machines that are the same but for their dialects and for what
`graft` takes over from the second state into the first one. -/
structure Parted (graft : State → State → State) (d' : Dialect)
    (o p : Outcome (Except Fault Unit)) : Prop where
  answer : o.result = .ok ()
  answer' : p.result = .ok ()
  machine :
    p.machine =
      { o.machine.inDialect d' with state := graft o.machine.state p.machine.state }

/-- After a transfer the machines differ in `I` only, by the number of registers. -/
theorem parted_transfer (hm : m.fault? = none)
    (hd : m.config.dialect.transferMovesIndex ≠ d'.transferMovesIndex) {x : Register}
    (hw : m.state.fetch = wordXNN 0xF x 0x55 ∨ m.state.fetch = wordXNN 0xF x 0x65) :
    Parted (fun s t ↦ { s with index := t.index }) d' m.step (m.inDialect d').step ∧
      if d'.transferMovesIndex then
        (m.inDialect d').step.machine.state.index =
          m.step.machine.state.index + UInt16.ofNat (x.val + 1)
      else
        m.step.machine.state.index =
          (m.inDialect d').step.machine.state.index + UInt16.ofNat (x.val + 1) := by
  obtain ⟨i, hi, hword⟩ : ∃ i, (i = .storeRegisters x ∨ i = .loadRegisters x) ∧
      m.state.fetch = Instruction.word i := by
    rcases hw with hw | hw
    · exact ⟨_, .inl rfl, hw⟩
    · exact ⟨_, .inr rfl, hw⟩
  obtain ⟨t, ht⟩ := State.perform_transfer (s := m.state) hi
  rw [step_of_fetch hm hword (ht _), step_of_fetch (m := m.inDialect d') hm hword (ht _)]
  refine ⟨⟨rfl, rfl, rfl⟩, ?_⟩
  -- exactly one of the dialects moves `I`
  cases hright : d'.transferMovesIndex with
  | false =>
    have hleft : m.config.dialect.transferMovesIndex = true := by
      rw [hright] at hd
      exact eq_true_of_ne_false hd
    simp [inDialect, hleft, hright]
  | true =>
    have hleft : m.config.dialect.transferMovesIndex = false := by
      rw [hright] at hd
      exact eq_false_of_ne_true hd
    simp [inDialect, hleft, hright]

/-- After a shift the machines differ in `VX` and `VF` at most. -/
theorem parted_shift (hm : m.fault? = none) {x y : Register}
    (hw : m.state.fetch = wordXYN 0x8 x y 0x6 ∨ m.state.fetch = wordXYN 0x8 x y 0xE) :
    Parted (fun s t ↦ { s with registers := t.registers }) d' m.step (m.inDialect d').step ∧
      ∀ z, z ≠ x → z ≠ VF → (m.inDialect d').step.machine.state.v z = m.step.machine.state.v z := by
  obtain ⟨direction, hword⟩ : ∃ direction,
      m.state.fetch = (Instruction.shift direction x y).word := by
    rcases hw with hw | hw
    · exact ⟨.right, hw⟩
    · exact ⟨.left, hw⟩
  obtain ⟨hanswer, hwritten, hothers⟩ := writes_shift hm direction hword
  obtain ⟨hanswer', hwritten', hothers'⟩ := writes_shift (m := m.inDialect d') hm direction hword
  refine ⟨⟨hanswer, hanswer', ?_⟩, fun z hx hflag ↦ ?_⟩
  · rw [hothers', hothers]
    rfl
  · exact (hwritten'.others z hx (.inr hflag)).trans (hwritten.others z hx (.inr hflag)).symm

/-- **Dialects differ in shifts and transfers, and in nothing else.** Take any machine and the same
machine with another dialect, make the same calls on both that run them or change their keys, and
then some more steps, which may end within a frame. Suppose that up to this moment the first machine
has executed no shift of different values where the dialects disagree on shifts, and no transfer
where they disagree on transfers. Then all answers and records are the same, and so are the
machines, but for the dialect. If the next instruction is a transfer on which the dialects disagree,
the states after it differ in `I` only, by the number of registers; if it is a shift, they differ in
`VX` and `VF` at most. -/
theorem runs_independent_of_dialect (a : Machine) (d : Dialect) {calls : List Call}
    (hc : ∀ c ∈ calls, c.replacesState = false) (k : Nat)
    (halike : ∀ s, .executed s ∈ a.eventsUntil calls k → s.ReadAlike a.config.dialect d) :
    let b := a.inDialect d
    let o := a.performAll calls
    let p := b.performAll calls
    let m := (o.machine.steps k).machine
    let n := (p.machine.steps k).machine
    o.result = p.result ∧ o.log = p.log ∧
      (o.machine.steps k).result = (p.machine.steps k).result ∧
      (o.machine.steps k).log = (p.machine.steps k).log ∧
      n = m.inDialect d ∧ n.snapshot = m.snapshot ∧
      (m.fault? = none → a.config.dialect.transferMovesIndex ≠ d.transferMovesIndex → ∀ x,
        m.state.fetch = wordXNN 0xF x 0x55 ∨ m.state.fetch = wordXNN 0xF x 0x65 →
        Parted (fun s t ↦ { s with index := t.index }) d m.step n.step ∧
          if d.transferMovesIndex then
            n.step.machine.state.index =
              m.step.machine.state.index + UInt16.ofNat (x.val + 1)
          else
            m.step.machine.state.index =
              n.step.machine.state.index + UInt16.ofNat (x.val + 1)) ∧
      (m.fault? = none → ∀ x y,
        m.state.fetch = wordXYN 0x8 x y 0x6 ∨ m.state.fetch = wordXYN 0x8 x y 0xE →
        Parted (fun s t ↦ { s with registers := t.registers }) d m.step n.step ∧
          ∀ z, z ≠ x → z ≠ VF → n.step.machine.state.v z = m.step.machine.state.v z) := by
  intro b o p m n
  have hR := SameButDialect.lockstepWhile a.config.dialect d
  obtain ⟨hcalls, hsteps⟩ := admits_append.1 halike
  have hsame : SameButDialect a.config.dialect d a b := ⟨rfl, rfl⟩
  obtain ⟨hanswers, hlog, hlast⟩ := performAll_related
    (K := fun c c' ↦ c = c' ∧ c.replacesState = false) logRelation_eq
    (by
      rintro a b c _ hab ⟨rfl, hkind⟩ hG
      exact hab.perform hkind hG)
    hsame (List.forall₂_same.2 fun c hmem ↦ ⟨rfl, hc c hmem⟩) hcalls
  obtain ⟨htally, hlog', hdialect, hn⟩ := steps_related hR.logs hR.step hlast k hsteps
  have hn : n = m.inDialect d := hn
  refine ⟨eq_of_forall₂_agrees hanswers, hlog, htally.eq, hlog', hn, ?_,
    fun hm hd x hw ↦ ?_, fun hm x y hw ↦ ?_⟩
  · rw [hn]
    rfl
  · rw [hn]
    exact parted_transfer hm (by rwa [hdialect]) hw
  · rw [hn]
    exact parted_shift hm hw

/-- A program shifts `V0` in place, which two dialects read alike, and then writes `V0` to memory:
only the machine of the COSMAC VIP moves `I`. -/
theorem runs_independent_of_dialect_of_transfer :
    let a := powerOn {} ⟨#[0x80, 0x06, 0xF0, 0x55], by decide⟩ 0
    let b := a.inDialect Dialect.cosmacVip
    let m := a.step.machine
    let n := b.step.machine
    (∀ c ∈ [Call.step], c.replacesState = false) ∧
      (∀ s, .executed s ∈ a.eventsUntil [.step] 0 → s.ReadAlike a.config.dialect .cosmacVip) ∧
      n = m.inDialect Dialect.cosmacVip ∧ m.state.fetch = wordXNN 0xF V0 0x55 ∧
      m.step.result = .ok () ∧ n.step.result = .ok () ∧
      n.step.machine.state.index = m.step.machine.state.index + 1 := by
  have hc : ∀ c ∈ [Call.step], c.replacesState = false := List.forall_mem_singleton.2 rfl
  -- only the registers and the two words count about the machine
  have key : ∀ a : Machine, a.fault? = none → a.config.dialect.transferMovesIndex = false →
      (∀ z, a.state.v z = 0) → a.state.fetch = wordXYN 0x8 V0 V0 0x6 →
      a.state.memory.readWord (a.state.pc + 2) = wordXNN 0xF V0 0x55 →
      (∀ s, .executed s ∈ a.eventsUntil [.step] 0 → s.ReadAlike a.config.dialect .cosmacVip) ∧
      (a.inDialect .cosmacVip).step.machine = a.step.machine.inDialect Dialect.cosmacVip ∧
      a.step.machine.state.fetch = wordXNN 0xF V0 0x55 ∧
      a.step.machine.step.result = .ok () ∧
      (a.inDialect .cosmacVip).step.machine.step.result = .ok () ∧
      (a.inDialect .cosmacVip).step.machine.step.machine.state.index =
        a.step.machine.step.machine.state.index + 1 := by
    intro a ha hdialect hzero hfirst hsecond
    obtain ⟨hok, -, hothers⟩ := writes_shift ha .right hfirst
    have hnext : a.step.machine.state.fetch = wordXNN 0xF V0 0x55 := by
      rw [hothers]
      exact hsecond
    have halike : ∀ s, .executed s ∈ a.eventsUntil [.step] 0 →
        s.ReadAlike a.config.dialect .cosmacVip := by
      intro s hs
      rw [eventsUntil, history_step_of_ok hok, stepEvents_zero, List.append_nil,
        List.mem_singleton] at hs
      obtain rfl := Event.executed.inj hs
      refine ⟨fun _ x y _ ↦ (hzero x).trans (hzero y).symm, fun _ x ↦ ?_⟩
      rw [hfirst]
      revert x
      decide
    obtain ⟨-, -, -, -, hn, -, htransfer, -⟩ :=
      runs_independent_of_dialect a .cosmacVip hc 0 halike
    have hdiffer : a.config.dialect.transferMovesIndex ≠ Dialect.cosmacVip.transferMovesIndex := by
      rw [hdialect]
      exact Bool.false_ne_true
    obtain ⟨⟨hanswer, hanswer', -⟩, hindex⟩ :=
      htransfer (fault?_of_step_ok hok).2 hdiffer V0 (.inl hnext)
    exact ⟨halike, hn, hnext, hanswer, hanswer', hindex⟩
  refine ⟨hc, key _ rfl rfl Registers.get_zero ?_ ?_⟩
  · rw [powerOn, State.fetch_powerOn]
    decide
  · rw [powerOn, State.powerOn, Memory.readWord_ofRom_program _ (by decide) (by decide)]
    decide

end Machine

end Chip8
