import Chip8.Proofs.Faults
import Chip8.Proofs.SnapshotFormat

/-!
# Halted machines

A fault is **atomic**: the step that raises it changes nothing in the state. And it is **sticky**:
from then on every step and every frame gives the same fault again, whatever else is called in
between, and nothing but the keys can change. `Call.Revives` names the calls that end this, which
are a reset and loading or restoring bytes that are accepted. `faults_atomic_and_sticky` says that
there are no others.

That frames of a halted machine never come to the tick rests on `Config.stepsPerFrame_pos`: each has
a first step, and the first step fails.
-/

namespace Chip8

/-- Whether a call ends a halt: resetting does, and so does loading a program that fits or restoring
bytes that are a snapshot. -/
def Call.Revives : Call → Prop
  | .load bytes _ => bytes.size ≤ maxRomSize
  | .reset _ => True
  | .restore bytes => bytes.size = Snapshot.size ∧ bytes[0]? = some Snapshot.version
  | _ => False

namespace Machine

variable {m : Machine} {f : Fault}

/-! ### Raising a fault -/

theorem runFrame_of_fault? (h : m.fault? = some f) : m.runFrame = ⟨.error f, m, #[]⟩ := by
  obtain ⟨n, hn⟩ : ∃ n, m.config.stepsPerFrame = n + 1 :=
    ⟨m.config.stepsPerFrame - 1, by have := m.config.stepsPerFrame_pos; omega⟩
  have hsteps : m.steps m.config.stepsPerFrame = ⟨⟨0, some f⟩, m, #[]⟩ := by
    have hresult : m.step.result = .error f := by rw [step_of_fault? h]
    rw [hn, steps_succ_of_error hresult, step_of_fault? h]
  rw [runFrame_of_error (f := f) (by rw [hsteps]), hsteps]

/-- **A frame that fails never comes to its tick**: it has changed what its first steps have
changed, and the machine is halted. -/
theorem machine_runFrame_of_error (h : m.runFrame.result = .error f) :
    ∃ k < m.config.stepsPerFrame, (m.steps k).result = ⟨k, none⟩ ∧
      m.runFrame.machine = { (m.steps k).machine with fault? := some f } := by
  rcases hf : (m.steps m.config.stepsPerFrame).result.fault? with - | g
  · rw [runFrame_of_ok hf] at h
    exact absurd h (by simp)
  · rw [runFrame_of_error hf] at h ⊢
    obtain rfl : g = f := Except.error.inj h
    exact machine_steps_of_fault hf

/-- Whatever call answers with a fault, the machine is halted by it afterwards. -/
theorem fault?_of_faulted {c : Call} (h : (m.perform c).result = .faulted f) :
    (m.perform c).machine.fault? = some f := by
  cases c with
  | step =>
    rcases hr : m.step.result with g | u
    · have hg : Response.faulted g = .faulted f := by rw [← h, perform, Outcome.map, hr]; rfl
      rw [machine_perform_step, machine_of_step_error hr, Response.faulted.inj hg]
    · rw [perform, Outcome.map, hr] at h
      exact absurd h (by simp [Response.ofExcept])
  | runFrame =>
    rcases hr : m.runFrame.result with g | screen
    · have hg : Response.faulted g = .faulted f := by rw [← h, perform, Outcome.map, hr]; rfl
      obtain ⟨k, -, -, hmachine⟩ := machine_runFrame_of_error hr
      rw [machine_perform_runFrame, hmachine, Response.faulted.inj hg]
    · rw [perform, Outcome.map, hr] at h
      exact absurd h (by simp [Response.ofExcept])
  | load bytes entropy =>
    rcases hr : (m.load bytes entropy).result <;>
      simp [perform, Outcome.map, hr, Response.ofExcept] at h
  | setKeys keys =>
    rcases hr : (m.setKeys keys).result <;>
      simp [perform, Outcome.map, hr, Response.ofExcept] at h
  | restore bytes =>
    rcases hr : (m.restore bytes).result <;>
      simp [perform, Outcome.map, hr, Response.ofExcept] at h
  | reset _ | screen | snapshot => exact absurd h (by simp [perform, Outcome.map])

/-! ### Calls on a halted machine -/

/-- **A call that neither runs nor revives the machine changes its keys at most**, and reports
nothing. -/
theorem perform_of_not_runs {c : Call} (hc : ¬ c.Revives) (hruns : c.runs = false) :
    (∃ k, (m.perform c).machine = m.withKeypad k) ∧ (m.perform c).log = #[] := by
  cases c with
  | load bytes entropy =>
    have hload := load_of_lt_size (m := m) (Nat.lt_of_not_le hc) entropy
    rw [perform, Outcome.map, hload]
    exact ⟨m.exists_withKeypad_self, rfl⟩
  | reset entropy => exact absurd trivial hc
  | step | runFrame => exact absurd hruns.symm Bool.false_ne_true
  | setKeys keys =>
    refine ⟨m.machine_setKeys keys, ?_⟩
    rw [perform, Outcome.map, setKeys]
    split <;> rfl
  | restore bytes =>
    rcases hs : Snapshot.decode bytes with e | s
    · rw [perform, Outcome.map, restore_of_decode_error hs]
      exact ⟨m.exists_withKeypad_self, rfl⟩
    · exact absurd (Snapshot.exists_decode_iff.1 ⟨s, hs⟩) hc
  | screen | snapshot => exact ⟨m.exists_withKeypad_self, rfl⟩

/-- **A call that does not revive a halted machine changes its keys at most.** -/
theorem perform_of_halted (h : m.fault? = some f) {c : Call} (hc : ¬ c.Revives) :
    ∃ k, (m.perform c).machine = m.withKeypad k := by
  cases c with
  | step =>
    rw [machine_perform_step, step_of_fault? h]
    exact m.exists_withKeypad_self
  | runFrame =>
    rw [machine_perform_runFrame, runFrame_of_fault? h]
    exact m.exists_withKeypad_self
  | load _ _ | reset _ | setKeys _ | restore _ | screen | snapshot =>
    exact (perform_of_not_runs hc rfl).1

/-- A call that revives succeeds, and the machine runs after it. -/
theorem perform_of_revives {c : Call} (hc : c.Revives) :
    (m.perform c).result = .done ∧ (m.perform c).machine.fault? = none := by
  cases c with
  | load bytes entropy =>
    have hload := load_of_size_le (m := m) hc entropy
    rw [perform, Outcome.map, hload]
    exact ⟨rfl, rfl⟩
  | reset entropy => exact ⟨rfl, rfl⟩
  | restore bytes =>
    obtain ⟨s, hs⟩ := Snapshot.exists_decode_iff.2 hc
    rw [perform, Outcome.map, restore_of_decode hs]
    exact ⟨rfl, rfl⟩
  | step | runFrame | setKeys _ | screen | snapshot => exact hc.elim

/-- The calls that revive are those that put another state in place and succeed. -/
theorem revives_iff {c : Call} :
    c.Revives ↔ c.replacesState = true ∧ (m.perform c).result = .done := by
  refine ⟨fun hc ↦ ⟨?_, (perform_of_revives hc).1⟩, ?_⟩
  · cases c with
    | load _ _ | reset _ | restore _ => rfl
    | step | runFrame | setKeys _ | screen | snapshot => exact hc.elim
  · rintro ⟨hkind, hdone⟩
    cases c with
    | load bytes entropy =>
      refine Nat.le_of_not_lt fun hlt ↦ ?_
      rw [perform, Outcome.map, load_of_lt_size hlt] at hdone
      exact absurd hdone (by simp [Response.ofExcept])
    | reset _ => trivial
    | restore bytes =>
      rcases hs : Snapshot.decode bytes with e | s
      · rw [perform, Outcome.map, restore_of_decode_error hs] at hdone
        exact absurd hdone (by simp [Response.ofExcept])
      · exact Snapshot.exists_decode_iff.1 ⟨s, hs⟩
    | step | runFrame | setKeys _ | screen | snapshot => exact absurd hkind Bool.false_ne_true

/-- **Over any calls that do not revive it**, a halted machine changes its keys at most. -/
theorem performAll_of_halted (h : m.fault? = some f) {calls : List Call}
    (hc : ∀ c ∈ calls, ¬ c.Revives) : ∃ k, (m.performAll calls).machine = m.withKeypad k := by
  induction calls generalizing m with
  | nil => exact m.exists_withKeypad_self
  | cons c calls ih =>
    obtain ⟨k, hk⟩ := perform_of_halted h (hc c (by simp))
    have hnext : (m.perform c).machine.fault? = some f := by rw [hk]; exact h
    obtain ⟨k', hk'⟩ := ih hnext fun c' hc' ↦ hc c' (by simp [hc'])
    refine ⟨k', ?_⟩
    rw [performAll, hk', hk]
    rfl

/-- Over any calls that do not revive it, a halted machine answers every step and every frame with
its fault. -/
theorem result_performAll_of_halted (h : m.fault? = some f) {calls : List Call}
    (hc : ∀ c ∈ calls, ¬ c.Revives) {i : Nat}
    (hi : calls[i]? = some .step ∨ calls[i]? = some .runFrame) :
    (m.performAll calls).result[i]? = some (.faulted f) := by
  induction calls generalizing m i with
  | nil => simp at hi
  | cons c calls ih =>
    obtain ⟨k, hk⟩ := perform_of_halted h (hc c (by simp))
    have hnext : (m.perform c).machine.fault? = some f := by rw [hk]; exact h
    -- the calls left are made on a machine that is halted by the same fault
    cases i with
    | zero =>
      rw [performAll, List.getElem?_cons_zero]
      rcases hi with hi | hi
      · obtain rfl : c = .step := by simpa using hi
        rw [perform, Outcome.map, step_of_fault? h]
        rfl
      · obtain rfl : c = .runFrame := by simpa using hi
        rw [perform, Outcome.map, runFrame_of_fault? h]
        rfl
    | succ i => exact ih hnext (fun c' hc' ↦ hc c' (by simp [hc'])) hi

/-! ### Atomic and sticky -/

/-- **Faults are atomic and sticky.** A step that fails changes nothing that is saved, a frame that
fails has made the steps before its fault and no tick, and whatever call answers with a fault leaves
the machine halted by it. Once halted, over any calls that do not revive it, the machine stays
halted by the same fault, gives it again at every step and every frame, never lets its timers tick,
and keeps every byte that it saves but the two of the keys. The calls that revive it are exactly
those that leave it running, and exactly the loads, resets and restores that succeed. -/
theorem faults_atomic_and_sticky (m : Machine) :
    (∀ f, m.step.result = .error f →
      m.step.machine = { m with fault? := some f } ∧ m.step.machine.snapshot = m.snapshot) ∧
    (∀ f, m.runFrame.result = .error f →
      ∃ k < m.config.stepsPerFrame, (m.steps k).result = ⟨k, none⟩ ∧
        m.runFrame.machine = { (m.steps k).machine with fault? := some f }) ∧
    (∀ c f, (m.perform c).result = .faulted f → (m.perform c).machine.fault? = some f) ∧
    ∀ f, m.fault? = some f → ∀ calls : List Call, (∀ c ∈ calls, ¬ c.Revives) →
      let o := m.performAll calls
      o.machine.fault? = some f ∧
        (∀ i : Nat, calls[i]? = some .step ∨ calls[i]? = some .runFrame →
          o.result[i]? = some (.faulted f)) ∧
        o.machine.state.timers = m.state.timers ∧
        (∀ i, i ≠ 4408 → i ≠ 4409 → o.machine.snapshot[i]? = m.snapshot[i]?) ∧
        ∀ c : Call, ((o.machine.perform c).machine.fault? = none ↔ c.Revives) ∧
          (c.Revives ↔ c.replacesState = true ∧ (o.machine.perform c).result = .done) := by
  refine ⟨?_, fun f ↦ machine_runFrame_of_error, fun c f ↦ fault?_of_faulted, ?_⟩
  · intro f hf
    have hmachine := machine_of_step_error hf
    exact ⟨hmachine, by rw [hmachine]; rfl⟩
  · intro f hf calls hc o
    obtain ⟨k, hk⟩ := performAll_of_halted hf hc
    have hhalted : o.machine.fault? = some f := by
      rw [show o.machine = m.withKeypad k from hk]
      exact hf
    refine ⟨hhalted, fun i hi ↦ result_performAll_of_halted hf hc hi, ?_, ?_, ?_⟩
    · rw [show o.machine = m.withKeypad k from hk]
      rfl
    · intro i hi hi'
      rw [show o.machine = m.withKeypad k from hk, ← Vector.getElem?_toList,
        ← Vector.getElem?_toList]
      exact Snapshot.getElem?_encode_withKeypad m.state k hi hi'
    · refine fun c ↦ ⟨⟨fun hnone ↦ ?_, fun hrevives ↦ (perform_of_revives hrevives).2⟩, revives_iff⟩
      refine Classical.byContradiction fun hkeeps ↦ ?_
      obtain ⟨k', hk'⟩ := perform_of_halted hhalted hkeeps
      rw [hk'] at hnone
      exact absurd (hhalted.symm.trans hnone) (by simp)

/-- A machine that its first step halts, and calls of every kind that do not revive it. -/
theorem faults_atomic_and_sticky_of_empty :
    let m := (powerOn {} Rom.empty 0).step.machine
    let f := Fault.invalidOpcode 0 0x200
    let calls : List Call := [.setKeys (List.replicate 16 true), .step, .setKeys [true], .runFrame,
      .load (Array.replicate 3585 0) 0, .restore #[2], .step]
    let o := m.performAll calls
    (powerOn {} Rom.empty 0).step.result = .error f ∧
      m.snapshot = (powerOn {} Rom.empty 0).snapshot ∧ (∀ c ∈ calls, ¬ c.Revives) ∧
      m.fault? = some f ∧ o.machine.fault? = some f ∧ o.result[6]? = some (.faulted f) ∧
      o.machine.snapshot[4150]? = m.snapshot[4150]? ∧
      (o.machine.perform (.reset 0)).machine.fault? = none := by
  have hresult := result_step_powerOn_empty {} 0
  -- nothing else counts about the machine that was switched on
  generalize powerOn {} Rom.empty 0 = n at hresult ⊢
  intro m f calls o
  obtain ⟨hatomic, -, hraise, -⟩ := faults_atomic_and_sticky n
  obtain ⟨-, -, -, hsticky⟩ := faults_atomic_and_sticky m
  have hf : m.fault? = some f :=
    hraise .step f (congrArg (Response.ofExcept .faulted fun _ ↦ .done) hresult)
  have hc : ∀ c ∈ calls, ¬ c.Revives := by
    simp [calls, Call.Revives, maxRomSize, memorySize, programStart, Snapshot.size]
  obtain ⟨hhalted, hagain, -, hbytes, hends⟩ := hsticky f hf calls hc
  exact ⟨hresult, (hatomic f hresult).2, hc, hf, hhalted, hagain 6 (.inl rfl),
    hbytes 4150 (by decide) (by decide), (hends (.reset 0)).1.2 trivial⟩

end Machine

end Chip8
