import Chip8.Proofs.Faults
import Chip8.Proofs.Lockstep

/-!
# Going on from a snapshot

A snapshot holds the state of a machine, and neither the fault that has halted it nor whether it is
known to wait for a key. `replay_of_restore` says that it is enough all the same: a machine that has
restored what another one saved **answers every further call as the other one does**, whatever it
did before, as long as both read instructions alike and run at the same clock rate.

The proof is a relation between two machines that runs keep (`Alike.lockstep`), and restoring too.
Machines are `Alike` if they have the same state, dialect and clock rate, and the fault stands in
both. The last part makes up for what snapshots leave out: if the fault of a halted machine is the
one that its instruction raises, then halted or not, a step answers with the effect of the
instruction (`FaultStands.result_step`).
-/

namespace Chip8

namespace Machine

variable {a b : Machine}

/-! ### Steps of a machine in which the fault stands -/

/-- Halted or not, a step answers with the effect of the instruction at hand. -/
theorem FaultStands.result_step {m : Machine} (h : m.FaultStands) :
    m.step.result = m.effect.result := by
  rcases hf : m.fault? with - | f
  · exact Machine.result_step hf
  · rw [step_of_fault? hf, h f hf]
    rfl

/-- Halted or not, a step leads to the state after the effect. -/
theorem FaultStands.state_step {m : Machine} (h : m.FaultStands) :
    m.step.machine.state = m.effect.stateAfter m.state := by
  rcases hf : m.fault? with - | f
  · exact Machine.state_step hf
  · rw [step_of_fault? hf, h f hf]
    rfl

/-! ### Alike machines -/

/-- Two machines that answer alike: what snapshots leave out may differ. -/
structure Alike (a b : Machine) : Prop where
  state : a.state = b.state
  dialect : a.config.dialect = b.config.dialect
  clockRate : a.config.clockRate = b.config.clockRate
  left : a.FaultStands
  right : b.FaultStands

namespace Alike

theorem effect (h : Alike a b) : a.effect = b.effect := by
  rw [Machine.effect, Machine.effect, h.state, h.dialect]

theorem snapshot (h : Alike a b) : a.snapshot = b.snapshot := by
  rw [Machine.snapshot, Machine.snapshot, h.state]

theorem screen (h : Alike a b) : a.screen = b.screen := congrArg State.screen h.state

/-- **Machines that are alike step alike.** -/
theorem step (h : Alike a b) :
    a.step.result = b.step.result ∧ Alike a.step.machine b.step.machine := by
  refine ⟨?_, ?_, ?_, ?_, h.left.step, h.right.step⟩
  · rw [h.left.result_step, h.right.result_step, h.effect]
  · rw [h.left.state_step, h.right.state_step, h.effect, h.state]
  · rw [config_step, config_step]
    exact h.dialect
  · rw [config_step, config_step]
    exact h.clockRate

/-- **Machines that are alike run in lockstep.** -/
theorem lockstep : Lockstep Eq Alike where
  step h := ⟨answersAgree_of_eq h.step.1, h.step.2⟩
  tick h ha hb :=
    ⟨by simp only [tick, h.state], h.dialect, h.clockRate, faultStands_of_running ha,
      faultStands_of_running hb⟩
  keys h k :=
    ⟨by simp only [withKeypad, h.state], h.dialect, h.clockRate, h.left.withKeypad k,
      h.right.withKeypad k⟩
  stepsPerFrame h := by rw [Config.stepsPerFrame, Config.stepsPerFrame, h.clockRate]
  screen := Alike.screen

theorem restore (h : Alike a b) (bytes : Array UInt8) :
    (a.restore bytes).result = (b.restore bytes).result ∧
      Alike (a.restore bytes).machine (b.restore bytes).machine := by
  rcases hs : Snapshot.decode bytes with e | s
  · rw [restore_of_decode_error hs, restore_of_decode_error hs]
    exact ⟨rfl, h⟩
  · rw [restore_of_decode hs, restore_of_decode hs]
    -- both go on from the same state, and neither is halted any more
    exact ⟨rfl, rfl, h.dialect, h.clockRate, faultStands_of_running rfl,
      faultStands_of_running rfl⟩

/-- **Machines that are alike answer alike**, and stay alike. -/
theorem perform (h : Alike a b) {c : Call} (hc : c.switchesOn = false) :
    (a.perform c).result = (b.perform c).result ∧
      Alike (a.perform c).machine (b.perform c).machine := by
  cases c with
  | load bytes entropy | reset entropy => exact absurd hc (by simp [Call.switchesOn])
  | restore bytes =>
    obtain ⟨hresult, hnext⟩ := h.restore bytes
    exact ⟨congrArg (Response.ofExcept .refusedSnapshot fun _ ↦ .done) hresult, hnext⟩
  | snapshot => exact ⟨congrArg Response.saved h.snapshot, h⟩
  | step | runFrame | setKeys _ | screen =>
    exact And.imp_left Response.Agrees.eq (lockstep.perform h rfl (by simp))

theorem performAll (h : Alike a b) {calls : List Call}
    (hc : ∀ c ∈ calls, c.switchesOn = false) :
    (a.performAll calls).result = (b.performAll calls).result ∧
      Alike (a.performAll calls).machine (b.performAll calls).machine := by
  induction calls generalizing a b with
  | nil => exact ⟨rfl, h⟩
  | cons c calls ih =>
    obtain ⟨hfirst, hnext⟩ := h.perform (hc c (by simp))
    obtain ⟨hrest, hlast⟩ := ih hnext fun c' hc' ↦ hc c' (by simp [hc'])
    refine ⟨?_, hlast⟩
    simp only [Machine.performAll, hfirst, hrest]

end Alike

/-! ### Restoring -/

/-- A machine that has restored what another one saved is alike to it. -/
theorem alike_restore (ha : a.FaultStands) (hdialect : b.config.dialect = a.config.dialect)
    (hclock : b.config.clockRate = a.config.clockRate) :
    Alike (b.restore a.snapshot.toArray).machine a := by
  rw [restore_snapshot]
  exact ⟨rfl, hdialect, hclock, faultStands_of_running rfl, ha⟩

/-- **A snapshot is enough to go on from.** Let `a` be any machine that calls lead to, halted ones
included, and let `b` be in any condition whatsoever, but of the same dialect and clock rate. Once
`b` has restored what `a` saved, the two give the same answers to every list of calls that leaves
them switched on, and save the same bytes after it. If `a` was halted by a fault, the next step of
`b`, which is running, raises that fault and changes nothing else. -/
theorem replay_of_restore (ha : a.Reachable) (hdialect : b.config.dialect = a.config.dialect)
    (hclock : b.config.clockRate = a.config.clockRate) :
    let r := b.restore a.snapshot.toArray
    r.result = .ok () ∧
      (∀ calls : List Call, (∀ c ∈ calls, c.switchesOn = false) →
        (r.machine.performAll calls).result = (a.performAll calls).result ∧
          (r.machine.performAll calls).machine.snapshot = (a.performAll calls).machine.snapshot) ∧
      ∀ f, a.fault? = some f →
        r.machine.fault? = none ∧ r.machine.step.result = .error f ∧
          r.machine.step.machine = { r.machine with fault? := some f } := by
  intro r
  have halike : Alike r.machine a := alike_restore ha.faultStands hdialect hclock
  refine ⟨?_, ?_, ?_⟩
  · rw [show r = b.restore a.snapshot.toArray from rfl, restore_snapshot]
  · intro calls hc
    obtain ⟨hresult, hlast⟩ := halike.performAll hc
    exact ⟨hresult, hlast.snapshot⟩
  · intro f hf
    have hresult : r.machine.step.result = .error f := by
      rw [halike.step.1, step_of_fault? hf]
    refine ⟨?_, hresult, machine_of_step_error hresult⟩
    rw [show r = b.restore a.snapshot.toArray from rfl, restore_snapshot]

/-- A machine that its first step has halted, restored into one with another seed and all keys
held. -/
theorem replay_of_restore_of_halted :
    let a := ((powerOn {} Rom.empty 0).perform .step).machine
    let b := ((powerOn { seed := some 7 } Rom.empty 0).perform
      (.setKeys (List.replicate 16 true))).machine
    let r := b.restore a.snapshot.toArray
    let calls : List Call := [.setKeys [], .runFrame, .restore #[], .screen, .snapshot]
    a.Reachable ∧ a.fault? = some (.invalidOpcode 0 0x200) ∧ b.config.dialect = a.config.dialect ∧
      b.config.clockRate = a.config.clockRate ∧ (∀ c ∈ calls, c.switchesOn = false) ∧
      (r.machine.performAll calls).result = (a.performAll calls).result ∧
      (r.machine.performAll calls).machine.snapshot = (a.performAll calls).machine.snapshot ∧
      r.machine.step.result = .error (.invalidOpcode 0 0x200) := by
  intro a b r calls
  have ha : a.Reachable := (Reachable.powerOn {} 0).perform .step
  have hf : a.fault? = some (.invalidOpcode 0 0x200) := by
    rw [show a = (powerOn {} Rom.empty 0).step.machine from machine_perform_step _,
      machine_of_step_error (result_step_powerOn_empty {} 0)]
  have hconfig : a.config = {} := config_perform _ _
  have hconfig' : b.config = { seed := some 7 } := config_perform _ _
  -- from here on only these facts about the two machines count
  clear_value a b
  have hdialect : b.config.dialect = a.config.dialect := by rw [hconfig, hconfig']
  have hclock : b.config.clockRate = a.config.clockRate := by rw [hconfig, hconfig']
  have hc : ∀ c ∈ calls, c.switchesOn = false := by decide
  obtain ⟨-, hreplay, hhalted⟩ := replay_of_restore ha hdialect hclock
  obtain ⟨hresult, hsnapshot⟩ := hreplay calls hc
  exact ⟨ha, hf, hdialect, hclock, hc, hresult, hsnapshot, (hhalted _ hf).2.1⟩

end Machine

end Chip8
