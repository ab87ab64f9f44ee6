import Chip8.Proofs.Lockstep

/-!
# Parts of the state that a run does not depend on

Some parts of the state are read by very few instructions. An `Erasure` is such a part, given by the
function that forgets it, and its law is that **what an instruction does to the rest can be told
from the rest**, unless it is one of those that read the part.

The parts of interest are the timers and the random stream. `State.perform_withDevices` is the one
case analysis over the instruction set that is made for both of them: all instructions but four
neither read them nor change them.

`Erasure.Same` says that two machines are the same but for the part. A step keeps this (`Same.step`)
as long as the first machine executes nothing that reads the part, and nothing has to be known about
the second one. `Same.steps` and `Same.executed_stepEvents` go on from there to series of steps.
-/

namespace Chip8

/-! ### Effects -/

namespace Effect

/-- Change the state that an effect leads to. -/
def map (f : State → State) : Effect → Effect
  | advanced s => advanced (f s)
  | answered s => answered (f s)
  | stalled => stalled
  | faulted fault => faulted fault

/-- Effects that a change makes equal are of one kind. -/
inductive MapEq (f : State → State) : Effect → Effect → Prop
  | advanced {s t : State} (h : f s = f t) : MapEq f (.advanced s) (.advanced t)
  | answered {s t : State} (h : f s = f t) : MapEq f (.answered s) (.answered t)
  | stalled : MapEq f .stalled .stalled
  | faulted (fault : Fault) : MapEq f (.faulted fault) (.faulted fault)

theorem mapEq_of_map_eq {f : State → State} {x y : Effect} (h : x.map f = y.map f) :
    MapEq f x y := by
  cases x <;> cases y <;> simp only [map, reduceCtorEq, advanced.injEq, answered.injEq,
    faulted.injEq] at h
  · exact .advanced h
  · exact .answered h
  · exact .stalled
  · obtain rfl := h
    exact .faulted _

theorem map_map (f g : State → State) (x : Effect) :
    (x.map f).map g = x.map fun s ↦ g (f s) := by
  cases x <;> rfl

end Effect

/-! ### Timers and random numbers -/

/-- Whether an instruction has to do with the timers or with the random stream. -/
def Instruction.usesDevices : Instruction → Bool
  | readDelay _ | setDelay _ | setSound _ | random _ _ => true
  | _ => false

namespace State

variable {i : Instruction} {s : State}

/-- The state with other timers and another random stream. -/
def withDevices (s : State) (timers : Timers) (random : RandomStream) : State :=
  { s with timers := timers, random := random }

/-- **The other instructions neither read them nor change them.** -/
theorem perform_withDevices (d : Dialect) (s : State) (timers : Timers) (random : RandomStream)
    (hi : i.usesDevices = false) :
    (s.withDevices timers random).perform d i =
      (s.perform d i).map fun t ↦ t.withDevices timers random := by
  cases i with
  | readDelay _ | setDelay _ | setSound _ | random _ _ =>
    exact absurd hi (by simp [Instruction.usesDevices])
  | ret | call _ | waitForKey _ =>
    simp only [perform, withDevices]
    split <;> rfl
  | skipIfImmediate | skipUnlessImmediate | skipIfEqual | skipUnlessEqual | skipIfKey
    | skipUnlessKey =>
    simp only [perform, skipWhen_eq]
    rfl
  | arithmetic operation x y =>
    show Effect.advanced ((s.withDevices timers random).combine operation x y).advance = _
    have hv : ∀ z, (s.withDevices timers random).v z = s.v z := fun _ ↦ rfl
    rw [perform, combine, combine, hv, hv]
    cases operation.flag? (s.v x) (s.v y) <;> rfl
  | storeRegisters x | loadRegisters x =>
    simp only [perform, passIndex]
    split <;> rfl
  | _ => rfl

/-- What is forgotten of the timers and of the random stream makes no difference to them. -/
theorem map_perform_withDevices {forget : State → State} {timers : Timers} {random : RandomStream}
    (d : Dialect) (hi : i.usesDevices = false)
    (h : ∀ t : State,
      forget (t.withDevices timers random) = forget (t.withDevices s.timers s.random)) :
    ((s.withDevices timers random).perform d i).map forget = (s.perform d i).map forget := by
  have hown : s.perform d i = (s.perform d i).map fun t ↦ t.withDevices s.timers s.random :=
    perform_withDevices d s s.timers s.random hi
  rw [perform_withDevices d s timers random hi, Effect.map_map, hown, Effect.map_map,
    Effect.map_map]
  exact congrArg (Effect.map · (s.perform d i)) (funext h)

end State

/-! ### Forgetting a part -/

/-- A part of the state that most instructions do not read. -/
structure Erasure where
  /-- The state without the part. -/
  forget : State → State
  /-- The instructions that read the part. -/
  reads : Instruction → Prop
  pc (s : State) : (forget s).pc = s.pc
  fetch (s : State) : (forget s).fetch = s.fetch
  screen (s : State) : (forget s).screen = s.screen
  /-- The other instructions do the same without the part. -/
  perform (d : Dialect) (s : State) {i : Instruction} (h : ¬ reads i) :
    ((forget s).perform d i).map forget = (s.perform d i).map forget
  /-- The instructions that read the part do not fail. -/
  result (d : Dialect) (s : State) {i : Instruction} (h : reads i) :
    (s.perform d i).result = .ok ()
  tick (s : State) : forget (forget s).tick = forget s.tick
  keys (s : State) (k : Keypad) :
    forget { forget s with keypad := k } = forget { s with keypad := k }

namespace Erasure

variable {e : Erasure} {a b : Machine}

/-- The instruction at hand, if there is one, does not read the part. -/
def Ignores (e : Erasure) (s : State) : Prop :=
  ∀ i, Instruction.decode s.fetch = some i → ¬ e.reads i

/-- The states in which a history executes its instructions, without the part. -/
def executed (e : Erasure) (es : List Event) : List State :=
  es.filterMap fun
    | .executed s => some (e.forget s)
    | .ticked => none

theorem executed_append (e : Erasure) (es fs : List Event) :
    e.executed (es ++ fs) = e.executed es ++ e.executed fs :=
  List.filterMap_append

/-- The machines are the same, but for the part and for what is chosen or kept outside the state. -/
structure Same (e : Erasure) (a b : Machine) : Prop where
  state : e.forget a.state = e.forget b.state
  dialect : a.config.dialect = b.config.dialect
  fault? : a.fault? = b.fault?

namespace Same

theorem pc (h : e.Same a b) : a.state.pc = b.state.pc := by
  rw [← e.pc, h.state, e.pc]

theorem fetch (h : e.Same a b) : a.state.fetch = b.state.fetch := by
  rw [← e.fetch, h.state, e.fetch]

theorem screen (h : e.Same a b) : a.screen = b.screen := by
  rw [Machine.screen, ← e.screen, h.state, e.screen]
  rfl

theorem fetchRecord (h : e.Same a b) : a.fetchRecord = b.fetchRecord := by
  rw [Machine.fetchRecord, h.pc, h.fetch]
  rfl

theorem tick (h : e.Same a b) : e.Same a.tick b.tick where
  state := by
    show e.forget a.state.tick = e.forget b.state.tick
    rw [← e.tick, h.state, e.tick]
  dialect := h.dialect
  fault? := h.fault?

theorem withKeypad (h : e.Same a b) (k : Keypad) : e.Same (a.withKeypad k) (b.withKeypad k) where
  state := by
    show e.forget { a.state with keypad := k } = e.forget { b.state with keypad := k }
    rw [← e.keys, h.state, e.keys]
  dialect := h.dialect
  fault? := h.fault?

/-- The instruction at hand has the same effect on both machines. -/
theorem map_effect (h : e.Same a b) (hi : e.Ignores a.state) :
    a.effect.map e.forget = b.effect.map e.forget := by
  have hfetch : a.state.fetch = b.state.fetch := h.fetch
  rcases hdecode : Instruction.decode a.state.fetch with - | i
  · have hdecode' : Instruction.decode b.state.fetch = none := hfetch ▸ hdecode
    rw [Machine.effect_of_decode_none hdecode, Machine.effect_of_decode_none hdecode', hfetch, h.pc]
  · have hdecode' : Instruction.decode b.state.fetch = some i := hfetch ▸ hdecode
    have hreads : ¬ e.reads i := hi i hdecode
    rw [Machine.effect_of_decode hdecode, Machine.effect_of_decode hdecode', ← e.perform _ _ hreads,
      h.state, e.perform _ _ hreads, h.dialect]

/-- An instruction that reads the part succeeds, so the condition is about every instruction. -/
theorem ignores (hrunning : a.fault? = none) (hok : a.step.result = .ok () → e.Ignores a.state) :
    e.Ignores a.state := by
  intro i hi hreads
  refine hok ?_ i hi hreads
  rw [Machine.result_step hrunning, Machine.effect_of_decode hi]
  exact e.result _ _ hreads

/-- **A step goes the same way on both machines**, and it reports the same if both were known to
wait for a key or both were not. -/
theorem step (h : e.Same a b) (hok : a.step.result = .ok () → e.Ignores a.state) :
    a.step.result = b.step.result ∧ e.Same a.step.machine b.step.machine ∧
      (a.waiting = b.waiting →
        a.step.log = b.step.log ∧ a.step.machine.waiting = b.step.machine.waiting) := by
  rcases ha : a.fault? with - | f
  · have hb : b.fault? = none := h.fault? ▸ ha
    have heffect := Effect.mapEq_of_map_eq (h.map_effect (ignores ha hok))
    have hrecord : #[a.fetchRecord] = #[b.fetchRecord] := by rw [h.fetchRecord]
    rw [Machine.step_of_running ha, Machine.step_of_running hb, Machine.stepRunning,
      Machine.stepRunning]
    rw [Machine.effect, Machine.effect] at heffect
    generalize a.state.execute a.config.dialect = x at heffect ⊢
    generalize b.state.execute b.config.dialect = y at heffect ⊢
    cases heffect with
    | advanced hs => exact ⟨rfl, { h with state := hs }, fun hwaiting ↦ ⟨hrecord, hwaiting⟩⟩
    | answered hs => exact ⟨rfl, { h with state := hs }, fun _ ↦ ⟨hrecord, rfl⟩⟩
    | stalled =>
      refine ⟨rfl, { h with }, fun hwaiting ↦ ⟨?_, rfl⟩⟩
      show #[a.fetchRecord] ++ a.waitingRecord = #[b.fetchRecord] ++ b.waitingRecord
      rw [hrecord, Machine.waitingRecord, Machine.waitingRecord, hwaiting, h.pc]
    | faulted f =>
      refine ⟨rfl, { h with fault? := rfl }, fun hwaiting ↦ ⟨?_, hwaiting⟩⟩
      show #[a.fetchRecord] ++ #[.halting f] = #[b.fetchRecord] ++ #[.halting f]
      rw [hrecord]
  · rw [Machine.step_of_fault? ha, Machine.step_of_fault? (h.fault? ▸ ha)]
    exact ⟨rfl, h, fun hwaiting ↦ ⟨rfl, hwaiting⟩⟩

/-- Series of steps go the same way, as far as a fault lets them come. -/
theorem steps (h : e.Same a b) {n : Nat} (hG : Machine.Admits e.Ignores (a.stepEvents n)) :
    (a.steps n).result = (b.steps n).result ∧ e.Same (a.steps n).machine (b.steps n).machine := by
  have hstep : ∀ {a b}, e.Same a b → (a.step.result = .ok () → e.Ignores a.state) →
      Machine.OutcomesAgree Eq (fun _ _ ↦ True) e.Same a.step b.step := by
    intro a b h hok
    obtain ⟨hresult, hnext, -⟩ := h.step hok
    exact ⟨answersAgree_of_eq hresult, trivial, hnext⟩
  obtain ⟨htally, -, hlast⟩ := Machine.steps_related ⟨trivial, fun _ _ ↦ trivial⟩ hstep h n hG
  exact ⟨htally.eq, hlast⟩

/-- Series of steps execute the same instructions in the same states. -/
theorem executed_stepEvents (h : e.Same a b) {n : Nat}
    (hG : Machine.Admits e.Ignores (a.stepEvents n)) :
    e.executed (a.stepEvents n) = e.executed (b.stepEvents n) := by
  induction n generalizing a b with
  | zero => rfl
  | succ n ih =>
    rcases hr : a.step.result with f | u
    · have hok : a.step.result = .ok () → e.Ignores a.state := by
        rw [hr]
        exact fun hfalse ↦ absurd hfalse (by simp)
      have hr' : b.step.result = .error f := (h.step hok).1 ▸ hr
      rw [Machine.stepEvents_succ_of_error hr, Machine.stepEvents_succ_of_error hr']
    · rw [Machine.stepEvents_succ_of_ok hr] at hG ⊢
      obtain ⟨hresult, hnext, -⟩ := h.step fun _ ↦ hG.head
      rw [Machine.stepEvents_succ_of_ok (hresult ▸ hr)]
      show e.forget a.state :: e.executed _ = e.forget b.state :: e.executed _
      rw [h.state, ih hnext hG.tail]

end Same

end Erasure

end Chip8
