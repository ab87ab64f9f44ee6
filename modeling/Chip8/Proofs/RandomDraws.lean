import Chip8.Proofs.Footprint
import Chip8.Proofs.History
import Chip8.Proofs.SnapshotLayout

/-!
# Random numbers over a run

A machine draws a random number for every `CXNN` that it executes, and for nothing else: `Drawn`
says that every draw was made from the stream as the draws before it have left it, and
`drawn_follows` that this stays true whatever happens. Which numbers these are is then a matter of
the generator, whose laws say that the words of a stream come **one after the other, none left out
and none twice**.

The stream is saved with the state, so a run may be handed from one machine to another as often as
one likes. `Leg` is the part of such a relay that one machine runs. Taking over changes neither what
was drawn nor the state (`Drawn.takeOver`), and `random_draws_exact` counts the draws through the
whole relay.
-/

namespace Chip8

/-- After the last word of a stream the first one follows. -/
theorem Generator.toNat_position_after {Key Stream : Type} (g : Generator Key Stream) (s : Stream)
    (n : Nat) : (g.position (g.after s n)).toNat = ((g.position s).toNat + n) % 2 ^ 68 := by
  rw [g.position_after, BitVec.toNat_add, BitVec.toNat_ofNat, Nat.add_mod_mod]

/-! ### Draws of a history -/

/-- The state in which an event has drawn a random number, if it has. -/
def Event.draw? : Event → Option State
  | executed s =>
    match Instruction.decode s.fetch with
    | some (.random _ _) => some s
    | _ => none
  | ticked => none

/-- The states in which random numbers were drawn, oldest first. -/
def draws (es : List Event) : List State :=
  es.filterMap Event.draw?

theorem draws_append (es fs : List Event) : draws (es ++ fs) = draws es ++ draws fs :=
  List.filterMap_append

theorem draws_singleton (e : Event) : draws [e] = e.draw?.toList := by
  rw [draws, List.filterMap_cons, List.filterMap_nil]
  cases e.draw? <;> rfl

namespace Event

variable {s t : State}

theorem draw?_of_random {x : Register} {mask : UInt8}
    (h : Instruction.decode s.fetch = some (.random x mask)) : (executed s).draw? = some s := by
  rw [draw?, h]

theorem draw?_of_not_random {i : Instruction} (h : Instruction.decode s.fetch = some i)
    (hi : ∀ x mask, i ≠ .random x mask) : (executed s).draw? = none := by
  rw [draw?, h]
  cases i with
  | random x mask => exact absurd rfl (hi x mask)
  | _ => rfl

/-- What was drawn in a state was drawn by the instruction at hand. -/
theorem exists_random_of_draw? {e : Event} (h : e.draw? = some s) :
    ∃ x mask, Instruction.decode s.fetch = some (.random x mask) := by
  cases e with
  | ticked => exact absurd h (by simp [draw?])
  | executed t =>
    rw [draw?] at h
    split at h
    next x mask hi =>
      obtain rfl := Option.some.inj h
      exact ⟨x, mask, hi⟩
    next => exact absurd h (by simp)

end Event

theorem exists_random_of_mem_draws {es : List Event} {s : State} (h : s ∈ draws es) :
    ∃ x mask, Instruction.decode s.fetch = some (.random x mask) := by
  obtain ⟨e, -, he⟩ := List.mem_filterMap.1 h
  exact Event.exists_random_of_draw? he

namespace State

variable {s : State} {x : Register} {mask : UInt8}

/-- A draw puts the next number of the stream into the register, with only the bits of the mask. -/
theorem execute_random (h : Instruction.decode s.fetch = some (.random x mask)) (d : Dialect) :
    s.execute d = .advanced (s.drawRandom x mask).advance := by
  rw [execute, h]
  rfl

theorem v_drawRandom (s : State) (x : Register) (mask : UInt8) :
    (s.drawRandom x mask).v x = (chaCha8.draw s.random).1 &&& mask := by
  show (s.registers.set x _).get x = _
  rw [Registers.get_set, if_pos rfl]

end State

namespace Machine

variable {start : RandomStream} {es : List Event} {m : Machine}

/-! ### The stream and the draws -/

/-- **The numbers were drawn one after the other** from a stream that has started in some position,
and the machine goes on behind the last of them. -/
structure Drawn (start : RandomStream) (es : List Event) (m : Machine) : Prop where
  drawn : (draws es).map State.random = (List.range (draws es).length).map (chaCha8.after start)
  next : m.state.random = chaCha8.after start (draws es).length

theorem Drawn.init (m : Machine) : Drawn m.state.random [] m where
  drawn := rfl
  next := (chaCha8.after_zero _).symm

/-- The `j`-th draw was made from the stream after `j` numbers. -/
theorem Drawn.random_of_getElem? (h : Drawn start es m) {j : Nat} {s : State}
    (hj : (draws es)[j]? = some s) : s.random = chaCha8.after start j := by
  obtain ⟨hlt, -⟩ := List.getElem?_eq_some_iff.1 hj
  have hmap : ((draws es).map State.random)[j]? = _ := congrArg (fun l ↦ l[j]?) h.drawn
  rw [List.getElem?_map, List.getElem?_map, hj, List.getElem?_range hlt] at hmap
  exact Option.some.inj hmap

/-- **Any generator with the same words gives these numbers**, from any stream of it that has the key
of the first one and stands at its position. How a generator keeps its streams does not show. -/
theorem Drawn.fst_draw_eq (h : Drawn start es m) {Stream : Type} (g : Generator ChaCha.Key Stream)
    (hword : g.word = chaCha8.word) {t : Stream} (hkey : g.key t = chaCha8.key start)
    (hposition : g.position t = chaCha8.position start) {j : Nat} {s : State}
    (hj : (draws es)[j]? = some s) : (chaCha8.draw s.random).1 = (g.draw (g.after t j)).1 := by
  rw [h.random_of_getElem? hj, chaCha8.fst_draw_after, g.fst_draw_after, hword, hkey, hposition]

/-- An event that draws nothing keeps it, if the stream stays. -/
theorem Drawn.keeps (h : Drawn start es m) {e : Event} (he : e.draw? = none) {n : Machine}
    (hn : n.state.random = m.state.random) : Drawn start (es ++ [e]) n := by
  have hdraws : draws (es ++ [e]) = draws es := by
    rw [draws_append, draws_singleton, he]
    exact List.append_nil _
  refine ⟨?_, ?_⟩
  · rw [hdraws, h.drawn]
  · rw [hdraws, hn, h.next]

/-- **A step draws the next number or leaves the stream alone.** -/
theorem Drawn.step (h : Drawn start es m) (hok : m.step.result = .ok ()) :
    Drawn start (es ++ [.executed m.state]) m.step.machine := by
  obtain ⟨i, hi⟩ := exists_decode_of_step_ok hok
  by_cases hrandom : ∃ x mask, i = .random x mask
  · obtain ⟨x, mask, rfl⟩ := hrandom
    have hdraws : draws (es ++ [.executed m.state]) = draws es ++ [m.state] := by
      rw [draws_append, draws_singleton, Event.draw?_of_random hi]
      rfl
    refine ⟨?_, ?_⟩
    · rw [hdraws, List.map_append, List.length_append, List.length_singleton, List.range_succ,
        List.map_append, h.drawn, List.map_singleton, List.map_singleton, h.next]
    · rw [hdraws, List.length_append, List.length_singleton, chaCha8.after_succ, ← h.next,
        step_of_advanced (fault?_of_step_ok hok).1 (State.execute_random hi _)]
      rfl
  · have hother : ∀ x mask, i ≠ .random x mask := fun x mask hx ↦ hrandom ⟨x, mask, hx⟩
    exact h.keeps (Event.draw?_of_not_random hi hother) ((spares_step hok hi).random hother)

theorem drawn_follows (start : RandomStream) : Follows (Drawn start) where
  step h hok := h.step hok
  halt h _ := ⟨h.drawn, h.next⟩
  tick h _ := h.keeps rfl rfl
  keys h _ := ⟨h.drawn, h.next⟩

/-! ### Relays -/

/-- The part of a run that one machine makes: calls, and the machine that takes over after them. -/
structure Leg where
  calls : List Call
  successor : Machine

/-- A machine that takes over goes on from what the one before it has saved. -/
def takeOver (successor m : Machine) : Machine :=
  (successor.restore m.snapshot.toArray).machine

theorem takeOver_eq (successor m : Machine) :
    successor.takeOver m =
      { successor with state := m.state, fault? := none, waiting := false } :=
  congrArg Outcome.machine (restore_snapshot successor m)

-- comparing machines that have taken over must not lead to reading snapshots
attribute [irreducible] takeOver

/-- The machine that has taken over after all legs of a relay. -/
def relay (m : Machine) : List Leg → Machine
  | [] => m
  | leg :: legs => (leg.successor.takeOver (m.performAll leg.calls).machine).relay legs

/-- The events of all legs of a relay. -/
def relayHistory (m : Machine) : List Leg → List Event
  | [] => []
  | leg :: legs =>
    m.history leg.calls ++
      (leg.successor.takeOver (m.performAll leg.calls).machine).relayHistory legs

/-- **Taking over neither draws a number nor leaves one out.** -/
theorem Drawn.takeOver (h : Drawn start es m) (successor : Machine) :
    Drawn start es (successor.takeOver m) := by
  refine ⟨h.drawn, ?_⟩
  rw [takeOver_eq]
  exact h.next

theorem Drawn.relay (h : Drawn start es m) {legs : List Leg}
    (hlegs : ∀ leg ∈ legs, ∀ c ∈ leg.calls, c.replacesState = false) :
    Drawn start (es ++ m.relayHistory legs) (m.relay legs) := by
  induction legs generalizing es m with
  | nil => rwa [relayHistory, List.append_nil, Machine.relay]
  | cons leg legs ih =>
    have hleg := (drawn_follows start).performAll h (hlegs leg (by simp))
    rw [relayHistory, ← List.append_assoc]
    exact ih (hleg.takeOver leg.successor) fun leg' hleg' ↦ hlegs leg' (by simp [hleg'])

/-! ### Draws at every moment -/

/-- **Random numbers are exact.** Take any machine, any relay of runs that it starts, with any
machines that take over, any calls that run the last of them or change its keys, and any number of
steps after these. Let there be `n` draws in all this. The stream has kept its key and has moved on
by `n` words, and this is what is saved. The `j`-th draw has put the low byte of the `j`-th word
from the start on into its register, with only the bits of its mask. A draw that comes next will do
so with the `n`-th word. -/
theorem random_draws_exact (m : Machine) {legs : List Leg}
    (hlegs : ∀ leg ∈ legs, ∀ c ∈ leg.calls, c.replacesState = false) {calls : List Call}
    (hc : ∀ c ∈ calls, c.replacesState = false) (k : Nat) :
    let last := m.relay legs
    let now := ((last.performAll calls).machine.steps k).machine
    let drawn := draws (m.relayHistory legs ++ last.eventsUntil calls k)
    let key := m.state.random.key
    let word (j : Nat) : UInt32 :=
      RandomStream.wordAt key (m.state.random.position + BitVec.ofNat 68 j)
    now.state.random.key = key ∧
      (now.snapshot.toList.drop 4410).take 32 = key.toList ∧
      Snapshot.drawnWords now.snapshot.toArray =
        (m.state.random.position.toNat + drawn.length) % 2 ^ 68 ∧
      (∀ j s, drawn[j]? = some s →
        ∃ x mask, Instruction.decode s.fetch = some (.random x mask) ∧
          ∀ d, ((s.execute d).stateAfter s).v x = (word j).toUInt8 &&& mask) ∧
      ∀ x mask, now.fault? = none → Instruction.decode now.state.fetch = some (.random x mask) →
        now.step.result = .ok () ∧
          now.step.machine.state.v x = (word drawn.length).toUInt8 &&& mask := by
  intro last now drawn key word
  have h : Drawn m.state.random (m.relayHistory legs ++ last.eventsUntil calls k) now :=
    (drawn_follows _).until ((Drawn.init m).relay hlegs) hc k
  have hkey : now.state.random.key = key := by
    rw [h.next]
    exact chaCha8.key_after _ _
  refine ⟨hkey, ?_, ?_, fun j s hj ↦ ?_, fun x mask hrunning hi ↦ ?_⟩
  · rw [← hkey]
    exact Snapshot.key_encode (.ofState now.state)
  · have hcount := Snapshot.drawnWords_encode (.ofState now.state)
    have hposition : now.state.random.position.toNat =
        (m.state.random.position.toNat + drawn.length) % 2 ^ 68 := by
      rw [h.next]
      exact chaCha8.toNat_position_after _ _
    rw [show now.snapshot = (Snapshot.ofState now.state).encode from rfl, hcount, ← hposition]
    exact Snapshot.toNat_count_zero _
  · obtain ⟨x, mask, hi⟩ := exists_random_of_mem_draws (List.mem_of_getElem? hj)
    refine ⟨x, mask, hi, fun d ↦ ?_⟩
    rw [State.execute_random hi]
    show (s.drawRandom x mask).v x = _
    rw [State.v_drawRandom, h.fst_draw_eq chaCha8 rfl rfl rfl hj, chaCha8.fst_draw_after]
    rfl
  · rw [step_of_advanced hrunning (State.execute_random hi _)]
    refine ⟨rfl, ?_⟩
    show (now.state.drawRandom x mask).v x = _
    rw [State.v_drawRandom, h.next, chaCha8.fst_draw_after]
    rfl

/-- A program that draws twice. The first number is drawn by a machine with a seed, and the second
by one without a seed or a program that has taken over. -/
theorem random_draws_exact_of_takeOver :
    let m := ((powerOn { seed := some 7 } Rom.empty 0).load #[0xC0, 0xFF, 0xC1, 0x0F] 0).machine
    let legs : List Leg := [⟨[.step], powerOn {} Rom.empty 5⟩]
    let now := m.relay legs
    (∀ leg ∈ legs, ∀ c ∈ leg.calls, c.replacesState = false) ∧
      (draws (m.relayHistory legs)).length = 1 ∧
      now.state.random.key = RandomStream.keyOfSeed 7 ∧
      Snapshot.drawnWords now.snapshot.toArray = 1 ∧ now.step.result = .ok () ∧
      now.step.machine.state.v 1 =
        (RandomStream.wordAt (RandomStream.keyOfSeed 7) 1).toUInt8 &&& 0x0F := by
  have hload := load_of_size_le (m := powerOn { seed := some 7 } Rom.empty 0)
    (show (#[0xC0, 0xFF, 0xC1, 0x0F] : Array UInt8).size ≤ maxRomSize by decide) 0
  have hlegs : ∀ leg ∈ [(⟨[.step], powerOn {} Rom.empty 5⟩ : Leg)],
      ∀ c ∈ leg.calls, c.replacesState = false := by
    simp [Call.replacesState]
  -- only the two words and the stream count about the machine
  have key : ∀ m : Machine, m.fault? = none → m.state.fetch = 0xC0FF →
      m.state.memory.readWord (m.state.pc + 2) = 0xC10F →
      m.state.random = RandomStream.ofSeed 7 →
      let legs : List Leg := [⟨[.step], powerOn {} Rom.empty 5⟩]
      let now := m.relay legs
      (draws (m.relayHistory legs)).length = 1 ∧
        now.state.random.key = RandomStream.keyOfSeed 7 ∧
        Snapshot.drawnWords now.snapshot.toArray = 1 ∧ now.step.result = .ok () ∧
        now.step.machine.state.v 1 =
          (RandomStream.wordAt (RandomStream.keyOfSeed 7) 1).toUInt8 &&& 0x0F := by
    intro m hrunning hfirst hsecond hrandom legs now
    have hdraw : Instruction.decode m.state.fetch = some (.random 0 0xFF) := by
      rw [hfirst]
      decide
    have hstep : m.step = ⟨.ok (), _, #[m.fetchRecord]⟩ :=
      step_of_advanced hrunning (effect_of_decode hdraw)
    have hnow : now = (powerOn {} Rom.empty 5).takeOver m.step.machine := rfl
    rw [hstep, takeOver_eq] at hnow
    have hhistory : m.relayHistory legs = [.executed m.state] := by
      rw [show m.relayHistory legs = m.history [.step] ++ [] from rfl, List.append_nil,
        history_step_of_ok (by rw [hstep])]
    have hdraws : draws (m.relayHistory legs) = [m.state] := by
      rw [hhistory, draws_singleton, Event.draw?_of_random hdraw]
      rfl
    have hfault : now.fault? = none := by rw [hnow]
    have hnext : Instruction.decode now.state.fetch = some (.random 1 0x0F) := by
      have hfetch : now.state.fetch = 0xC10F := by
        rw [hnow]
        exact hsecond
      rw [hfetch]
      decide
    obtain ⟨hkey, -, hwords, -, hlast⟩ := random_draws_exact m hlegs
      (show ∀ c ∈ ([] : List Call), c.replacesState = false by simp) 0
    obtain ⟨hok, hvalue⟩ := hlast 1 0x0F hfault hnext
    have hevents : m.relayHistory legs ++ now.eventsUntil [] 0 = m.relayHistory legs :=
      List.append_nil _
    rw [hevents, hdraws, hrandom] at hwords hvalue
    rw [hrandom] at hkey
    exact ⟨by rw [hdraws]; rfl, hkey, hwords, hok, hvalue⟩
  refine ⟨hlegs, ?_⟩
  have hmachine := congrArg Outcome.machine hload
  refine key _ ?_ ?_ ?_ ?_
  · rw [hmachine]
    rfl
  · rw [hmachine, powerOn, State.fetch_powerOn]
    decide
  · rw [hmachine, powerOn, State.powerOn, Memory.readWord_ofRom_program _ (by decide) (by decide)]
    decide
  · rw [hmachine]
    rfl

-- the number that is drawn after the machine with this seed was taken over
example : (RandomStream.wordAt (RandomStream.keyOfSeed 7) 1).toUInt8 &&& 0x0F = 0x04 := by
  decide +kernel

end Machine

end Chip8
