import Chip8.Proofs.Erasure
import Chip8.Proofs.PowerOn

/-!
# What a seed has an influence on

A seed is spread over the key of the random stream, and the key is read by `CXNN` alone. With a mask
of zero even `CXNN` does not: it draws a number, so the position goes on, and puts zero into its
register. `Erasure.randomKey` forgets the key, and the only instructions that read it are draws with
another mask.

Two machines that differ in their seeds and keys therefore run **in lockstep as long as one of them
makes no such draw**. Unlike a single run this may go on over resets and new programs, where both
machines get new keys: `SameButSeed.perform` has these calls as further cases.
-/

namespace Chip8

/-- Only a draw with a mask that is not zero reads the key of the random stream. -/
def Erasure.randomKey : Erasure where
  forget s := s.withDevices s.timers { s.random with key := Vector.replicate 32 0 }
  reads i := ∃ x mask, i = .random x mask ∧ mask ≠ 0
  pc _ := rfl
  fetch _ := rfl
  screen _ := rfl
  perform d s i h := by
    cases i with
    | random x mask =>
      obtain rfl : mask = 0 := by_contra fun hmask ↦ h ⟨x, mask, rfl, hmask⟩
      simp only [State.perform, State.drawRandom, UInt8.and_zero]
      rfl
    | readDelay _ | setDelay _ | setSound _ => rfl
    | _ => exact State.map_perform_withDevices d rfl fun _ ↦ rfl
  result d s i h := by
    obtain ⟨x, mask, rfl, -⟩ := h
    rfl
  tick _ := rfl
  keys _ _ := rfl

/-- The calls ask for the same. What they bring along for machines without a seed may differ. -/
inductive Call.SameRequest : Call → Call → Prop
  | run (c : Call) (hc : c.replacesState = false) (hs : c ≠ .snapshot) : SameRequest c c
  | load (bytes : Array UInt8) (entropy entropy' : UInt64) :
    SameRequest (.load bytes entropy) (.load bytes entropy')
  | reset (entropy entropy' : UInt64) : SameRequest (.reset entropy) (.reset entropy')

namespace Machine

/-- The machine with another seed in its configuration and another key of its random stream. -/
def reseeded (m : Machine) (seed : Option UInt64) (key : ChaCha.Key) : Machine :=
  { m.withRandomKey key with config := { m.config with seed := seed } }

/-- The machines are the same, but for their seeds and the keys of their random streams. -/
structure SameButSeed (a b : Machine) : Prop where
  same : Erasure.randomKey.Same a b
  config : b.config = { a.config with seed := b.config.seed }
  rom : a.rom = b.rom
  waiting : a.waiting = b.waiting

variable {a b : Machine}

theorem forget_withRandomKey (m : Machine) (key : ChaCha.Key) :
    Erasure.randomKey.forget (m.withRandomKey key).state = Erasure.randomKey.forget m.state :=
  rfl

/-- Machines that were just switched on with the same program are in the same state, but for the
key. -/
theorem forget_of_poweredOn {config config' : Config} {bytes : Array UInt8} {seed seed' : UInt64}
    (ha : PoweredOn config bytes seed a) (hb : PoweredOn config' bytes seed' b) :
    Erasure.randomKey.forget a.state = Erasure.randomKey.forget b.state := by
  have hb' : PoweredOn config bytes seed' { b with config := config } :=
    { hb with config_eq := rfl }
  rw [ha.eq_withRandomKey hb', forget_withRandomKey]

theorem sameButSeed_reseeded (a : Machine) (seed : Option UInt64) (key : ChaCha.Key) :
    SameButSeed a (a.reseeded seed key) where
  same := ⟨rfl, rfl, rfl⟩
  config := rfl
  rom := rfl
  waiting := rfl

namespace SameButSeed

theorem eq_reseeded (h : SameButSeed a b) :
    b = a.reseeded b.config.seed b.state.random.key := by
  -- the key of `b` put back into what both states have in common
  have hstate := congrArg (fun s : State ↦
    { s with random := { s.random with key := b.state.random.key } }) h.same.state
  rw [Machine.mk.injEq]
  exact ⟨h.config, h.rom.symm, hstate.symm, h.same.fault?.symm, h.waiting.symm⟩

theorem powerOn (h : SameButSeed a b) (rom : Rom) (entropy entropy' : UInt64) :
    SameButSeed (powerOn a.config rom entropy) (powerOn b.config rom entropy') where
  same :=
    { state := forget_of_poweredOn (poweredOn_powerOn _ rom _) (poweredOn_powerOn _ rom _)
      dialect := h.same.dialect
      fault? := rfl }
  config := h.config
  rom := rfl
  waiting := rfl

/-- **They run in lockstep**, as long as the first one makes no draw that shows the key. -/
theorem lockstepWhile : LockstepWhile Erasure.randomKey.Ignores Eq Eq SameButSeed where
  logs := logRelation_eq
  step {a b} h hok := by
    obtain ⟨hresult, hsame, hreport⟩ := h.same.step hok
    obtain ⟨hlog, hwaiting⟩ := hreport h.waiting
    refine ⟨answersAgree_of_eq hresult, hlog, hsame, ?_, ?_, hwaiting⟩
    · rw [config_step, config_step]
      exact h.config
    · rw [rom_step, rom_step]
      exact h.rom
  tick h _ _ := { h with same := h.same.tick }
  keys h k := { h with same := h.same.withKeypad k }
  stepsPerFrame h := by
    rw [h.config]
    rfl
  screen h := h.same.screen

/-- Switching both on again gives both new keys. -/
theorem perform (h : SameButSeed a b) {c d : Call} (hcd : Call.SameRequest c d)
    (hG : Admits Erasure.randomKey.Ignores (a.events c)) :
    Response.Agrees Eq (a.perform c).result (b.perform d).result ∧
      (a.perform c).log = (b.perform d).log ∧
      SameButSeed (a.perform c).machine (b.perform d).machine := by
  cases hcd with
  | run _ hc hs => exact lockstepWhile.perform h hc hs hG
  | load bytes entropy entropy' =>
    rw [Machine.perform, Machine.perform, Outcome.map, Outcome.map]
    rcases Nat.lt_or_ge maxRomSize bytes.size with hlt | hle
    · rw [load_of_lt_size hlt, load_of_lt_size hlt]
      exact ⟨.same _, rfl, h⟩
    · rw [load_of_size_le hle, load_of_size_le hle]
      exact ⟨.same _, rfl, h.powerOn _ _ _⟩
  | reset entropy entropy' =>
    refine ⟨.same _, rfl, ?_⟩
    rw [machine_perform_reset, machine_perform_reset, h.rom]
    exact h.powerOn _ _ _

end SameButSeed

/-- **A seed shows in draws only.** Take any machine, and the same machine with another seed and
another key of its random stream. Make calls on both that run them, change their keys, load programs
or reset them, and let the entropy that comes with a call differ. If every random number that the
first machine draws is masked with zero, then all answers and all records are the same. So are the
machines, but for the seed and the key, and their snapshots, but for the 32 bytes of the key. -/
theorem runs_independent_of_seed (a : Machine) (seed : Option UInt64) (key : ChaCha.Key)
    {calls calls' : List Call} (hcalls : List.Forall₂ Call.SameRequest calls calls')
    (hmask : ∀ s, .executed s ∈ a.history calls →
      ∀ x mask, Instruction.decode s.fetch = some (.random x mask) → mask = 0) :
    let o := a.performAll calls
    let p := (a.reseeded seed key).performAll calls'
    o.result = p.result ∧ o.log = p.log ∧
      p.machine = o.machine.reseeded seed p.machine.state.random.key ∧
      o.machine.state.random.position = p.machine.state.random.position ∧
      ∀ i, i < 4410 ∨ 4442 ≤ i → o.machine.snapshot.toList[i]? = p.machine.snapshot.toList[i]? := by
  intro o p
  have hG : Admits Erasure.randomKey.Ignores (a.history calls) := by
    rintro s hs i hi ⟨x, mask, rfl, hne⟩
    exact hne (hmask s hs x mask hi)
  obtain ⟨hanswers, hlog, hlast⟩ := performAll_related (R := SameButSeed) logRelation_eq
    (fun h hcd hG ↦ h.perform hcd hG) (sameButSeed_reseeded a seed key) hcalls hG
  have hseed : p.machine.config.seed = seed := by
    rw [show p.machine.config = (a.reseeded seed key).config from config_performAll _ _]
    rfl
  have hmachine : p.machine = o.machine.reseeded seed p.machine.state.random.key := by
    rw [← hseed]
    exact hlast.eq_reseeded
  refine ⟨eq_of_forall₂_agrees hanswers, hlog, hmachine, ?_, fun i hi ↦ ?_⟩
  · rw [hmachine]
    rfl
  · rw [hmachine]
    exact (Snapshot.getElem?_encode_withKey o.machine.state _ hi).symm

/-- Two machines load a program that draws a number with a mask of zero, each with a key of its own,
and draw it. -/
theorem runs_independent_of_seed_of_masked :
    let a := powerOn {} Rom.empty 0
    let b := a.reseeded (some 7) (Vector.replicate 32 1)
    let o := a.performAll [.load #[0xC0, 0x00] 1, .step]
    let p := b.performAll [.load #[0xC0, 0x00] 2, .step]
    List.Forall₂ Call.SameRequest [.load #[0xC0, 0x00] 1, .step] [.load #[0xC0, 0x00] 2, .step] ∧
      o.result = p.result ∧ o.log = p.log ∧ o.machine.state.random.position = 1 ∧
      p.machine.state.random.position = 1 := by
  have hload := load_of_size_le (m := powerOn {} Rom.empty 0)
    (show (#[0xC0, 0x00] : Array UInt8).size ≤ maxRomSize by decide) 1
  have hcalls : List.Forall₂ Call.SameRequest [.load #[0xC0, 0x00] 1, .step]
      [.load #[0xC0, 0x00] 2, .step] :=
    .cons (.load _ 1 2) (.cons (.run .step rfl (by simp)) .nil)
  -- only the word and the position count about the machine that has loaded the program
  have key : ∀ a m : Machine, (a.perform (.load #[0xC0, 0x00] 1)).machine = m → m.fault? = none →
      m.state.fetch = 0xC000 → m.state.random.position = 0 →
      (∀ s, .executed s ∈ a.history [.load #[0xC0, 0x00] 1, .step] →
        ∀ x mask, Instruction.decode s.fetch = some (.random x mask) → mask = 0) ∧
      (a.performAll [.load #[0xC0, 0x00] 1, .step]).machine.state.random.position = 1 := by
    intro a m hm hrunning hfirst hposition
    have hdraw : Instruction.decode m.state.fetch = some (.random 0 0) := by
      rw [hfirst]
      decide
    have hstep : m.step = ⟨.ok (), _, #[m.fetchRecord]⟩ :=
      step_of_advanced hrunning (effect_of_decode hdraw)
    have hhistory : a.history [.load #[0xC0, 0x00] 1, .step] = [.executed m.state] := by
      have hnone : a.events (.load #[0xC0, 0x00] 1) = [] := rfl
      rw [history, hnone, List.nil_append, hm, history_step_of_ok (by rw [hstep])]
    refine ⟨fun s hs x mask hi ↦ ?_, ?_⟩
    · rw [hhistory, List.mem_singleton] at hs
      rw [Event.executed.inj hs, hdraw, Option.some.injEq, Instruction.random.injEq] at hi
      exact hi.2.symm
    · rw [performAll, performAll, performAll, hm, machine_perform_step, hstep]
      show m.state.random.position + 1 = 1
      rw [hposition]
      rfl
  have hmachine := congrArg Outcome.machine hload
  obtain ⟨hmask, hposition⟩ := key _ _ hmachine rfl
    (by rw [powerOn, State.fetch_powerOn]; decide) rfl
  obtain ⟨hresult, hlog, -, hsame, -⟩ :=
    runs_independent_of_seed (powerOn {} Rom.empty 0) (some 7) (Vector.replicate 32 1) hcalls hmask
  exact ⟨hcalls, hresult, hlog, hposition, hsame.symm.trans hposition⟩

end Machine

end Chip8
