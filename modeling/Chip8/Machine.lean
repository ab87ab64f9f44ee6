import Chip8.Execution
import Chip8.Log
import Chip8.Snapshot

/-!
# The machine

A `Machine` is a state together with what is chosen once (the configuration), what is kept for a
restart (the program), the fault that has **halted** it, and whether it is known to wait for a key.
A halted machine executes nothing: every step gives the same fault again, until a program is loaded,
the machine is reset, or a snapshot is restored.

Every operation is a function that returns an `Outcome`: the answer, the machine afterwards, and the
records it reports, in order. An operation that fails leaves the state as it was.

Randomness comes from outside. A machine whose configuration has a seed starts its random stream
from the seed; for any other the operations that switch a machine on take a seed as `entropy`.
-/

namespace Chip8

/-- A machine between two operations. -/
structure Machine where
  config : Config
  /-- The last program that was loaded. -/
  rom : Rom
  state : State
  /-- The fault that has halted the machine. -/
  fault? : Option Fault
  /-- An instruction waits for a key, and this was reported. -/
  waiting : Bool
  deriving DecidableEq, Repr

/-- An answer, the machine that gave it, and what was reported on the way. -/
structure Outcome (α : Type) where
  result : α
  machine : Machine
  log : Array Record
  deriving DecidableEq, Repr

/-- Change the answer of an outcome. -/
def Outcome.map {α β : Type} (f : α → β) (o : Outcome α) : Outcome β where
  result := f o.result
  machine := o.machine
  log := o.log

namespace Machine

/-! ### Switching on -/

/-- A machine that was switched on with a program. -/
def powerOn (config : Config) (rom : Rom) (entropy : UInt64) : Machine where
  config := config
  rom := rom
  state := State.powerOn rom (config.seed.getD entropy)
  fault? := none
  waiting := false

/-- Load a program into a machine that is switched off and on again. A program that does not fit
changes nothing. -/
def load (m : Machine) (bytes : Array UInt8) (entropy : UInt64) :
    Outcome (Except OversizedRom Unit) :=
  match Rom.ofBytes bytes with
  | .ok rom => ⟨.ok (), powerOn m.config rom entropy, #[.loaded bytes.size]⟩
  | .error e => ⟨.error e, m, #[]⟩

/-- Switch a machine off and on again, and load its program once more. -/
def reset (m : Machine) (entropy : UInt64) : Outcome Unit :=
  ⟨(), powerOn m.config m.rom entropy, #[.reset]⟩

/-! ### Running -/

/-- What is reported when the machine waits for a key: nothing if it was waiting already. -/
def waitingRecord (m : Machine) : Array Record :=
  if m.waiting then #[] else #[.waiting m.state.pc]

/-- Execute one instruction, in a machine that is not halted. -/
def stepRunning (m : Machine) : Outcome (Except Fault Unit) :=
  let fetched := Record.fetched m.state.pc m.state.fetch
  match m.state.execute m.config.dialect with
  | .advanced s => ⟨.ok (), { m with state := s }, #[fetched]⟩
  | .answered s => ⟨.ok (), { m with state := s, waiting := false }, #[fetched]⟩
  | .stalled => ⟨.ok (), { m with waiting := true }, #[fetched] ++ m.waitingRecord⟩
  | .faulted f => ⟨.error f, { m with fault? := some f }, #[fetched, .halting f]⟩

/-- Execute one instruction. A halted machine gives its fault again. -/
def step (m : Machine) : Outcome (Except Fault Unit) :=
  match m.fault? with
  | some f => ⟨.error f, m, #[]⟩
  | none => m.stepRunning

/-- How a series of calls ended: how many succeeded, and the fault after them, if there was one. -/
structure Tally where
  completed : Nat
  fault? : Option Fault
  deriving DecidableEq, Repr

/-- Make a call until it has faulted or succeeded `n` more times, with the calls before counted in
`completed` and reported in `log`. -/
@[specialize] def series {α : Type} (call : Machine → Outcome (Except Fault α)) :
    (n completed : Nat) → (log : Array Record) → Machine → Outcome Tally
  | 0, completed, log, m => ⟨⟨completed, none⟩, m, log⟩
  | n + 1, completed, log, m =>
    match call m with
    | ⟨.ok _, m', new⟩ => series call n (completed + 1) (log ++ new) m'
    | ⟨.error f, m', new⟩ => ⟨⟨completed, some f⟩, m', log ++ new⟩

/-- **What was counted and reported before has no influence on a series**: it only stands in front
of what the series adds. -/
theorem series_eq {α : Type} (call : Machine → Outcome (Except Fault α)) (n completed : Nat)
    (log : Array Record) (m : Machine) :
    series call n completed log m =
      let o := series call n 0 #[] m
      ⟨⟨completed + o.result.completed, o.result.fault?⟩, o.machine, log ++ o.log⟩ := by
  induction n generalizing completed log m with
  | zero => simp [series]
  | succ n ih =>
    simp only [series]
    split
    next m' new h =>
      rw [ih (completed + 1), ih (0 + 1)]
      simp [Nat.add_assoc]
    next f m' new h => simp

/-- Execute up to `n` instructions, and stop at the first fault. -/
def steps (m : Machine) (n : Nat) : Outcome Tally :=
  series step n 0 #[] m

/-- Execute the instructions of one frame, let the timers tick, and show the screen. A fault ends
the frame before the tick. -/
def runFrame (m : Machine) : Outcome (Except Fault Screen) :=
  match m.steps m.config.stepsPerFrame with
  | ⟨⟨_, none⟩, m', log⟩ => ⟨.ok m'.state.screen, { m' with state := m'.state.tick }, log⟩
  | ⟨⟨_, some f⟩, m', log⟩ => ⟨.error f, m', log⟩

/-- Run up to `n` frames, and stop at the first fault. -/
def runFrames (m : Machine) (n : Nat) : Outcome Tally :=
  series runFrame n 0 #[] m

/-! ### Keys and snapshots -/

/-- Replace the states of all keys. Any number of states but sixteen changes nothing. -/
def setKeys (m : Machine) (keys : List Bool) : Outcome (Except WrongKeyCount Unit) :=
  match Keypad.ofList keys with
  | .ok keypad => ⟨.ok (), { m with state := { m.state with keypad := keypad } }, #[]⟩
  | .error e => ⟨.error e, m, #[]⟩

/-- The written form of the state. -/
def snapshot (m : Machine) : Vector UInt8 Snapshot.size :=
  (Snapshot.ofState m.state).encode

/-- Go on from a snapshot. Bytes that are none change nothing. -/
def restore (m : Machine) (bytes : Array UInt8) : Outcome (Except SnapshotError Unit) :=
  match Snapshot.decode bytes with
  | .ok s =>
    let machine := { m with state := s.state, fault? := none, waiting := false }
    ⟨.ok (), machine, #[.restored s.state.pc]⟩
  | .error e => ⟨.error e, m, #[]⟩

/-! ### Views -/

/-- Whether a fault has halted the machine. -/
def isHalted (m : Machine) : Bool :=
  m.fault?.isSome

/-- The screen as it is now. -/
def screen (m : Machine) : Screen :=
  m.state.screen

/-- Whether the tone sounds. -/
def soundActive (m : Machine) : Bool :=
  m.state.timers.soundActive

/-- The delay timer. -/
def delay (m : Machine) : UInt8 :=
  m.state.timers.delay

/-- The state of every key. -/
def keys (m : Machine) : List Bool :=
  m.state.keypad.toList

end Machine

end Chip8
