import Chip8.Machine

/-!
# Sessions

A session is a list of calls made on a machine one after the other. `Call` has one constructor for
each operation that a machine offers, with its arguments, and `Response` one for each kind of
answer, so that what holds for every use of a machine can be said of every list of calls.
-/

namespace Chip8

/-- An operation on a machine, with its arguments. -/
inductive Call where
  | load (bytes : Array UInt8) (entropy : UInt64)
  | reset (entropy : UInt64)
  | step
  | runFrame
  | setKeys (keys : List Bool)
  | restore (bytes : Array UInt8)
  | screen
  | snapshot
  deriving DecidableEq, Repr

/-- The answer to a call. -/
inductive Response where
  | done
  | shown (screen : Screen)
  | saved (bytes : Vector UInt8 Snapshot.size)
  | faulted (fault : Fault)
  | refusedRom (error : OversizedRom)
  | refusedKeys (error : WrongKeyCount)
  | refusedSnapshot (error : SnapshotError)
  deriving DecidableEq, Repr

/-- The answer to a call that either succeeds or is refused. -/
def Response.ofExcept {ε α : Type} (refused : ε → Response) (accepted : α → Response) :
    Except ε α → Response
  | .ok a => accepted a
  | .error e => refused e

namespace Machine

/-- Make one call. Looking at the screen or the state changes nothing and reports nothing. -/
def perform (m : Machine) : Call → Outcome Response
  | .load bytes entropy => (m.load bytes entropy).map (.ofExcept .refusedRom fun _ ↦ .done)
  | .reset entropy => (m.reset entropy).map fun _ ↦ .done
  | .step => m.step.map (.ofExcept .faulted fun _ ↦ .done)
  | .runFrame => m.runFrame.map (.ofExcept .faulted .shown)
  | .setKeys keys => (m.setKeys keys).map (.ofExcept .refusedKeys fun _ ↦ .done)
  | .restore bytes => (m.restore bytes).map (.ofExcept .refusedSnapshot fun _ ↦ .done)
  | .screen => ⟨.shown m.screen, m, #[]⟩
  | .snapshot => ⟨.saved m.snapshot, m, #[]⟩

/-- Make calls one after the other: their answers, the machine after the last one, and all that was
reported. -/
def performAll (m : Machine) : List Call → Outcome (List Response)
  | [] => ⟨[], m, #[]⟩
  | c :: cs =>
    let first := m.perform c
    let rest := first.machine.performAll cs
    ⟨first.result :: rest.result, rest.machine, first.log ++ rest.log⟩

@[simp] theorem performAll_nil (m : Machine) : m.performAll [] = ⟨[], m, #[]⟩ := rfl

end Machine

end Chip8
