import Chip8.CommandLine.Files
import Chip8.CommandLine.Options
import Chip8.Machine

/-!
# Runs of the command line

A run goes through stages in this order: it reads the program and loads it, reads the snapshot to
start from and restores it, runs the frames, shows the screen, and writes the snapshot. The first
stage that fails ends the run. So nothing is shown and **no file is touched unless every frame went
through**, and the screen is shown even if the snapshot cannot be written.

`start` and `finish` are the stages that use files; `play` is the one between them and uses none.
-/

namespace Chip8

namespace CommandLine

/-- Why a run failed. -/
inductive RunError where
  | unreadableRom (path : String) (error : FileError)
  | oversizedRom (error : OversizedRom)
  | unreadableSnapshot (path : String) (error : FileError)
  | badSnapshot (error : SnapshotError)
  | fault (fault : Fault)
  /-- A run without a number of frames needs a window. -/
  | noDisplay
  | unwritableSnapshot (path : String) (error : FileError)
  deriving DecidableEq, Repr

namespace RunError

/-- What failed. -/
def message : RunError → String
  | unreadableRom path _ => s!"failed to read ROM {path}"
  | oversizedRom e => e.message
  | unreadableSnapshot path _ => s!"failed to read snapshot {path}"
  | badSnapshot e => e.message
  | fault f => f.message
  | noDisplay => "there is no display for a window"
  | unwritableSnapshot path _ => s!"failed to write snapshot {path}"

/-- What made it fail, if that is not said by the message. -/
def cause? : RunError → Option String
  | unreadableRom _ e => some e.message
  | unreadableSnapshot _ e => some e.message
  | unwritableSnapshot _ e => some e.message
  | _ => none

/-- The report on an error. -/
def report (e : RunError) : String :=
  match e.cause? with
  | some cause => s!"Error: {e.message}\n\nCaused by:\n    {cause}\n"
  | none => s!"Error: {e.message}\n"

end RunError

/-- How a list of arguments ends. -/
inductive Ending where
  /-- No machine was started. -/
  | refused (refusal : Refusal)
  /-- All stages went through, and this was shown. -/
  | finished (output : String)
  /-- A stage failed after this was shown. -/
  | failed (output : String) (error : RunError)
  deriving DecidableEq, Repr

/-- The exit code of an ending. -/
def Ending.exitCode : Ending → UInt8
  | refused .helpRequested => 0
  | refused _ => 2
  | finished _ => 0
  | failed _ _ => 1

/-! ### Stages -/

/-- A machine that was just switched on with the bytes of a program. -/
def boot (o : Options) (bytes : Array UInt8) (entropy : UInt64) : Except RunError Machine :=
  let outcome := (Machine.powerOn o.config Rom.empty entropy).load bytes entropy
  match outcome.result with
  | .ok _ => .ok outcome.machine
  | .error e => .error (.oversizedRom e)

/-- A machine that goes on from the bytes of a snapshot. -/
def resume (machine : Machine) (bytes : Array UInt8) : Except RunError Machine :=
  let outcome := machine.restore bytes
  match outcome.result with
  | .ok _ => .ok outcome.machine
  | .error e => .error (.badSnapshot e)

/-- A machine after a number of frames. -/
def play (machine : Machine) : Option UInt64 → Except RunError Machine
  | none => .error .noDisplay
  | some frames =>
    let outcome := machine.runFrames frames.toNat
    match outcome.result.fault? with
    | none => .ok outcome.machine
    | some f => .error (.fault f)

variable {m : Type → Type} [Monad m]

/-- Read the program and load it, and read the snapshot to start from and restore it. -/
def start (files : Files m) (o : Options) (entropy : UInt64) : m (Except RunError Machine) := do
  match ← files.read o.rom with
  | .error e => return .error (.unreadableRom o.rom e)
  | .ok program =>
    match boot o program entropy, o.loadState with
    | .error e, _ => return .error e
    | .ok machine, none => return .ok machine
    | .ok machine, some path =>
      match ← files.read path with
      | .error e => return .error (.unreadableSnapshot path e)
      | .ok bytes => return resume machine bytes

/-- Show the screen, and write the snapshot. -/
def finish (files : Files m) (o : Options) (machine : Machine) : m Ending := do
  let output := machine.screen.text
  match o.saveState with
  | none => return .finished output
  | some path =>
    match ← files.write path machine.snapshot.toArray with
    | .ok _ => return .finished output
    | .error e => return .failed output (.unwritableSnapshot path e)

/-- All stages of a run. -/
def run (files : Files m) (o : Options) (entropy : UInt64) : m Ending := do
  match ← start files o entropy with
  | .error e => return .failed "" e
  | .ok machine =>
    match play machine o.frames with
    | .error e => return .failed "" e
    | .ok machine' => finish files o machine'

/-- Do what a list of arguments asks for. -/
def invoke (files : Files m) (arguments : List String) (entropy : UInt64) : m Ending :=
  match Options.parse arguments with
  | .ok o => run files o entropy
  | .error refusal => return .refused refusal

end CommandLine

end Chip8
