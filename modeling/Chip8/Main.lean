import Chip8.CommandLine.Run

/-!
# The command

The outer layer: it hands the arguments and the files of the computer to `CommandLine.invoke`,
prints what that shows, and ends with its exit code.
-/

namespace Chip8

namespace Main

/-- The reason why the computer refused to do something to a file. Some of its calls negate the
number of the reason. -/
def fileError (e : IO.Error) : FileError :=
  let positive (code : UInt32) : Nat := (min code (0 - code)).toNat
  match e with
  | .noFileOrDirectory _ _ _ => .notFound
  | .noSuchThing _ _ _ => .notFound
  | .inappropriateType _ code _ =>
    if positive code = FileError.notADirectory.code then .notADirectory else .isADirectory
  | .invalidArgument _ code _ =>
    if positive code = FileError.nameTooLong.code then .nameTooLong
    else ⟨positive code, "Invalid argument"⟩
  | .permissionDenied _ code _ => ⟨positive code, "Permission denied"⟩
  | other => ⟨0, toString other⟩

/-- The files of the computer. -/
def files : Files IO where
  read path := do
    try
      return .ok (← IO.FS.readBinFile path).data
    catch e =>
      return .error (fileError e)
  write path bytes := do
    try
      IO.FS.writeBinFile path ⟨bytes⟩
      return .ok ()
    catch e =>
      return .error (fileError e)

/-- A seed for machines without one. -/
def entropy : IO UInt64 := do
  let bytes ← IO.getRandomBytes 8
  return bytes.data.foldl (fun n b ↦ 256 * n + b.toUInt64) 0

/-- How the command is used, line by line. -/
def usage : List String :=
  ["Run a CHIP-8 program",
   "",
   "Usage: chip8 [OPTIONS] <ROM>",
   "",
   "Options:",
   "  --clock-rate <N>             instructions per second, 600 by default",
   "  --cosmac-vip                 behave like the COSMAC VIP",
   "  --shift-uses-vy              8XY6 and 8XYE shift VY",
   "  --load-store-advances-index  FX55 and FX65 move I",
   "  --seed <N>                   seed of the random numbers",
   "  --frames <N>                 run this many frames and print the screen",
   "  --load-state <PATH>          start from a snapshot",
   "  --save-state <PATH>          write a snapshot at the end",
   "  -h, --help                   print this text"]

/-- Print what an ending shows. -/
def announce (ending : CommandLine.Ending) : IO Unit :=
  match ending with
  | .refused .helpRequested => usage.forM IO.println
  | .refused refusal => IO.eprintln s!"error: {refusal.message}"
  | .finished output => IO.print output
  | .failed output e => do
    IO.print output
    IO.eprint e.report

end Main

end Chip8

/-- Run the command. -/
def main (arguments : List String) : IO UInt32 := do
  let ending ← Chip8.CommandLine.invoke Chip8.Main.files arguments (← Chip8.Main.entropy)
  Chip8.Main.announce ending
  return ending.exitCode.toUInt32
