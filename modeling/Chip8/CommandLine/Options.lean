import Chip8.CommandLine.Numeral
import Chip8.Config

/-!
# Options of the command line

Arguments are read from left to right. An argument that starts with two dashes is a flag or a
setting; a setting takes a value, behind an equals sign or as the next argument. The one argument
that remains is the path of the program. After `--` every argument is such a path, also one that
starts with a dash. Every flag and every setting is given at most once.

A value that stands alone, and the path, are **settled late**: they are remembered, and checked
when the next argument has been recognised or the arguments end. So an argument that cannot be
recognised is reported before a bad value in front of it, and a bad value before whatever a good
argument behind it leads to. The rules that this comes to are those of an `ArgumentParser`.

| what                     | example          |
|--------------------------|------------------|
| flag                     | `--cosmac-vip`   |
| setting with its value   | `--seed=7`       |
| setting and value apart  | `--seed 7`       |
| path                     | `game.ch8`       |
-/

namespace Chip8

namespace CommandLine

/-! ### Flags and settings -/

/-- An option without a value. -/
inductive Flag where
  | cosmacVip
  | shiftUsesVy
  | loadStoreAdvancesIndex
  deriving DecidableEq, Repr

/-- An option with a value. -/
inductive Setting where
  | clockRate
  | seed
  | frames
  | loadState
  | saveState
  deriving DecidableEq, Repr

namespace Flag

/-- Every flag. -/
def all : List Flag := [cosmacVip, shiftUsesVy, loadStoreAdvancesIndex]

/-- What stands behind the dashes. -/
def name : Flag → String
  | cosmacVip => "cosmac-vip"
  | shiftUsesVy => "shift-uses-vy"
  | loadStoreAdvancesIndex => "load-store-advances-index"

end Flag

namespace Setting

/-- Every setting. -/
def all : List Setting := [clockRate, seed, frames, loadState, saveState]

/-- What stands behind the dashes. -/
def name : Setting → String
  | clockRate => "clock-rate"
  | seed => "seed"
  | frames => "frames"
  | loadState => "load-state"
  | saveState => "save-state"

end Setting

/-- What the name of an option stands for. -/
inductive Named where
  | help
  | flag (f : Flag)
  | setting (s : Setting)
  deriving DecidableEq, Repr

/-- The option with this name, if there is one. -/
def named? (name : List Char) : Option Named :=
  if name = "help".toList then some .help
  else match Flag.all.find? fun f ↦ name = f.name.toList with
    | some f => some (.flag f)
    | none => (Setting.all.find? fun s ↦ name = s.name.toList).map .setting

/-- Every flag answers to its name. -/
theorem named?_flag (f : Flag) : named? f.name.toList = some (.flag f) := by
  cases f <;> decide

/-- Every setting answers to its name. -/
theorem named?_setting (s : Setting) : named? s.name.toList = some (.setting s) := by
  cases s <;> decide

/-! ### Results -/

/-- What a list of arguments asks for. -/
structure Options where
  /-- The path of the program. -/
  rom : String
  flags : List Flag
  clockRate : Option UInt32
  seed : Option UInt64
  frames : Option UInt64
  /-- The path of the snapshot to start from. -/
  loadState : Option String
  /-- The path of the snapshot to write at the end. -/
  saveState : Option String
  deriving DecidableEq, Repr

/-- The dialect that flags ask for. -/
def dialectOf (flags : List Flag) : Dialect :=
  if flags.contains .cosmacVip then Dialect.cosmacVip
  else
    { shiftReadsY := flags.contains .shiftUsesVy
      transferMovesIndex := flags.contains .loadStoreAdvancesIndex }

/-- The configuration of the machine that arguments ask for. -/
def Options.config (o : Options) : Config where
  clockRate := o.clockRate.getD ({} : Config).clockRate
  dialect := dialectOf o.flags
  seed := o.seed

/-- Why no machine is started. -/
inductive Refusal where
  /-- The arguments ask for help. -/
  | helpRequested
  /-- There is no path of a program. -/
  | missingRom
  /-- The argument is no option, or it is a second path. -/
  | unknown (argument : String)
  /-- The setting has no value. -/
  | missingValue (setting : Setting)
  /-- A path has no character. -/
  | emptyPath
  /-- The value of the setting is no number in its range. -/
  | notANumber (setting : Setting) (value : String)
  /-- The option was given before. -/
  | repeated (option : String)
  /-- The option takes no value, but was given one. -/
  | unexpectedValue (option : String)
  deriving DecidableEq, Repr

/-- The text of a refusal. -/
def Refusal.message : Refusal → String
  | helpRequested => "help was asked for"
  | missingRom => "the path of a program is missing"
  | unknown argument => s!"unexpected argument {argument}"
  | missingValue setting => s!"--{setting.name} needs a value"
  | emptyPath => "a path must not be empty"
  | notANumber setting value => s!"--{setting.name} takes a number, not {value}"
  | repeated option => s!"--{option} is given more than once"
  | unexpectedValue option => s!"--{option} takes no value"

/-! ### Settling -/

/-- The options settled so far. -/
structure Draft where
  rom : Option String := none
  flags : List Flag := []
  clockRate : Option UInt32 := none
  seed : Option UInt64 := none
  frames : Option UInt64 := none
  loadState : Option String := none
  saveState : Option String := none
  deriving DecidableEq, Repr

/-- The last argument, if it is still to be settled. -/
inductive Pending where
  | nothing
  /-- A setting whose value is the next argument. -/
  | awaiting (setting : Setting)
  /-- A setting and the argument that is its value. -/
  | value (setting : Setting) (text : String)
  /-- The path of the program. -/
  | rom (path : String)
  deriving DecidableEq, Repr

namespace Draft

/-- Whether a setting has a value. -/
def has (d : Draft) : Setting → Bool
  | .clockRate => d.clockRate.isSome
  | .seed => d.seed.isSome
  | .frames => d.frames.isSome
  | .loadState => d.loadState.isSome
  | .saveState => d.saveState.isSome

/-- Read a path. -/
def path (text : String) : Except Refusal String :=
  if text.toList = [] then .error .emptyPath else .ok text

/-- Read a number for a setting. -/
def number (setting : Setting) (text : String) (value : Option Nat) : Except Refusal Nat :=
  match value with
  | some n => .ok n
  | none => .error (.notANumber setting text)

/-- Read the value of a setting that has none yet. -/
def assign (d : Draft) (setting : Setting) (text : String) : Except Refusal Draft :=
  match setting with
  | .clockRate => do
    let n ← number setting text (rate? UInt32.size text.toList)
    return { d with clockRate := some (UInt32.ofNat n) }
  | .seed => do
    let n ← number setting text (count? UInt64.size text.toList)
    return { d with seed := some (UInt64.ofNat n) }
  | .frames => do
    let n ← number setting text (count? UInt64.size text.toList)
    return { d with frames := some (UInt64.ofNat n) }
  | .loadState => do
    let p ← path text
    return { d with loadState := some p }
  | .saveState => do
    let p ← path text
    return { d with saveState := some p }

/-- Give a setting its value, unless it has one. -/
def set (d : Draft) (setting : Setting) (text : String) : Except Refusal Draft :=
  if d.has setting then .error (.repeated setting.name) else d.assign setting text

/-- Give a flag, unless it was given before. -/
def raise (d : Draft) (flag : Flag) : Except Refusal Draft :=
  if d.flags.contains flag then .error (.repeated flag.name)
  else .ok { d with flags := flag :: d.flags }

/-- Settle what is pending. -/
def settle (d : Draft) : Pending → Except Refusal Draft
  | .nothing => .ok d
  | .awaiting setting => .error (.missingValue setting)
  | .value setting text => d.set setting text
  | .rom text => do
    let p ← path text
    return { d with rom := some p }

end Draft

/-! ### Reading -/

/-- What the arguments up to some point have come to. -/
structure Reading where
  draft : Draft := {}
  pending : Pending := .nothing
  deriving DecidableEq, Repr

namespace Reading

/-- Settle what is pending. -/
def settled (r : Reading) : Except Refusal Draft :=
  r.draft.settle r.pending

/-- Whether the path of the program was given. -/
def hasRom (r : Reading) : Bool :=
  match r.pending with
  | .rom _ => true
  | _ => r.draft.rom.isSome

/-- Read a path. -/
def readPath (r : Reading) (argument : String) : Except Refusal Reading :=
  if r.hasRom then .error (.unknown argument)
  else do
    let d ← r.settled
    return ⟨d, .rom argument⟩

/-- Read an option that starts with two dashes, by its name and the value behind its equals sign. -/
def readOption (r : Reading) (argument : String) (name : List Char) (attached : Option String) :
    Except Refusal Reading :=
  match named? name, attached with
  | none, _ => .error (.unknown argument)
  | some (.setting s), none => do
    let d ← r.settled
    return ⟨d, .awaiting s⟩
  | some (.setting s), some text => do
    let d ← r.settled
    let d' ← d.set s text
    return ⟨d', .nothing⟩
  | some (.flag f), none => do
    let d ← r.settled
    let d' ← d.raise f
    return ⟨d', .nothing⟩
  | some (.flag f), some _ => .error (.unexpectedValue f.name)
  | some .help, none => do
    let _ ← r.settled
    .error .helpRequested
  | some .help, some _ => .error (.unexpectedValue "help")

/-- The value behind the first equals sign. -/
def attached? (option : List Char) : Option String :=
  match option.dropWhile (· ≠ '=') with
  | [] => none
  | _ :: value => some (String.ofList value)

/-- Read one argument, before `--`. -/
def read (r : Reading) (argument : String) : Except Refusal Reading :=
  match argument.toList with
  | '-' :: '-' :: option =>
    r.readOption argument (option.takeWhile (· ≠ '=')) (attached? option)
  | '-' :: 'h' :: _ => do
    let _ ← r.settled
    .error .helpRequested
  | '-' :: _ :: _ => .error (.unknown argument)
  | _ =>
    match r.pending with
    | .awaiting s => .ok { r with pending := .value s argument }
    | _ => r.readPath argument

/-- Read arguments in order. After `--` every argument is a path. -/
def readAll : List String → Reading → Except Refusal Reading
  | [], r => .ok r
  | argument :: rest, r =>
    if argument = "--" then rest.foldlM readPath r
    else do
      let r' ← r.read argument
      readAll rest r'

end Reading

/-- The options that all settled arguments come to. -/
def Draft.options (d : Draft) : Except Refusal Options :=
  match d.rom with
  | some rom => .ok ⟨rom, d.flags, d.clockRate, d.seed, d.frames, d.loadState, d.saveState⟩
  | none => .error .missingRom

/-- The options that a list of arguments asks for. -/
def Options.parse (arguments : List String) : Except Refusal Options := do
  let r ← Reading.readAll arguments {}
  let d ← r.settled
  d.options

end CommandLine

end Chip8
