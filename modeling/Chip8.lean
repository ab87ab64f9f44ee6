import Chip8.Codec
import Chip8.Hexadecimal
import Chip8.Config
import Chip8.Rom
import Chip8.Memory
import Chip8.Screen
import Chip8.Keypad
import Chip8.Timers
import Chip8.CallStack
import Chip8.Registers
import Chip8.ChaCha
import Chip8.Generator
import Chip8.RandomStream
import Chip8.Instruction
import Chip8.Fault
import Chip8.Arithmetic
import Chip8.State
import Chip8.Execution
import Chip8.Snapshot
import Chip8.Log
import Chip8.Machine
import Chip8.Session
import Chip8.CommandLine.Numeral
import Chip8.CommandLine.Options
import Chip8.CommandLine.Path
import Chip8.CommandLine.Files
import Chip8.CommandLine.Run
import Chip8.Main
import Chip8.Proofs.Transition
import Chip8.Proofs.Footprint
import Chip8.Proofs.History
import Chip8.Proofs.Lockstep
import Chip8.Proofs.Erasure
import Chip8.Proofs.Faults
import Chip8.Proofs.AddressCongruence
import Chip8.Proofs.Replay
import Chip8.Proofs.SnapshotLayout
import Chip8.Proofs.SnapshotFormat
import Chip8.Proofs.Halting
import Chip8.Proofs.KeyWaits
import Chip8.Proofs.PowerOn
import Chip8.Proofs.Stages
import Chip8.Proofs.SplitRuns
import Chip8.Proofs.CallDiscipline
import Chip8.Proofs.TimerValues
import Chip8.Proofs.RandomDraws
import Chip8.Proofs.ClockIndependence
import Chip8.Proofs.SeedIndependence
import Chip8.Proofs.Opcodes
import Chip8.Proofs.RegisterArithmetic
import Chip8.Proofs.DialectIndependence
import Chip8.Proofs.Sprites
import Chip8.Proofs.CheckedExecution
import Chip8.Proofs.StepOutcomes
import Chip8.Proofs.Targets
import Chip8.Proofs.MemoryTransfers
import Chip8.Proofs.ProgramCounter
import Chip8.Proofs.FrameGroups
import Chip8.Proofs.Views
import Chip8.Proofs.Endings
import Chip8.Proofs.Reports
import Chip8.Proofs.ParsingRules
import Chip8.Proofs.Spellings
