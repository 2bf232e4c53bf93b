import ChipEight.Text.Numeral
import ChipEight.Word

set_option autoImplicit false

namespace ChipEight

inductive LogLevel
  | debug | info | warning | error
  deriving DecidableEq

namespace LogLevel

def name : LogLevel → String
  | debug => "DEBUG"
  | info => "INFO"
  | warning => "WARNING"
  | error => "ERROR"

def rank : LogLevel → Nat
  | debug => 0
  | info => 1
  | warning => 2
  | error => 3

def all : List LogLevel := [debug, info, warning, error]

def ofName? (s : String) : Option LogLevel := all.find? fun l => l.name = s

end LogLevel

inductive LogEntry
  | machineReset
  | programLoaded (size : Nat)
  | wordSkipped (word : Word) (pc : Nat)
  | romRead (size : Nat) (path : String)
  | ran (instructions frames : Nat)
  | rendered (count : Nat)
  | dumpWritten (path : String)
  deriving DecidableEq

namespace LogEntry

def level : LogEntry → LogLevel
  | machineReset | programLoaded _ => .debug
  | wordSkipped _ _ => .warning
  | romRead _ _ | ran _ _ | rendered _ | dumpWritten _ => .info

/-- Entries of the machine and entries of its host go to two channels. -/
def channel : LogEntry → String
  | machineReset | programLoaded _ | wordSkipped _ _ => "chip8"
  | romRead _ _ | ran _ _ | rendered _ | dumpWritten _ => "chip8_host"

def text : LogEntry → String
  | machineReset => "Machine reset"
  | programLoaded size => s!"Loaded {size} byte program at 0x200"
  | wordSkipped word pc =>
    s!"Skipping invalid opcode 0x{Hex.text 4 word.toNat} at 0x{Hex.text 3 pc}"
  | romRead size path => s!"Read {size} bytes from {path}"
  | ran instructions frames => s!"Executed {instructions} instructions over {frames} frames"
  | rendered count => s!"Screen num renders: {count}"
  | dumpWritten path => s!"Wrote debug dump to {path}"

/-- Shown when the entry is at least as urgent as the threshold. -/
def atLeast (threshold : LogLevel) (e : LogEntry) : Bool :=
  threshold.rank ≤ e.level.rank

end LogEntry

end ChipEight
