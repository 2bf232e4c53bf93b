import ChipEight.Host
import ChipEight.Options.CommandLine
import ChipEight.Text.Numeral

set_option autoImplicit false

namespace ChipEight

inductive OptionKey
  | help | speed | scale | historical | advanceIndex | shiftSecond | clearFlag | reportSkipped
  | headless | dump | logLevel
  deriving DecidableEq

def defaultScale : Int := 8

def defaultDump : String := "debug.txt"

structure Options where
  rom : String
  speed : Given Int
  scale : Given Int
  historical : Bool
  advanceIndex : Bool
  shiftSecond : Bool
  clearFlag : Bool
  reportSkipped : Bool
  /-- The number of frames of a run without a window. -/
  headless : Option (Given Int)
  dump : Given String
  logLevel : Given LogLevel
  deriving DecidableEq

namespace Options

/-- In the order in which messages list them. -/
def forms : List (OptionForm OptionKey) := [
  ⟨.help, ["-h", "--help"], false⟩,
  ⟨.speed, ["--speed"], true⟩,
  ⟨.scale, ["--scale"], true⟩,
  ⟨.historical, ["--cosmac"], false⟩,
  ⟨.advanceIndex, ["--increment-i"], false⟩,
  ⟨.shiftSecond, ["--shift-vy"], false⟩,
  ⟨.clearFlag, ["--logic-resets-vf"], false⟩,
  ⟨.reportSkipped, ["--report-invalid-opcodes"], false⟩,
  ⟨.headless, ["--headless"], true⟩,
  ⟨.dump, ["--dump"], true⟩,
  ⟨.logLevel, ["--log-level"], true⟩]

def standard : Options where
  rom := ""
  speed := .value defaultSpeed
  scale := .value defaultScale
  historical := false
  advanceIndex := false
  shiftSecond := false
  clearFlag := false
  reportSkipped := false
  headless := none
  dump := .value defaultDump
  logLevel := .value .info

def settings (o : Options) : Settings where
  reportSkipped := o.reportSkipped
  advanceIndex := o.historical || o.advanceIndex
  shiftSecond := o.historical || o.shiftSecond
  clearFlag := o.historical || o.clearFlag

inductive Stop
  | help
  | refused (e : UsageError)
  deriving DecidableEq

def number (option : String) : Given String → Except Stop (Given Int)
  | .withheld => .ok .withheld
  | .value text =>
    match Numeral.readInt? text with
    | some n => .ok (.value n)
    | none => .error (.refused (.notANumber option text))

def level (option : String) : Given String → Except Stop (Given LogLevel)
  | .withheld => .ok .withheld
  | .value text =>
    match LogLevel.ofName? text with
    | some l => .ok (.value l)
    | none => .error (.refused (.notAChoice option text (LogLevel.all.map LogLevel.name)))

/-- One option of the command line taken into account; a later one overrides an earlier. -/
def apply (o : Options) (given : Occurrence OptionKey) : Except Stop Options :=
  let title := given.form.title
  match given.form.key with
  | .help => .error .help
  | .speed => (number title given.value).map fun n => { o with speed := n }
  | .scale => (number title given.value).map fun n => { o with scale := n }
  | .historical => .ok { o with historical := true }
  | .advanceIndex => .ok { o with advanceIndex := true }
  | .shiftSecond => .ok { o with shiftSecond := true }
  | .clearFlag => .ok { o with clearFlag := true }
  | .reportSkipped => .ok { o with reportSkipped := true }
  | .headless => (number title given.value).map fun n => { o with headless := some n }
  | .dump => .ok { o with dump := given.value }
  | .logLevel => (level title given.value).map fun l => { o with logLevel := l }

def applyAll (o : Options) : List (Occurrence OptionKey) → Except Stop Options
  | [] => .ok o
  | given :: rest =>
    match o.apply given with
    | .error e => .error e
    | .ok o => applyAll o rest

def remainingMistake (line : CommandLine OptionKey) : Option UsageError :=
  match line.error with
  | some e => some e
  | none =>
    if line.operand.isNone then some (.operandMissing "rom")
    else if line.leftover.isEmpty then none
    else some (.unrecognized line.leftover)

/-- Of several mistakes the first counts, in the order of the command line; a request for help counts
as a stop at its place. `take` tells what text in the argument of an option comes to. -/
def read (take : String → Given String) (args : List String) : Except Stop Options :=
  let line := CommandLine.read take forms args
  match standard.applyAll line.occurrences with
  | .error e => .error e
  | .ok o =>
    match remainingMistake line with
    | some e => .error (.refused e)
    | none => .ok { o with rom := line.operand.getD "" }

end Options

end ChipEight
