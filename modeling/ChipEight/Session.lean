import ChipEight.Dump
import ChipEight.Display.Text
import ChipEight.Display.Window
import ChipEight.Options
import ChipEight.Storage

set_option autoImplicit false

/-!
# Sessions

A session is one run of the program: it reads the command line and the program file, runs the machine
with a window or without, and ends. Everything that it does to the outside is in its report.

A session without a window prints the final picture, and writes a debug dump only if a fault ends
it. A session with a window always writes one; after a fault the window is refreshed once more if
the dump could be written. The window is closed once the host loop has been entered, however it ends;
a program that is too large is found out before that and leaves the window open.

An option may be left without a value by the reading of the command line. A session then fails where
the value is needed: the log level before anything else, the speed when the host is set up, the number
of frames when the loop is entered, and the path of the dump when it is to be written. A missing scale
gives a window without a size.
-/
namespace ChipEight

inductive Failure
  | rom (f : RomFault)
  | machine (f : Fault)
  | dump (r : Refusal)
  | noWindow
  /-- An option whose value is needed was given without one. -/
  | withheld (option : OptionKey)
  deriving DecidableEq

namespace Failure

def message : Failure → Option String
  | rom f => f.message
  | machine f => f.message
  | dump _ | noWindow | withheld _ => none

end Failure

inductive Ending
  | finished
  | stopped (s : Options.Stop)
  | failed (f : Failure)
  deriving DecidableEq

structure Report where
  ending : Ending
  /-- The level in force at the end. -/
  level : LogLevel
  log : List LogEntry
  printed : String
  calls : List WindowCall
  dumps : List (String × String)

namespace Session

/-- What every session is given: its options with the level of the log, the storage, the random
bytes, and for a session with a window the toolkit and the polls of the keypad. -/
structure Setting where
  options : Options
  level : LogLevel
  storage : Storage
  toolkit : Toolkit
  random : Nat → UInt8
  script : List (List KeyEvent)

def quiet (level : LogLevel) (ending : Ending) (log : List LogEntry) : Report where
  ending := ending
  level := level
  log := log
  printed := ""
  calls := []
  dumps := []

def boot {δ : Type} [Display δ] (s : Setting) (display : δ) (rom : List UInt8) :
    Outcome (Machine δ) :=
  (Machine.create s.options.settings s.random display).load (rom.map fun b => (b.toNat : Int))

def writeDump (s : Setting) (c : Core) (r : Report) : Report :=
  match s.options.dump with
  | .withheld => { r with ending := .failed (.withheld .dump) }
  | .value path =>
    match s.storage.refusal path with
    | some why => { r with ending := .failed (.dump why) }
    | none =>
      { r with
        dumps := r.dumps ++ [(path, c.dump)]
        log := r.log ++ [.dumpWritten path] }

def headlessRun (s : Setting) (frames speed : Int)
    (m : Machine (TextScreen displayWidth displayHeight)) : Report :=
  let ran := (Host.create m (.unattended frames) [] speed id).run
  let m := ran.state.machine
  match ran.fault with
  | some f => writeDump s m.core (quiet s.level (.failed (.machine f)) m.log.toList)
  | none => { quiet s.level .finished m.log.toList with printed := m.display.render ++ "\n" }

def headless (s : Setting) (frames : Given Int) (rom : List UInt8) : Report :=
  let booted := boot s (TextScreen.create displayWidth displayHeight false) rom
  let m := booted.state
  let report (f : Failure) : Report := quiet s.level (.failed f) m.log.toList
  match booted.fault, s.options.speed, frames with
  | some f, _, _ => report (.machine f)
  | none, .withheld, _ => report (.withheld .speed)
  | none, .value _, .withheld => writeDump s m.core (report (.withheld .headless))
  | none, .value speed, .value n => headlessRun s n speed m

def windowSize (scale : Given Int) : Option (Int × Int) :=
  scale.toOption.map fun n => (displayWidth * n, displayHeight * n)

def opening (o : Options) : List WindowCall := [
  .start,
  .resize (windowSize o.scale),
  .caption ("CHIP-8: " ++ (Path.ofString o.rom).fileName),
  .blank]

abbrev Screen (s : Setting) : Type :=
  WindowScreen s.toolkit displayWidth displayHeight s.options.scale.toOption

def windowScreen (s : Setting) : Screen s := WindowScreen.fresh (opening s.options).toArray

def windowHost (s : Setting) (speed : Int) (m : Machine (Screen s)) : Host (Screen s) :=
  Host.create m (.scripted .standard true) s.script speed fun screen =>
    screen.call (.pace framesPerSecond)

def refresh (r : Report) : Report :=
  if r.dumps.isEmpty then r else { r with calls := r.calls ++ [.flip] }

def closeWindow (r : Report) : Report := { r with calls := r.calls ++ [.quit] }

def windowReport (s : Setting) (ending : Ending) (m : Machine (Screen s)) : Report :=
  { quiet s.level ending m.log.toList with calls := m.display.calls.toList }

def windowRun (s : Setting) (speed : Int) (m : Machine (Screen s)) : Report :=
  let ran := (windowHost s speed m).run
  let m := ran.state.machine
  match ran.fault with
  | some f =>
    closeWindow (refresh (writeDump s m.core (windowReport s (.failed (.machine f)) m)))
  | none => writeDump s m.core (closeWindow (windowReport s .finished m))

def windowOpened (s : Setting) (rom : List UInt8) : Report :=
  let booted := boot s (windowScreen s) rom
  match booted.fault, s.options.speed with
  | some f, _ => windowReport s (.failed (.machine f)) booted.state
  | none, .withheld => windowReport s (.failed (.withheld .speed)) booted.state
  | none, .value speed => windowRun s speed booted.state

def windowRefused (s : Setting) : Report :=
  { quiet s.level (.failed .noWindow) [] with
    calls := [.start, .resize (windowSize s.options.scale)] }

def windowed (s : Setting) (rom : List UInt8) : Report :=
  if s.toolkit.opens (windowSize s.options.scale) then windowOpened s rom else windowRefused s

def after (e : LogEntry) (r : Report) : Report := { r with log := e :: r.log }

def filterLog (r : Report) : Report :=
  { r with log := r.log.filter fun e => e.atLeast r.level }

def runWith (s : Setting) : Report :=
  match s.storage.readRom s.options.rom with
  | .error f => quiet s.level (.failed (.rom f)) []
  | .ok rom =>
    after (.ofRom s.options.rom rom) <|
      match s.options.headless with
      | some frames => headless s frames rom
      | none => windowed s rom

/-- A session that ends before the log is set up is left at the level of warnings. -/
def early (ending : Ending) : Report := quiet .warning ending []

/-- `take` tells what text in the argument of an option comes to. -/
def run (take : String → Given String) (storage : Storage) (toolkit : Toolkit)
    (random : Nat → UInt8) (script : List (List KeyEvent)) (args : List String) : Report :=
  match Options.read take args with
  | .error stop => early (.stopped stop)
  | .ok options =>
    match options.logLevel with
    | .withheld => early (.failed (.withheld .logLevel))
    | .value level => filterLog (runWith ⟨options, level, storage, toolkit, random, script⟩)

end Session

end ChipEight
