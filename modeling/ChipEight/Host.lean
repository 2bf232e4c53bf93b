import ChipEight.Machine
import ChipEight.Keypad

set_option autoImplicit false

/-!
# The host loop

One pass of the loop is one frame, a sixtieth of a second: poll the keypad, run a batch of
instructions, tick the timers, and present the picture if the draw flag is up. After each frame the
host paces itself; what pacing does is a parameter.

A run lasts as long as the keypad runs, and always ends: an unattended keypad counts its polls down,
and a script that is used up closes the window.
-/
namespace ChipEight

def framesPerSecond : Nat := 60

def defaultSpeed : Int := 600

structure Host (δ : Type) where
  machine : Machine δ
  keypad : Keypad
  /-- The polls still to come, each with its events. -/
  script : List (List KeyEvent)
  instructionsPerFrame : Nat
  instructions : Nat
  frames : Nat
  /-- Done to the display at the end of a frame. -/
  pace : δ → δ

namespace Host

variable {δ : Type}

/-- The share of one frame, rounded down, and never less than one instruction. -/
def share (speed : Int) : Nat := (max 1 (speed.fdiv framesPerSecond)).toNat

def create (machine : Machine δ) (keypad : Keypad) (script : List (List KeyEvent)) (speed : Int)
    (pace : δ → δ) : Host δ where
  machine := machine
  keypad := keypad
  script := script
  instructionsPerFrame := share speed
  instructions := 0
  frames := 0
  pace := pace

def running (h : Host δ) : Bool := h.keypad.running

def setKey (h : Host δ) (key : Int) (pressed : Bool) : Outcome (Host δ) :=
  (h.machine.setKey key pressed).map fun m => { h with machine := m }

/-- A key that is bound is passed on to the machine; quitting closes the window. An unattended
keypad hears nothing. -/
def handle (h : Host δ) (e : KeyEvent) : Outcome (Host δ) :=
  match h.keypad, e with
  | .scripted map _, .quit => .done { h with keypad := .scripted map false }
  | .scripted map _, .down code =>
    match map.find? code with
    | none => .done h
    | some key => h.setKey key true
  | .scripted map _, .up code =>
    match map.find? code with
    | none => .done h
    | some key => h.setKey key false
  | .scripted _ _, .other => .done h
  | .unattended _, _ => .done h

def handleAll : List KeyEvent → Host δ → Outcome (Host δ)
  | [], h => .done h
  | e :: rest, h => (h.handle e).andThen (handleAll rest)

/-- A script that is used up yields polls that close the window. -/
def poll (h : Host δ) : Outcome (Host δ) :=
  match h.keypad with
  | .unattended pollsLeft => .done { h with keypad := .unattended (pollsLeft - 1) }
  | .scripted _ _ =>
    match h.script with
    | [] => handleAll [.quit] h
    | events :: rest => handleAll events { h with script := rest }

def tick (h : Host δ) : Host δ := { h with machine := h.machine.tick }

def rest (h : Host δ) : Host δ :=
  { h with machine := { h.machine with display := h.pace h.machine.display } }

/-- A bound on the frames to come, read off the keypad and its script. -/
def budget (h : Host δ) : Nat :=
  match h.keypad with
  | .unattended pollsLeft => pollsLeft.toNat
  | .scripted _ isOpen => if isOpen then h.script.length + 1 else 0

variable [Display δ]

def batch (h : Host δ) : Outcome (Host δ) :=
  let b := h.machine.cycles h.instructionsPerFrame
  b.outcome.map fun m =>
    { h with machine := m, instructions := h.instructions + b.completed }

def lowerFlag (h : Host δ) : Host δ :=
  { h with machine := { h.machine with core := { h.machine.core with drawFlag := false } } }

def showPicture (h : Host δ) : Outcome (Host δ) :=
  (Display.present h.machine.display).map fun d =>
    { h with machine := { h.machine with display := d } }

/-- Present the picture if the draw flag is up, and lower the flag once that is done. -/
def present (h : Host δ) : Outcome (Host δ) :=
  if h.machine.core.drawFlag then h.showPicture.andThen fun h => .done h.lowerFlag else .done h

def closeFrame (h : Host δ) : Outcome (Host δ) :=
  h.tick.present.andThen fun h => .done { h with frames := h.frames + 1 }

/-- A fault in the poll, in the batch or while the picture is presented leaves the frame
uncounted. -/
def frame (h : Host δ) : Outcome (Host δ) := (h.poll.andThen batch).andThen closeFrame

/-- Frames while the keypad runs, at most `fuel` of them; `visit` sees the host at the end of each,
after pacing. -/
def framesWith {α : Type} (visit : α → Host δ → α) : Nat → α → Host δ → α × Outcome (Host δ)
  | 0, a, h => (a, .done h)
  | fuel + 1, a, h =>
    if h.running then
      match h.frame with
      | ⟨h, none⟩ =>
        let h := h.rest
        framesWith visit fuel (visit a h) h
      | ⟨h, some f⟩ => (a, .failed f h)
    else
      (a, .done h)

def report (h : Host δ) : Host δ :=
  let m := h.machine.note (.ran h.instructions h.frames)
  { h with machine := m.note (.rendered (Display.renders m.display)) }

/-- Run until the keypad stops or a fault ends the run; only the former is reported. -/
def runWith {α : Type} (visit : α → Host δ → α) (a : α) (h : Host δ) : α × Outcome (Host δ) :=
  let r := framesWith visit h.budget a h
  (r.1, r.2.andThen fun h => .done h.report)

def run (h : Host δ) : Outcome (Host δ) := (h.runWith (fun _ _ => ()) ()).2

/-- The host at the end of each completed frame, and how the run ended. -/
def trace (h : Host δ) : Array (Host δ) × Outcome (Host δ) := h.runWith Array.push #[]

end Host

end ChipEight
