import ChipEight.Execute
import ChipEight.LogEntry
import ChipEight.Sprite

set_option autoImplicit false

/-!
# The machine

A core joined to a display, with its settings, its source of random bytes and its log. The
operations here are the ones a host calls. Each returns an `Outcome`: an operation that stops at a
fault still says what state it left.

Nothing is claimed about time; how often `cycle` and `tick` are called is the host's choice.
-/
namespace ChipEight

structure Machine (δ : Type) where
  settings : Settings
  random : Nat → UInt8
  core : Core
  display : δ
  log : Array LogEntry

namespace Machine

variable {δ : Type}

def note (m : Machine δ) (e : LogEntry) : Machine δ := { m with log := m.log.push e }

def isByte (value : Int) : Bool := 0 ≤ value && value ≤ 255

/-- Values are stored in order up to the first that is no byte. -/
def load (m : Machine δ) (program : List Int) : Outcome (Machine δ) :=
  if programCapacity < program.length then
    .failed (.programTooLarge program.length) m
  else
    let bytes := (program.takeWhile isByte).map fun value => UInt8.ofNat value.toNat
    let m := { m with
      core := { m.core with memory := m.core.memory.store programStart bytes } }
    match (program.dropWhile isByte).head? with
    | some value => .failed (.notAByte value) m
    | none => .done (m.note (.programLoaded program.length))

def setKey (m : Machine δ) (key : Int) (pressed : Bool) : Outcome (Machine δ) :=
  if h : 0 ≤ key ∧ key < 16 then
    .done { m with core := m.core.setKey ⟨key.toNat, by omega⟩ pressed }
  else
    .failed (.invalidKey key) m

def releaseKeys (m : Machine δ) : Machine δ := { m with core := m.core.releaseKeys }

def tick (m : Machine δ) : Machine δ := { m with core := m.core.tick }

/-- The byte at a signed address, which wraps. -/
def readByte (m : Machine δ) (address : Int) : UInt8 := m.core.memory.read (Memory.wrap address)

def writeByte (m : Machine δ) (address value : Int) : Outcome (Machine δ) :=
  if isByte value then
    .done { m with
      core := { m.core with
        memory := m.core.memory.write (Memory.wrap address) (UInt8.ofNat value.toNat) } }
  else
    .failed (.notAByte value) m

def skipWord (m : Machine δ) (word : Word) : Machine δ :=
  let skipped := { m with core := m.core.skipWord }
  if m.settings.reportSkipped then skipped.note (.wordSkipped word m.core.pc) else skipped

variable [Display δ]

/-- Back to power-on, with a dark picture. The draw flag is lowered too, so the dark picture is
presented only after the program has drawn. -/
def reset (m : Machine δ) : Machine δ :=
  { m with core := m.core.reset, display := Display.clear m.display }.note .machineReset

def create (settings : Settings) (random : Nat → UInt8) (display : δ) : Machine δ :=
  { settings, random, core := Core.powerOn, display, log := #[] : Machine δ }.reset

/-- The picture first, the core second. A display that lacks a cell keeps what was drawn so far, and
the core is as before. -/
def execute (m : Machine δ) (i : Instruction) : Outcome (Machine δ) :=
  let painted := m.core.paint m.display i
  match painted.missing with
  | some c => .failed (.outsideDisplay c) { m with display := painted.display }
  | none =>
    match m.core.execute m.settings m.random painted.hit i with
    | .error f => .failed f { m with display := painted.display }
    | .ok core => .done { m with core, display := painted.display }

def cycle (m : Machine δ) : Outcome (Machine δ) :=
  if m.core.wait.isSome then .done m
  else
    match Instruction.decode m.core.fetch with
    | none => .done (m.skipWord m.core.fetch)
    | some i => m.execute i

structure Batch (δ : Type) where
  completed : Nat
  outcome : Outcome (Machine δ)

/-- Up to `n` cycles, counting on from `completed`; a fault ends them. -/
def cyclesFrom (completed : Nat) : Nat → Machine δ → Batch δ
  | 0, m => ⟨completed, .done m⟩
  | n + 1, m =>
    match m.cycle with
    | ⟨m, none⟩ => cyclesFrom (completed + 1) n m
    | ⟨m, some f⟩ => ⟨completed, .failed f m⟩

def cycles (n : Nat) (m : Machine δ) : Batch δ := cyclesFrom 0 n m

inductive Command
  | cycle
  | tick
  | key (key : Int) (pressed : Bool)
  | releaseKeys
  | load (program : List Int)
  | reset

def perform (m : Machine δ) : Command → Outcome (Machine δ)
  | .cycle => m.cycle
  | .tick => .done m.tick
  | .key k pressed => m.setKey k pressed
  | .releaseKeys => .done m.releaseKeys
  | .load program => m.load program
  | .reset => .done m.reset

/-- The outcomes of a sequence of commands; one that fails does not keep the next from being
performed on the state it left. -/
def performAll (m : Machine δ) : List Command → List (Outcome (Machine δ))
  | [] => []
  | c :: rest => m.perform c :: performAll (m.perform c).state rest

end Machine

end ChipEight
