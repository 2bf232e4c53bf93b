import ChipEight.Font
import ChipEight.CallStack
import ChipEight.Instruction

set_option autoImplicit false

/-!
# The core

The parts of the machine that do not show: memory, registers, call stack, timers, keys, and the
flags and counters that the host reads. The display is not among them, so nothing here keeps a copy
of the picture.

The program counter is a plain number. Only jumps bring it below 4096; the steps between them add
to it, and reads wrap.
-/
namespace ChipEight

abbrev Registers := Bank UInt8

def flagRegister : Fin 16 := 15

structure Core where
  memory : Memory
  v : Registers
  index : UInt16
  pc : Nat
  stack : CallStack
  delay : UInt8
  sound : UInt8
  keys : Bank Bool
  /-- The register that a pending wait for a key will fill. -/
  wait : Option (Fin 16)
  drawFlag : Bool
  skipped : Nat
  randomDraws : Nat

namespace Core

def noKeys : Bank Bool := Vector.replicate 16 false

@[simp]
theorem read_noKeys (k : Fin 16) : noKeys.read k = false := by
  simp [noKeys]

def powerOn : Core where
  memory := Font.install Memory.blank
  v := Vector.replicate 16 0
  index := 0
  pc := programStart
  stack := CallStack.empty
  delay := 0
  sound := 0
  keys := noKeys
  wait := none
  drawFlag := false
  skipped := 0
  randomDraws := 0

/-- Back to power-on; the two counters go on. -/
def reset (c : Core) : Core :=
  { powerOn with skipped := c.skipped, randomDraws := c.randomDraws }

def tick (c : Core) : Core :=
  { c with
    delay := if c.delay = 0 then 0 else c.delay - 1
    sound := if c.sound = 0 then 0 else c.sound - 1 }

def releaseKeys (c : Core) : Core := { c with keys := noKeys }

def fetch (c : Core) : Word := c.memory.word c.pc

def skipIf (c : Core) (condition : Bool) : Core :=
  { c with pc := c.pc + if condition then 4 else 2 }

/-- A pending wait takes the key and lets the program go on behind the waiting instruction. -/
def endWait (c : Core) (key : Fin 16) : Core :=
  match c.wait with
  | none => c
  | some x => { c with v := c.v.write x (UInt8.ofNat key), wait := none, pc := c.pc + 2 }

/-- A press, never a release, ends a pending wait. -/
def setKey (c : Core) (key : Fin 16) (pressed : Bool) : Core :=
  let c := { c with keys := c.keys.write key pressed }
  if pressed then c.endWait key else c

def skipWord (c : Core) : Core := { c with pc := c.pc + 2, skipped := c.skipped + 1 }

end Core

end ChipEight
