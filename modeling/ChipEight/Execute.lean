import ChipEight.Core
import ChipEight.Fault

set_option autoImplicit false

/-!
# Executing an instruction on the core

What an instruction does apart from the picture. Machines of this family disagree on three points,
and each has a switch; with all switches off the machine behaves the modern way. The picture enters
as one bit, whether a drawn sprite met a lit pixel, and leaves as the draw flag. A fault leaves no new
core behind: calls and returns fail before anything changes.
-/
namespace ChipEight

structure Settings where
  reportSkipped : Bool
  /-- Saving and restoring registers moves the index register past the last byte. -/
  advanceIndex : Bool
  /-- Shifts read the second register. -/
  shiftSecond : Bool
  /-- The bitwise operations clear the flag register. -/
  clearFlag : Bool
  deriving DecidableEq

namespace Settings

def modern : Settings := ⟨false, false, false, false⟩

end Settings

namespace Arithmetic

def shifted (s : Settings) (a b : UInt8) : UInt8 := if s.shiftSecond then b else a

def result (s : Settings) (a b : UInt8) : Arithmetic → UInt8
  | copy => b
  | or => a ||| b
  | and => a &&& b
  | xor => a ^^^ b
  | add => a + b
  | subtract => a - b
  | shiftRight => shifted s a b >>> 1
  | subtractFrom => b - a
  | shiftLeft => shifted s a b <<< 1

/-- The value for the flag register, from the same two values; nothing if it is left alone. -/
def flag (s : Settings) (a b : UInt8) : Arithmetic → Option UInt8
  | copy => none
  | or | and | xor => if s.clearFlag then some 0 else none
  | add => some (if 255 < a.toNat + b.toNat then 1 else 0)
  | subtract => some (if b ≤ a then 1 else 0)
  | shiftRight => some (shifted s a b &&& 1)
  | subtractFrom => some (if a ≤ b then 1 else 0)
  | shiftLeft => some (shifted s a b >>> 7)

/-- The result is stored first and the flag second, so in the flag register the flag stays. -/
def apply (s : Settings) (op : Arithmetic) (x y : Fin 16) (v : Registers) : Registers :=
  let stored := v.write x (op.result s (v.read x) (v.read y))
  match op.flag s (v.read x) (v.read y) with
  | none => stored
  | some f => stored.write flagRegister f

end Arithmetic

namespace Core

def decimalDigits (b : UInt8) : List UInt8 := [b / 100, b / 10 % 10, b % 10]

def block (c : Core) (x : Fin 16) : List UInt8 := c.v.toList.take (x + 1)

def restored (c : Core) (x : Fin 16) : Registers :=
  c.v.mapFinIdx fun k b _ => if k ≤ x then c.memory.read (c.index.toNat + k) else b

def indexPast (s : Settings) (c : Core) (x : Fin 16) : UInt16 :=
  if s.advanceIndex then c.index + UInt16.ofNat (x + 1) else c.index

/-- Whether the key that the register names by its low four bits is down. -/
def keyDown (c : Core) (x : Fin 16) : Bool := c.keys.read (Fin.ofNat 16 (c.v.read x).toNat)

/-- The slot keeps the address of the call itself. A full stack is found before an address that is
too wide for a slot. -/
def call (c : Core) (target : Address) : Except Fault Core :=
  match c.stack.push (UInt16.ofNat c.pc) with
  | none => .error (.stackOverflow target c.pc)
  | some stack =>
    if 0xFFFF < c.pc then .error (.returnTooWide c.pc)
    else .ok { c with stack := stack, pc := target }

def ret (c : Core) : Except Fault Core :=
  match c.stack.pop with
  | none => .error (.stackUnderflow c.pc)
  | some (site, stack) => .ok { c with stack := stack, pc := site.toNat + 2 }

/-- `random` gives the random bytes by number, and `hit` tells whether the sprite of a drawing
instruction met a lit pixel. -/
def execute (s : Settings) (random : Nat → UInt8) (hit : Bool) (c : Core) :
    Instruction → Except Fault Core
  | .clear => .ok { c with drawFlag := true, pc := c.pc + 2 }
  | .ret => c.ret
  | .jump target => .ok { c with pc := target }
  | .call target => c.call target
  | .skipIfByte x byte => .ok (c.skipIf (c.v.read x == byte))
  | .skipUnlessByte x byte => .ok (c.skipIf (c.v.read x != byte))
  | .skipIfSame x y => .ok (c.skipIf (c.v.read x == c.v.read y))
  | .skipUnlessSame x y => .ok (c.skipIf (c.v.read x != c.v.read y))
  | .setByte x byte => .ok { c with v := c.v.write x byte, pc := c.pc + 2 }
  | .addByte x byte => .ok { c with v := c.v.write x (c.v.read x + byte), pc := c.pc + 2 }
  | .combine op x y => .ok { c with v := op.apply s x y c.v, pc := c.pc + 2 }
  | .setIndex target => .ok { c with index := UInt16.ofNat target, pc := c.pc + 2 }
  | .jumpOffset target => .ok { c with pc := (target + (c.v.read 0).toNat) % 4096 }
  | .random x mask =>
    .ok { c with
      v := c.v.write x (random c.randomDraws &&& mask)
      randomDraws := c.randomDraws + 1
      pc := c.pc + 2 }
  | .draw _ _ _ =>
    .ok { c with
      v := c.v.write flagRegister (if hit then 1 else 0)
      drawFlag := true
      pc := c.pc + 2 }
  | .skipIfKey x => .ok (c.skipIf (c.keyDown x))
  | .skipUnlessKey x => .ok (c.skipIf (!c.keyDown x))
  | .readDelay x => .ok { c with v := c.v.write x c.delay, pc := c.pc + 2 }
  | .awaitKey x => .ok { c with wait := some x }
  | .setDelay x => .ok { c with delay := c.v.read x, pc := c.pc + 2 }
  | .setSound x => .ok { c with sound := c.v.read x, pc := c.pc + 2 }
  | .addIndex x => .ok { c with index := c.index + (c.v.read x).toUInt16, pc := c.pc + 2 }
  | .glyph x => .ok { c with index := UInt16.ofNat (Font.glyph (c.v.read x)), pc := c.pc + 2 }
  | .decimal x =>
    .ok { c with memory := c.memory.store c.index.toNat (decimalDigits (c.v.read x)), pc := c.pc + 2 }
  | .save x =>
    .ok { c with
      memory := c.memory.store c.index.toNat (c.block x)
      index := c.indexPast s x
      pc := c.pc + 2 }
  | .restore x =>
    .ok { c with
      v := c.restored x
      index := c.indexPast s x
      pc := c.pc + 2 }

end Core

end ChipEight
