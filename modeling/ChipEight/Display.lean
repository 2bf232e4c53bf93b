import ChipEight.Fault

set_option autoImplicit false

/-!
# Displays

What the machine asks of a display: to darken it, to look at a cell and to flip a cell. Looking
returns the display too, since a display may keep a record of what it was asked. A cell without
storage makes looking and flipping fail. The host also presents the picture, which may fail halfway,
and asks how often it was begun.

The size of a display is its own affair; the machine only ever names cells of a picture 64 wide and
32 high.
-/
namespace ChipEight

def displayWidth : Nat := 64

def displayHeight : Nat := 32

inductive SizeFault
  | negative
  /-- The size does not fit in 64 bits, sign included. -/
  | uncountable
  /-- The size can be counted, but there is no storage for it. -/
  | noStorage
  deriving DecidableEq

def countable (n : Int) : Bool := -0x8000000000000000 ≤ n && n < 0x8000000000000000

def cellLimit : Nat := 0x100000000

class Display (δ : Type) where
  clear : δ → δ
  look : δ → Cell → Option (Bool × δ)
  flip : δ → Cell → Option δ
  present : δ → Outcome δ
  renders : δ → Nat

end ChipEight
