import ChipEight.Display
import Std.Data.TreeSet

set_option autoImplicit false

namespace ChipEight

inductive PlaneCall
  | clear
  | look (cell : Cell)
  | flip (cell : Cell)
  | present
  deriving DecidableEq

structure Plane where
  lit : Std.TreeSet Cell Cell.order
  renders : Nat
  calls : Array PlaneCall

namespace Plane

def empty : Plane := ⟨∅, 0, #[]⟩

def note (p : Plane) (c : PlaneCall) : Plane := { p with calls := p.calls.push c }

instance : Display Plane where
  clear p := { p with lit := ∅ }.note .clear
  look p c := some (p.lit.contains c, p.note (.look c))
  flip p c :=
    some ({ p with lit := if p.lit.contains c then p.lit.erase c else p.lit.insert c }.note (.flip c))
  present p := .done ({ p with renders := p.renders + 1 }.note .present)
  renders p := p.renders

end Plane

end ChipEight
