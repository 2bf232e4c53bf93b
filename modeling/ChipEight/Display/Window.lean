import ChipEight.Display
import ChipEight.Display.Toolkit
import Std.Data.TreeSet

set_option autoImplicit false

/-!
# The window screen

A picture that is shown in a window. Each cell is a square of `scale` window pixels. The screen keeps
its cells in one row of storage, row after row, and remembers which cells were touched since the
last presentation, so that only those are painted again; after a clear everything is.

The window itself is not modelled: what reaches it is the list of calls made on it, in order. The
size and the scale are signed, as they may come from a command line, and the scale may be missing. A
screen whose width and height have opposite signs cannot be created; with both negative it has
storage but paints no cell on a full repaint.

A presentation fails at the first area that the window cannot name, and without a scale it can name
none. What was painted up to there stays painted, but the window is not updated, and what was to be
painted is so still.
-/
namespace ChipEight

inductive WindowCall
  | start
  /-- To a width and a height; to nothing that can be said if there is no scale. -/
  | resize (size : Option (Int × Int))
  | caption (text : String)
  | blank
  | fill (lit : Bool) (area : Rect)
  | update (areas : List Rect)
  /-- Wait for the next of `rate` beats a second. -/
  | pace (rate : Nat)
  | flip
  | quit
  deriving DecidableEq

structure WindowScreen (toolkit : Toolkit) (width height : Int) (scale : Option Int) where
  cells : Vector Bool (width * height).toNat
  touched : Std.TreeSet Cell Cell.order
  repaint : Bool
  renders : Nat
  calls : Array WindowCall

namespace WindowScreen

variable {toolkit : Toolkit} {width height : Int} {scale : Option Int}

def dark : Vector Bool (width * height).toNat := Vector.replicate _ false

def fresh (calls : Array WindowCall) : WindowScreen toolkit width height scale :=
  ⟨dark, ∅, true, 0, calls⟩

def storageOverhead : Nat := 33

def sizeFault (width height : Int) : Option SizeFault :=
  let cells := width * height
  if !countable cells || !countable (cells + storageOverhead) then some .uncountable
  else if cells < 0 then some .negative
  else if cellLimit < cells then some .noStorage
  else none

/-- The place in storage that a cell names. A column beyond the width names a cell of another row,
and a negative place counts back from the end. -/
def place (width height : Int) (c : Cell) : Option (Fin (width * height).toNat) :=
  slot _ (c.y * width + c.x)

def isLit (s : WindowScreen toolkit width height scale) (c : Cell) : Option Bool :=
  (place width height c).map fun k => s.cells[k]

def toggle (s : WindowScreen toolkit width height scale) (c : Cell) :
    Option (WindowScreen toolkit width height scale) :=
  (place width height c).map fun (k : Fin _) =>
    { s with cells := s.cells.set k (!s.cells[k]), touched := s.touched.insert c }

def clear (s : WindowScreen toolkit width height scale) : WindowScreen toolkit width height scale :=
  { s with cells := dark, touched := ∅, repaint := true }

def block (toolkit : Toolkit) (scale : Option Int) (c : Cell) : Option Rect :=
  scale.bind fun n => toolkit.rect? (c.x * n) (c.y * n) n n

def whole (toolkit : Toolkit) (width height : Int) (scale : Option Int) : Option Rect :=
  scale.bind fun n => toolkit.rect? 0 0 (width * n) (height * n)

def allCells (width height : Int) : List Cell :=
  (List.range height.toNat).flatMap fun (y : Nat) =>
    (List.range width.toNat).map fun (x : Nat) => ⟨x, y⟩

def due (s : WindowScreen toolkit width height scale) : List Cell :=
  if s.repaint then allCells width height else s.touched.toList

def dueAreas (s : WindowScreen toolkit width height scale) : Option (List Rect) :=
  if s.repaint then (whole toolkit width height scale).map fun area => [area]
  else s.touched.toList.mapM (block toolkit scale)

def paint (s : WindowScreen toolkit width height scale) (c : Cell) : Option WindowCall :=
  (block toolkit scale c).map fun area => .fill ((s.isLit c).getD false) area

/-- What the next presentation paints: the cells that are due, up to the first without an area. -/
def paints (s : WindowScreen toolkit width height scale) : List WindowCall :=
  ((s.due.map s.paint).takeWhile Option.isSome).filterMap id

def presentable (s : WindowScreen toolkit width height scale) : Bool :=
  s.dueAreas.isSome && s.due.all fun c => (block toolkit scale c).isSome

def present (s : WindowScreen toolkit width height scale) :
    Outcome (WindowScreen toolkit width height scale) :=
  let begun := { s with renders := s.renders + 1, calls := s.calls ++ s.paints }
  if s.presentable then
    .done { begun with
      touched := ∅
      repaint := false
      calls := begun.calls.push (.update (s.dueAreas.getD [])) }
  else
    .failed .outsideWindow begun

def call (s : WindowScreen toolkit width height scale) (c : WindowCall) :
    WindowScreen toolkit width height scale :=
  { s with calls := s.calls.push c }

instance : Display (WindowScreen toolkit width height scale) where
  clear := clear
  look s c := (s.isLit c).map fun lit => (lit, s)
  flip := toggle
  present := present
  renders s := s.renders

end WindowScreen

end ChipEight
