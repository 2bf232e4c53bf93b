import ChipEight.Display

set_option autoImplicit false

namespace ChipEight

structure TextScreen (width height : Nat) where
  rows : Vector (Vector Bool width) height
  /-- All that was written so far, if there is an output. -/
  output : Option String
  renders : Nat

namespace TextScreen

variable {width height : Nat}

/-- Each row is made for itself; a screen without rows makes none, however wide it is. -/
def dark : Vector (Vector Bool width) height := Vector.ofFn fun _ => Vector.replicate width false

/-- A width or height below zero counts as zero. The width matters only if there is a row. -/
def sizeFault (width height : Int) : Option SizeFault :=
  if height ≤ 0 then none
  else if !countable width then some .uncountable
  else if cellLimit < max width.toNat 1 * height.toNat then some .noStorage
  else none

def create (width height : Nat) (withOutput : Bool) : TextScreen width height :=
  ⟨dark, if withOutput then some "" else none, 0⟩

def place (width height : Nat) (c : Cell) : Option (Fin height × Fin width) :=
  (slot height c.y).bind fun y => (slot width c.x).map fun x => (y, x)

def isLit (s : TextScreen width height) (c : Cell) : Option Bool :=
  (place width height c).map fun (y, x) => s.rows[y][x]

def toggle (s : TextScreen width height) (c : Cell) : Option (TextScreen width height) :=
  (place width height c).map fun (y, x) =>
    { s with rows := s.rows.set y (s.rows[y].set x (!s.rows[y][x])) }

def litGlyph : Char := '█'

def darkGlyph : Char := ' '

def line (row : Vector Bool width) : List Char :=
  row.toList.map fun lit => if lit then litGlyph else darkGlyph

def render (s : TextScreen width height) : String :=
  String.ofList (List.intercalate ['\n'] (s.rows.toList.map line))

instance : Display (TextScreen width height) where
  clear s := { s with rows := dark }
  look s c := (s.isLit c).map fun lit => (lit, s)
  flip := toggle
  present s := .done
    { s with renders := s.renders + 1, output := s.output.map fun t => t ++ s.render ++ "\n" }
  renders s := s.renders

end TextScreen

end ChipEight
