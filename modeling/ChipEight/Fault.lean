import ChipEight.Memory
import ChipEight.Text.Numeral
import ChipEight.Display.Cell

set_option autoImplicit false

namespace ChipEight

inductive Fault
  | programTooLarge (size : Nat)
  | notAByte (value : Int)
  | invalidKey (key : Int)
  | stackOverflow (target : Address) (pc : Nat)
  | stackUnderflow (pc : Nat)
  /-- A call from an address that does not fit in a slot of the stack. -/
  | returnTooWide (pc : Nat)
  | outsideDisplay (cell : Cell)
  /-- An area that the window of the display cannot name. -/
  | outsideWindow
  deriving DecidableEq

namespace Fault

/-- The text of the faults that carry one. -/
def message : Fault → Option String
  | programTooLarge size =>
    some s!"Program is {size} bytes; at most {programCapacity} fit above 0x200"
  | invalidKey key => some s!"Key index must be 0x0-0xF, got {key}"
  | stackOverflow target pc =>
    some s!"CALL 0x{Hex.text 3 target} with a full stack at 0x{Hex.text 3 pc}"
  | stackUnderflow pc => some s!"RET with an empty stack at 0x{Hex.text 3 pc}"
  | notAByte _ | returnTooWide _ | outsideDisplay _ | outsideWindow => none

end Fault

/-- A state, and the fault that stopped the operation there, if one did. -/
structure Outcome (σ : Type) where
  state : σ
  fault : Option Fault

namespace Outcome

variable {σ τ : Type}

def done (s : σ) : Outcome σ := ⟨s, none⟩

def failed (f : Fault) (s : σ) : Outcome σ := ⟨s, some f⟩

def map (g : σ → τ) (o : Outcome σ) : Outcome τ := ⟨g o.state, o.fault⟩

/-- Go on after a success; a fault ends the sequence. -/
def andThen (o : Outcome σ) (next : σ → Outcome σ) : Outcome σ :=
  match o.fault with
  | none => next o.state
  | some f => failed f o.state

theorem andThen_done (s : σ) (next : σ → Outcome σ) : (done s).andThen next = next s := rfl

theorem andThen_failed (f : Fault) (s : σ) (next : σ → Outcome σ) :
    (failed f s).andThen next = failed f s := rfl

theorem state_andThen_le (g : σ → Nat) (o : Outcome σ) {next : σ → Outcome σ}
    (h : ∀ s, g (next s).state ≤ g s) : g (o.andThen next).state ≤ g o.state := by
  unfold andThen
  split
  · exact h _
  · exact Nat.le_refl _

end Outcome

end ChipEight
