import ChipEight.Display.Picture
import Mathlib.Data.List.Forall2

set_option autoImplicit false

namespace ChipEight

structure Pixel where
  x : Int
  y : Int

structure Colour where
  red : UInt8
  green : UInt8
  blue : UInt8
  deriving DecidableEq

namespace Colour

def black : Colour := ⟨0, 0, 0⟩

def white : Colour := ⟨255, 255, 255⟩

def ofLit (lit : Bool) : Colour := if lit then white else black

theorem ofLit_inj : ∀ {lit lit' : Bool}, ofLit lit = ofLit lit' → lit = lit' := by decide

end Colour

abbrev Surface := Pixel → Colour

namespace Rect

def Contains (r : Rect) (p : Pixel) : Prop :=
  r.x ≤ p.x ∧ p.x < r.x + r.width ∧ r.y ≤ p.y ∧ p.y < r.y + r.height

instance (r : Rect) (p : Pixel) : Decidable (r.Contains p) := by
  unfold Contains
  infer_instance

end Rect

namespace Surface

def call (σ : Surface) : WindowCall → Surface
  | .blank => fun _ => .black
  | .fill lit area => fun p => if area.Contains p then .ofLit lit else σ p
  | _ => σ

def after (σ : Surface) : List WindowCall → Surface
  | [] => σ
  | c :: rest => after (σ.call c) rest

theorem after_append (σ : Surface) (cs ds : List WindowCall) :
    σ.after (cs ++ ds) = (σ.after cs).after ds := by
  induction cs generalizing σ with
  | nil => rfl
  | cons c rest ih => exact ih _

theorem call_fill (σ : Surface) (lit : Bool) (area : Rect) (p : Pixel) :
    σ.call (.fill lit area) p = if area.Contains p then .ofLit lit else σ p := rfl

end Surface

def Cell.Block (scale : Int) (c : Cell) (p : Pixel) : Prop :=
  c.x * scale ≤ p.x ∧ p.x < (c.x + 1) * scale ∧ c.y * scale ≤ p.y ∧ p.y < (c.y + 1) * scale

def Cell.area (scale : Int) (c : Cell) : Rect := ⟨c.x * scale, c.y * scale, scale, scale⟩

theorem Cell.contains_area {scale : Int} {c : Cell} {p : Pixel} :
    (c.area scale).Contains p ↔ c.Block scale p := by
  simp only [Rect.Contains, Cell.area, Cell.Block, Int.add_mul, Int.one_mul]

theorem eq_of_strip {n a b z : Int} (positive : 0 < n) (aLow : a * n ≤ z) (aHigh : z < (a + 1) * n)
    (bLow : b * n ≤ z) (bHigh : z < (b + 1) * n) : a = b := by
  rcases Int.lt_trichotomy a b with less | same | more
  · have := Int.mul_le_mul_of_nonneg_right (Int.add_one_le_of_lt less) (Int.le_of_lt positive)
    omega
  · exact same
  · have := Int.mul_le_mul_of_nonneg_right (Int.add_one_le_of_lt more) (Int.le_of_lt positive)
    omega

theorem Cell.eq_of_block {scale : Int} (positive : 0 < scale) {c e : Cell} {p : Pixel}
    (hc : c.Block scale p) (he : e.Block scale p) : c = e := by
  obtain ⟨cx, cx', cy, cy'⟩ := hc
  obtain ⟨ex, ex', ey, ey'⟩ := he
  have column : c.x = e.x := eq_of_strip positive cx cx' ex ex'
  have row : c.y = e.y := eq_of_strip positive cy cy' ey ey'
  cases c
  cases e
  simp_all

def Paints (scale : Int) (lit : Cell → Bool) (c : Cell) (call : WindowCall) : Prop :=
  ∃ area, call = .fill (lit c) area ∧ ∀ p, area.Contains p ↔ c.Block scale p

namespace Surface

variable {scale : Int} {lit : Cell → Bool} {cells : List Cell} {calls : List WindowCall}

theorem after_paints_of_not_mem (painted : List.Forall₂ (Paints scale lit) cells calls)
    (σ : Surface) {p : Pixel} (outside : ∀ c ∈ cells, ¬ c.Block scale p) :
    σ.after calls p = σ p := by
  induction painted generalizing σ with
  | nil => rfl
  | @cons c call cells calls first rest ih =>
    obtain ⟨area, rfl, exact'⟩ := first
    have apart : ¬ area.Contains p := fun h => outside c (by simp) ((exact' p).1 h)
    have later := ih (σ.call (.fill (lit c) area)) (fun e he => outside e (by simp [he]))
    rw [after, later, call_fill, if_neg apart]

/-- Whatever order cells are painted in, and however often, each block ends in its own colour. -/
theorem after_paints_of_mem (painted : List.Forall₂ (Paints scale lit) cells calls)
    (positive : 0 < scale) (σ : Surface) {c : Cell} (member : c ∈ cells) {p : Pixel}
    (block : c.Block scale p) : σ.after calls p = .ofLit (lit c) := by
  induction painted generalizing σ with
  | nil => cases member
  | @cons e call cells calls first rest ih =>
    -- The last painting of a cell decides, and those of other cells stay off its block.
    by_cases again : c ∈ cells
    · exact ih _ again
    · obtain ⟨area, rfl, exact'⟩ := first
      have same : c = e := by
        rcases List.mem_cons.1 member with here | later
        · exact here
        · exact absurd later again
      have others : ∀ b ∈ cells, ¬ b.Block scale p := by
        intro b hb inside
        exact again (Cell.eq_of_block positive block inside ▸ hb)
      subst same
      rw [after, after_paints_of_not_mem rest _ others, call_fill, if_pos ((exact' p).2 block)]

end Surface

end ChipEight
