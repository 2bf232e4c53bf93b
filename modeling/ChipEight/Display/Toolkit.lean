set_option autoImplicit false

/-!
# The windowing toolkit

The window belongs to a toolkit that is not part of this library. Two of its answers decide how a
session goes on: the area it makes of a place and a size, if it can name one, and whether it opens a
window of a given size. What its documents promise is that it names every area inside a window that
it opened, and names it as it was asked for.
-/
namespace ChipEight

structure Rect where
  x : Int
  y : Int
  width : Int
  height : Int
  deriving DecidableEq

structure Toolkit where
  /-- From a place, a width and a height. -/
  rect? : Int → Int → Int → Int → Option Rect
  /-- The calls that set up a window of this size return. The size is missing if it cannot be said. -/
  opens : Option (Int × Int) → Bool

namespace Toolkit

/-- The areas inside a window of this size are named as they are. -/
def Names (t : Toolkit) (width height : Int) : Prop :=
  ∀ x y w h, 0 ≤ x → 0 ≤ y → 0 ≤ w → 0 ≤ h → x + w ≤ width → y + h ≤ height →
    t.rect? x y w h = some ⟨x, y, w, h⟩

structure Lawful (t : Toolkit) : Prop where
  names : ∀ width height, t.opens (some (width, height)) = true → t.Names width height

/-- A toolkit that counts up to a limit in either direction. -/
def upTo (limit : Int) : Toolkit where
  rect? x y w h :=
    if [x, y, w, h].all fun z => decide (-limit ≤ z) && decide (z < limit) then some ⟨x, y, w, h⟩
    else none
  opens
    | some (width, height) =>
      decide (0 < width) && decide (width < limit) && decide (0 < height) && decide (height < limit)
    | none => false

theorem names_upTo {limit width height : Int} (wide : width < limit) (high : height < limit) :
    (upTo limit).Names width height := by
  intro x y w h hx hy hw hh inWidth inHeight
  have counted : ∀ z ∈ [x, y, w, h], -limit ≤ z ∧ z < limit := by
    intro z hz
    simp only [List.mem_cons, List.not_mem_nil, or_false] at hz
    rcases hz with rfl | rfl | rfl | rfl <;> omega
  exact if_pos (by simpa [List.all_eq_true] using counted)

theorem lawful_upTo (limit : Int) : (upTo limit).Lawful := by
  refine ⟨fun width height opened => ?_⟩
  simp only [upTo, Bool.and_eq_true, decide_eq_true_eq] at opened
  exact names_upTo opened.1.1.2 opened.2

end Toolkit

end ChipEight
