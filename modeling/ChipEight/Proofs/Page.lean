import ChipEight.Display.Picture
import ChipEight.Proofs.Basic

set_option autoImplicit false

namespace ChipEight.TextScreen

variable {width height : Nat}

def glyph (lit : Bool) : Char := if lit then litGlyph else darkGlyph

def page (width height : Nat) (lit : Cell → Bool) : List Char :=
  (List.range height).flatMap fun (y : Nat) =>
    (List.range width).map (fun (x : Nat) => glyph (lit ⟨x, y⟩)) ++ ['\n']

theorem page_congr {lit lit' : Cell → Bool}
    (same : ∀ x y : Nat, x < width → y < height → lit ⟨x, y⟩ = lit' ⟨x, y⟩) :
    page width height lit = page width height lit' := by
  have row : ∀ y ∈ List.range height,
      (List.range width).map (fun (x : Nat) => glyph (lit ⟨x, y⟩)) ++ ['\n'] =
        (List.range width).map (fun (x : Nat) => glyph (lit' ⟨x, y⟩)) ++ ['\n'] := by
    intro y hy
    refine congrArg (· ++ ['\n']) (List.map_congr_left fun x hx => ?_)
    rw [same x y (List.mem_range.1 hx) (List.mem_range.1 hy)]
  simp only [page, List.flatMap, List.map_congr_left row]

theorem litAt_of_lt (s : TextScreen width height) {x y : Nat} (hx : x < width) (hy : y < height) :
    s.litAt ⟨x, y⟩ = s.rows[y][x] := by
  simp [litAt, isLit, place, slot_ofNat hx, slot_ofNat hy]

theorem map_line (s : TextScreen width height) : s.rows.toList.map line =
    (List.range height).map fun (y : Nat) =>
      (List.range width).map fun (x : Nat) => glyph (s.litAt ⟨x, y⟩) := by
  apply List.ext_getElem
  · simp
  intro y hy _
  have row : y < height := by simpa using hy
  apply List.ext_getElem
  · simp [line]
  intro x hx _
  have column : x < width := by simpa [line] using hx
  simp [line, glyph, litAt_of_lt s column row]

theorem toList_render (rows : 0 < height) (s : TextScreen width height) :
    (s.render ++ "\n").toList = page width height s.litAt := by
  have filled : s.rows.toList.map line ≠ [] := by
    intro none
    have := congrArg List.length none
    simp at this
    omega
  have lines := List.intercalate_append_sep ['\n'] filled
  rw [map_line, List.flatMap_map] at lines
  rw [String.toList_append, render, String.toList_ofList, map_line]
  exact lines

end ChipEight.TextScreen
