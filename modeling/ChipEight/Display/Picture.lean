import ChipEight.Display.Text
import ChipEight.Display.Window
import ChipEight.Display.Plane

set_option autoImplicit false

namespace ChipEight

def Cell.Within (width height : Int) (c : Cell) : Prop :=
  0 ≤ c.x ∧ c.x < width ∧ 0 ≤ c.y ∧ c.y < height

def Cell.OnPicture (c : Cell) : Prop :=
  0 ≤ c.x ∧ c.x < displayWidth ∧ 0 ≤ c.y ∧ c.y < displayHeight

theorem Cell.OnPicture.eq_ofNat {c : Cell} (h : c.OnPicture) :
    c = ⟨(c.x.toNat : Int), (c.y.toNat : Int)⟩ := by
  obtain ⟨x0, _, y0, _⟩ := h
  rw [Int.toNat_of_nonneg x0, Int.toNat_of_nonneg y0]

/-- `lit` tells which cells are lit; nothing is said of cells outside the picture. -/
structure ShowsPicture (δ : Type) [Display δ] (lit : δ → Cell → Bool) : Prop where
  look : ∀ (d : δ) (c : Cell), c.OnPicture →
    ∃ looked, Display.look d c = some (lit d c, looked) ∧
      ∀ e : Cell, e.OnPicture → lit looked e = lit d e
  flip : ∀ (d : δ) (c : Cell), c.OnPicture →
    ∃ flipped, Display.flip d c = some flipped ∧
      ∀ e : Cell, e.OnPicture → lit flipped e = if e = c then !lit d e else lit d e
  clear : ∀ (d : δ) (e : Cell), e.OnPicture → lit (Display.clear d) e = false
  present : ∀ (d : δ) (e : Cell), e.OnPicture → lit (Display.present d).state e = lit d e

namespace Plane

def isLit (p : Plane) (c : Cell) : Bool := p.lit.contains c

theorem isLit_flip (p : Plane) (c e : Cell) :
    (if p.lit.contains c then p.lit.erase c else p.lit.insert c).contains e =
      if e = c then !p.lit.contains e else p.lit.contains e := by
  by_cases same : e = c
  · subst same
    by_cases on : p.lit.contains e <;> simp [on]
  · have apart : Cell.order c e ≠ .eq := fun h => same (Cell.eq_of_order h).symm
    by_cases on : p.lit.contains c <;>
      simp [on, same, apart, Std.TreeSet.contains_erase, Std.TreeSet.contains_insert]

theorem showsPicture : ShowsPicture Plane isLit where
  look p c _ := ⟨_, rfl, fun _ _ => rfl⟩
  flip p c _ := ⟨_, rfl, fun e _ => isLit_flip p c e⟩
  clear p e _ := by simp [Display.clear, isLit, note]
  present _ _ _ := rfl

end Plane

namespace TextScreen

variable {width height : Nat}

def litAt (s : TextScreen width height) (c : Cell) : Bool := (s.isLit c).getD false

theorem place_of_onPicture (wide : displayWidth ≤ width) (high : displayHeight ≤ height) {c : Cell}
    (h : c.OnPicture) : ∃ (y : Fin height) (x : Fin width),
      place width height c = some (y, x) ∧ c = ⟨x.val, y.val⟩ := by
  have named := h.eq_ofNat
  obtain ⟨x0, x1, y0, y1⟩ := h
  simp only [displayWidth, displayHeight] at wide high x1 y1
  refine ⟨⟨c.y.toNat, by omega⟩, ⟨c.x.toNat, by omega⟩, ?_, named⟩
  rw [place, slot_of_nonneg y0 (by omega), slot_of_nonneg x0 (by omega)]
  rfl

theorem showsPicture (wide : displayWidth ≤ width) (high : displayHeight ≤ height) :
    ShowsPicture (TextScreen width height) litAt where
  look s c h := by
    obtain ⟨y, x, placed, _⟩ := place_of_onPicture wide high h
    refine ⟨s, ?_, fun _ _ => rfl⟩
    simp [Display.look, isLit, litAt, placed]
  flip s c h := by
    obtain ⟨y, x, placed, rfl⟩ := place_of_onPicture wide high h
    refine ⟨{ s with rows := s.rows.set y (s.rows[y].set x (!s.rows[y][x])) }, ?_, fun e he => ?_⟩
    · simp [Display.flip, toggle, placed]
    · obtain ⟨y', x', placed', rfl⟩ := place_of_onPicture wide high he
      simp only [litAt, isLit, placed', Option.map_some, Option.getD_some, Cell.mk.injEq]
      by_cases row : y.val = y'.val
      · by_cases column : x.val = x'.val
        · have : y = y' := Fin.ext row
          have : x = x' := Fin.ext column
          subst y' x'
          simp
        · have : y = y' := Fin.ext row
          subst y'
          simp [column]
          omega
      · simp [row]
        omega
  clear s e h := by
    obtain ⟨y, x, placed, _⟩ := place_of_onPicture wide high h
    simp [Display.clear, litAt, isLit, placed, dark]
  present _ _ _ := rfl

end TextScreen

namespace WindowScreen

variable {toolkit : Toolkit} {width height : Int} {scale : Option Int}

def litAt (s : WindowScreen toolkit width height scale) (c : Cell) : Bool := (s.isLit c).getD false

theorem place_of_within {c : Cell} (h : c.Within width height) : ∃ k : Fin (width * height).toNat,
    place width height c = some k ∧ (k.val : Int) = c.y * width + c.x := by
  obtain ⟨x0, x1, y0, y1⟩ := h
  have above : 0 ≤ c.y * width := Int.mul_nonneg y0 (by omega)
  have below : (c.y + 1) * width ≤ height * width :=
    Int.mul_le_mul_of_nonneg_right (by omega) (by omega)
  rw [Int.add_mul, Int.mul_comm height] at below
  refine ⟨⟨(c.y * width + c.x).toNat, by omega⟩, ?_, ?_⟩
  · exact slot_of_nonneg (by omega) (by omega)
  · exact Int.toNat_of_nonneg (by omega)

theorem eq_of_place_eq {c e : Cell} (hc : c.Within width height) (he : e.Within width height)
    (h : c.y * width + c.x = e.y * width + e.x) : c = e := by
  obtain ⟨x0, x1, _, _⟩ := hc
  obtain ⟨x0', x1', _, _⟩ := he
  have row : c.y = e.y := by
    rcases Int.lt_trichotomy c.y e.y with less | same | more
    · have := Int.mul_le_mul_of_nonneg_right (c := width) (Int.add_one_le_of_lt less) (by omega)
      rw [Int.add_mul] at this
      omega
    · exact same
    · have := Int.mul_le_mul_of_nonneg_right (c := width) (Int.add_one_le_of_lt more) (by omega)
      rw [Int.add_mul] at this
      omega
  have column : c.x = e.x := by
    rw [row] at h
    omega
  cases c
  cases e
  simp_all

theorem isLit_of_within (s : WindowScreen toolkit width height scale) {c : Cell}
    (h : c.Within width height) : s.isLit c = some (s.litAt c) := by
  obtain ⟨k, placed, _⟩ := place_of_within h
  simp [isLit, litAt, placed]

theorem litAt_present (s : WindowScreen toolkit width height scale) (c : Cell) :
    s.present.state.litAt c = s.litAt c := by
  unfold present
  dsimp only
  split <;> rfl

theorem litAt_clear (s : WindowScreen toolkit width height scale) {c : Cell}
    (h : c.Within width height) : s.clear.litAt c = false := by
  obtain ⟨k, placed, _⟩ := place_of_within h
  simp [WindowScreen.clear, litAt, isLit, placed, dark]

theorem toggle_of_within (s : WindowScreen toolkit width height scale) {c : Cell}
    (h : c.Within width height) : ∃ toggled, s.toggle c = some toggled ∧
      (∀ e : Cell, e.Within width height →
        toggled.litAt e = if e = c then !s.litAt e else s.litAt e) ∧
      toggled.touched = s.touched.insert c ∧ toggled.repaint = s.repaint ∧
      toggled.calls = s.calls := by
  obtain ⟨k, placed, here⟩ := place_of_within h
  refine ⟨{ s with cells := s.cells.set k (!s.cells[k]), touched := s.touched.insert c }, ?_,
    fun e he => ?_, rfl, rfl, rfl⟩
  · simp [toggle, placed]
  · obtain ⟨k', placed', there⟩ := place_of_within he
    simp only [litAt, isLit, placed', Option.map_some, Option.getD_some]
    by_cases same : k.val = k'.val
    · have : e = c := eq_of_place_eq he h (by omega)
      have : k = k' := Fin.ext same
      subst k'
      simp [*]
    · have : e ≠ c := by
        rintro rfl
        omega
      simp [*]

theorem within_of_onPicture (wide : displayWidth ≤ width) (high : displayHeight ≤ height) {c : Cell}
    (h : c.OnPicture) : c.Within width height := by
  obtain ⟨x0, x1, y0, y1⟩ := h
  exact ⟨x0, Int.lt_of_lt_of_le x1 wide, y0, Int.lt_of_lt_of_le y1 high⟩

theorem showsPicture (wide : displayWidth ≤ width) (high : displayHeight ≤ height) :
    ShowsPicture (WindowScreen toolkit width height scale) litAt where
  look s c h := by
    have inside := within_of_onPicture wide high h
    refine ⟨s, ?_, fun _ _ => rfl⟩
    simp only [Display.look, isLit_of_within s inside, Option.map_some]
  flip s c h := by
    obtain ⟨toggled, flip, turned, _⟩ := toggle_of_within s (within_of_onPicture wide high h)
    exact ⟨toggled, flip, fun e he => turned e (within_of_onPicture wide high he)⟩
  clear s e h := litAt_clear s (within_of_onPicture wide high h)
  present s e _ := litAt_present s e

end WindowScreen

end ChipEight
