import ChipEight.Proofs.Basic
import ChipEight.Proofs.Surface
import ChipEight.Proofs.DisplayCalls

set_option autoImplicit false

namespace ChipEight

namespace WindowScreen

variable {toolkit : Toolkit} {width height n : Int}
  {s : WindowScreen toolkit width height (some n)}

theorem exists_of_mem_paints {scale : Option Int} {s : WindowScreen toolkit width height scale}
    {call : WindowCall} (h : call ∈ s.paints) : ∃ c ∈ s.due, ∃ area, block toolkit scale c = some area ∧
      call = .fill (s.litAt c) area := by
  simp only [paints, List.mem_filterMap, id_eq, exists_eq_right] at h
  obtain ⟨c, here, painted⟩ := List.mem_map.1 ((List.takeWhile_prefix _).subset h)
  obtain ⟨area, named, rfl⟩ := Option.map_eq_some_iff.1 painted
  exact ⟨c, here, area, named, rfl⟩

theorem present_eq_done {scale : Option Int} {s shown : WindowScreen toolkit width height scale}
    (presented : s.present = .done shown) : shown = { s with
      touched := ∅
      repaint := false
      renders := s.renders + 1
      calls := (s.calls ++ s.paints).push (.update (s.dueAreas.getD [])) } := by
  unfold present at presented
  dsimp only at presented
  split at presented
  · exact (congrArg Outcome.state presented).symm
  · simp [Outcome.failed, Outcome.done] at presented

structure Fits (toolkit : Toolkit) (width height n : Int) : Prop where
  columns : 1 ≤ width
  rows : 1 ≤ height
  scale : 1 ≤ n
  named : toolkit.Names (width * n) (height * n)

theorem strip_le {a width n : Int} (a0 : 0 ≤ a) (a1 : a < width) (positive : 1 ≤ n) :
    0 ≤ a * n ∧ a * n + n ≤ width * n := by
  have low : 0 ≤ a * n := Int.mul_nonneg a0 (by omega)
  have high : (a + 1) * n ≤ width * n := Int.mul_le_mul_of_nonneg_right a1 (by omega)
  rw [Int.add_mul, Int.one_mul] at high
  exact ⟨low, high⟩

theorem block_of_within (positive : 1 ≤ n) (named : toolkit.Names (width * n) (height * n)) {c : Cell}
    (h : c.Within width height) : block toolkit (some n) c = some (c.area n) := by
  obtain ⟨x0, x1, y0, y1⟩ := h
  obtain ⟨left, right⟩ := strip_le x0 x1 positive
  obtain ⟨top, bottom⟩ := strip_le y0 y1 positive
  exact named _ _ _ _ left top (by omega) (by omega) right bottom

theorem whole_of_fits (fits : Fits toolkit width height n) :
    whole toolkit width height (some n) = some ⟨0, 0, width * n, height * n⟩ := by
  obtain ⟨columns, rows, positive, named⟩ := fits
  have w0 : 0 ≤ width * n := Int.mul_nonneg (by omega) (by omega)
  have h0 : 0 ≤ height * n := Int.mul_nonneg (by omega) (by omega)
  exact named _ _ _ _ (by omega) (by omega) w0 h0 (by omega) (by omega)

theorem contains_whole (positive : 1 ≤ n) {c : Cell} (h : c.Within width height) {p : Pixel}
    (block : c.Block n p) : Rect.Contains ⟨0, 0, width * n, height * n⟩ p := by
  obtain ⟨x0, x1, y0, y1⟩ := h
  obtain ⟨px0, px1, py0, py1⟩ := block
  obtain ⟨left, right⟩ := strip_le x0 x1 positive
  obtain ⟨top, bottom⟩ := strip_le y0 y1 positive
  rw [Int.add_mul, Int.one_mul] at px1 py1
  simp only [Rect.Contains]
  omega

theorem mem_allCells {c : Cell} : c ∈ allCells width height ↔ c.Within width height := by
  obtain ⟨x, y⟩ := c
  simp only [allCells, List.mem_flatMap, List.mem_map, List.mem_range, Cell.mk.injEq, Cell.Within]
  constructor
  · rintro ⟨row, hrow, column, hcolumn, rfl, rfl⟩
    omega
  · rintro ⟨x0, x1, y0, y1⟩
    exact ⟨y.toNat, by omega, x.toNat, by omega, by omega, by omega⟩

def TouchedWithin (s : WindowScreen toolkit width height (some n)) : Prop :=
  ∀ c, c ∈ s.touched → c.Within width height

theorem nodup_touched (s : WindowScreen toolkit width height (some n)) : s.touched.toList.Nodup := by
  refine Std.TreeSet.distinct_toList.imp ?_
  rintro c e apart rfl
  exact apart Std.ReflCmp.compare_self

theorem within_of_mem_due (touched : s.TouchedWithin) {c : Cell} (h : c ∈ s.due) :
    c.Within width height := by
  unfold due at h
  split at h
  · exact mem_allCells.1 h
  · exact touched c (Std.TreeSet.mem_toList.1 h)

theorem paints_due (positive : 1 ≤ n) (named : toolkit.Names (width * n) (height * n))
    (within : ∀ c ∈ s.due, c.Within width height) :
    List.Forall₂ (Paints n s.litAt) s.due s.paints := by
  have painted : s.paints = s.due.map fun c => .fill (s.litAt c) (c.area n) := by
    apply List.takeWhile_isSome_eq_map
    intro c due
    simp only [paint, block_of_within positive named (within c due), Option.map_some, litAt]
  rw [painted, List.forall₂_map_right_iff, List.forall₂_same]
  exact fun c _ => ⟨c.area n, rfl, fun _ => Cell.contains_area⟩

theorem dueAreas_cover (fits : Fits toolkit width height n) (touched : s.TouchedWithin) :
    ∃ areas, s.dueAreas = some areas ∧
      ∀ c ∈ s.due, ∀ p, c.Block n p → ∃ r ∈ areas, r.Contains p := by
  cases all : s.repaint with
  | true =>
    refine ⟨[_], by rw [dueAreas, if_pos all, whole_of_fits fits]; rfl, ?_⟩
    intro c due p block
    exact ⟨_, by simp, contains_whole fits.scale (within_of_mem_due touched due) block⟩
  | false =>
    have dueCells : s.due = s.touched.toList := by simp [due, all]
    refine ⟨s.due.map (Cell.area n), ?_, ?_⟩
    · simp only [dueAreas, all, Bool.false_eq_true, if_false, dueCells]
      apply List.mapM_eq_map
      intro c here
      exact block_of_within fits.scale fits.named (touched c (Std.TreeSet.mem_toList.1 here))
    · intro c due p block
      exact ⟨c.area n, List.mem_map_of_mem due, Cell.contains_area.2 block⟩

theorem presentable_of_fits (fits : Fits toolkit width height n) (touched : s.TouchedWithin) :
    s.presentable = true := by
  obtain ⟨areas, named, _⟩ := dueAreas_cover fits touched
  simp only [presentable, named, Option.isSome_some, Bool.true_and, List.all_eq_true]
  intro c due
  rw [block_of_within fits.scale fits.named (within_of_mem_due touched due)]
  rfl

theorem present_of_presentable (able : s.presentable = true) {areas : List Rect}
    (named : s.dueAreas = some areas) :
    s.present = .done { s with
      touched := ∅
      repaint := false
      renders := s.renders + 1
      calls := (s.calls ++ s.paints).push (.update areas) } := by
  unfold present
  rw [if_pos able, named]
  rfl

theorem present_of_fits (fits : Fits toolkit width height n) (touched : s.TouchedWithin) :
    ∃ areas shown, s.present = .done shown ∧
      shown.calls.toList = s.calls.toList ++ s.paints ++ [.update areas] ∧
      (∀ c ∈ s.due, ∀ p, c.Block n p → ∃ r ∈ areas, r.Contains p) ∧
      shown.touched = ∅ ∧ shown.repaint = false ∧ ∀ c, shown.litAt c = s.litAt c := by
  obtain ⟨areas, named, cover⟩ := dueAreas_cover fits touched
  have able := presentable_of_fits fits touched
  refine ⟨areas, _, present_of_presentable able named, ?_, cover, rfl, rfl, fun c => rfl⟩
  simp

end WindowScreen

end ChipEight
