import ChipEight.Sprite
import ChipEight.Display.Picture
import Mathlib.Data.List.Nodup

set_option autoImplicit false

namespace ChipEight

namespace Sprite

theorem onPicture_cell (s : Sprite) (k r : Nat) : (s.cell k r).OnPicture := by
  simp only [Cell.OnPicture, cell, displayWidth, displayHeight]
  omega

theorem onPicture_of_mem_cells {s : Sprite} {c : Cell} (h : c ∈ s.cells) : c.OnPicture := by
  obtain ⟨row, byte, k, _, _, rfl⟩ := mem_cells.1 h
  exact onPicture_cell s k row

theorem nodup_columns (byte : UInt8) : (columns byte).Nodup :=
  List.nodup_range.filter _

theorem lt_of_mem_columns {byte : UInt8} {k : Nat} (h : k ∈ columns byte) : k < 8 :=
  (mem_columns.1 h).1

theorem nodup_cells {s : Sprite} (low : s.rows.length ≤ displayHeight) : s.cells.Nodup := by
  have inside : ∀ p ∈ s.rows.zipIdx, p.2 < 32 := by
    intro p hp
    have := (List.mem_zipIdx hp).2.1
    simp only [displayHeight] at low
    omega
  have apart : s.rows.zipIdx.Pairwise fun p q => p.2 ≠ q.2 := by
    rw [← List.pairwise_map (f := Prod.snd) (R := (· ≠ ·)), List.zipIdx_map_snd]
    exact List.nodup_range'
  rw [cells, List.nodup_flatMap]
  constructor
  · intro p hp
    refine (nodup_columns p.1).map_on ?_
    intro k hk j hj same
    exact (cell_inj (lt_of_mem_columns hk) (lt_of_mem_columns hj) (inside p hp) (inside p hp)
      same).1
  · refine apart.imp_of_mem ?_
    intro p q hp hq rows c inP inQ
    obtain ⟨k, hk, rfl⟩ := List.mem_map.1 inP
    obtain ⟨j, hj, same⟩ := List.mem_map.1 inQ
    exact rows (cell_inj (lt_of_mem_columns hj) (lt_of_mem_columns hk) (inside q hq) (inside p hp)
      same).2.symm

def offset (n origin : Nat) (z : Int) : Nat := ((z - origin) % n).toNat

theorem offset_wrap {n k : Nat} (origin : Nat) (h : k < n) :
    offset n origin ((origin + k) % n : Nat) = k := by
  have ahead : (origin : Int) + k - origin = k := by omega
  have short : (k : Int) % n = k := Int.emod_eq_of_lt (by omega) (by omega)
  rw [offset, Int.natCast_emod, Int.natCast_add, Int.emod_sub_emod, ahead, short]
  exact Int.toNat_natCast k

theorem wrap_offset {n : Nat} {z : Int} (origin : Nat) (low : 0 ≤ z) (high : z < n) :
    (((origin + offset n origin z) % n : Nat) : Int) = z := by
  have kept : (((z - origin) % n).toNat : Int) = (z - origin) % n :=
    Int.toNat_of_nonneg (Int.emod_nonneg _ (by omega))
  have joined : (origin : Int) + (z - origin) = z := by omega
  rw [Int.natCast_emod, Int.natCast_add, offset, kept, Int.add_emod_emod, joined]
  exact Int.emod_eq_of_lt low high

end Sprite

namespace Core

theorem nodup_cells_sprite (c : Core) (x y rows : Fin 16) : (c.sprite x y rows).cells.Nodup := by
  apply Sprite.nodup_cells
  have := rows.isLt
  simp only [sprite, Memory.length_slice, displayHeight]
  omega

/-- Whether the sprite of a drawing instruction lights a cell: the column and the row of the cell
are counted from the origin of the sprite, around the picture. -/
def spriteBit (c : Core) (x y rows : Fin 16) (p : Cell) : Bool :=
  let column := Sprite.offset displayWidth (c.v.read x).toNat p.x
  let row := Sprite.offset displayHeight (c.v.read y).toNat p.y
  decide (column < 8) && decide (row < rows.val) &&
    (c.memory.read (c.index.toNat + row)).toNat.testBit (7 - column)

theorem getElem?_slice (m : Memory) (a n r : Nat) :
    (m.slice a n)[r]? = if r < n then some (m.read (a + r)) else none := by
  by_cases h : r < n <;> simp [Memory.slice, h]

theorem mem_cells_sprite {c : Core} {x y rows : Fin 16} {p : Cell} (h : p.OnPicture) :
    p ∈ (c.sprite x y rows).cells ↔ c.spriteBit x y rows p = true := by
  obtain ⟨px, py⟩ := p
  obtain ⟨x0, x1, y0, y1⟩ := h
  have few : rows.val < displayHeight := Nat.lt_of_lt_of_le rows.isLt (by decide)
  rw [Sprite.mem_cells]
  simp only [spriteBit, sprite, getElem?_slice, Sprite.mem_columns, Sprite.cell, Cell.mk.injEq,
    Bool.and_eq_true, decide_eq_true_eq]
  constructor
  · rintro ⟨row, byte, k, found, ⟨narrow, lit⟩, rfl, rfl⟩
    obtain ⟨low, rfl⟩ : row < rows.val ∧ c.memory.read (c.index.toNat + row) = byte := by
      simpa using found
    rw [Sprite.offset_wrap _ (Nat.lt_trans narrow (by decide)),
      Sprite.offset_wrap _ (Nat.lt_trans low few)]
    exact ⟨⟨narrow, low⟩, lit⟩
  · rintro ⟨⟨narrow, low⟩, lit⟩
    exact ⟨_, _, _, if_pos low, ⟨narrow, lit⟩, (Sprite.wrap_offset _ x0 x1).symm,
      (Sprite.wrap_offset _ y0 y1).symm⟩

end Core

end ChipEight
