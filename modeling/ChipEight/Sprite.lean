import ChipEight.Core
import ChipEight.Fault
import ChipEight.Display

set_option autoImplicit false

namespace ChipEight

structure Sprite where
  x : UInt8
  y : UInt8
  rows : List UInt8

namespace Sprite

def columns (byte : UInt8) : List Nat :=
  (List.range 8).filter fun column => byte.toNat.testBit (7 - column)

def cell (s : Sprite) (column row : Nat) : Cell :=
  ⟨((s.x.toNat + column) % displayWidth : Nat), ((s.y.toNat + row) % displayHeight : Nat)⟩

def cells (s : Sprite) : List Cell :=
  s.rows.zipIdx.flatMap fun (byte, row) => (columns byte).map fun column => s.cell column row

theorem mem_columns {byte : UInt8} {k : Nat} :
    k ∈ columns byte ↔ k < 8 ∧ byte.toNat.testBit (7 - k) = true := by
  simp [columns]

theorem mem_cells {s : Sprite} {c : Cell} :
    c ∈ s.cells ↔ ∃ row byte k, s.rows[row]? = some byte ∧ k ∈ columns byte ∧ c = s.cell k row := by
  simp only [cells, List.mem_flatMap, List.mem_map, Prod.exists, List.mem_zipIdx_iff_getElem?]
  constructor
  · rintro ⟨byte, row, found, k, lit, rfl⟩
    exact ⟨row, byte, k, found, lit, rfl⟩
  · rintro ⟨row, byte, k, found, lit, rfl⟩
    exact ⟨byte, row, found, k, lit, rfl⟩

theorem cell_inj {s : Sprite} {k k' r r' : Nat} (hk : k < 8) (hk' : k' < 8) (hr : r < 32)
    (hr' : r' < 32) (h : s.cell k r = s.cell k' r') : k = k' ∧ r = r' := by
  simp only [cell, displayWidth, displayHeight, Cell.mk.injEq] at h
  omega

end Sprite

/-- The display after some cells were flipped, whether one of them had been lit, and the cell at
which the display failed, if one did. -/
structure Drawing (δ : Type) where
  display : δ
  hit : Bool
  missing : Option Cell

variable {δ : Type} [Display δ]

/-- Look at each cell, then flip it; stop at the first cell that the display does not have. -/
def Drawing.flipAll : List Cell → Bool → δ → Drawing δ
  | [], hit, d => ⟨d, hit, none⟩
  | c :: rest, hit, d =>
    match Display.look d c with
    | none => ⟨d, hit, some c⟩
    | some (lit, looked) =>
      match Display.flip looked c with
      | none => ⟨looked, hit, some c⟩
      | some flipped => flipAll rest (hit || lit) flipped

def Core.sprite (c : Core) (x y rows : Fin 16) : Sprite :=
  ⟨c.v.read x, c.v.read y, c.memory.slice c.index.toNat rows⟩

def Core.paint (c : Core) (d : δ) : Instruction → Drawing δ
  | .clear => ⟨Display.clear d, false, none⟩
  | .draw x y rows => Drawing.flipAll (c.sprite x y rows).cells false d
  | _ => ⟨d, false, none⟩

end ChipEight
