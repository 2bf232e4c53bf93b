set_option autoImplicit false

namespace ChipEight

structure Cell where
  x : Int
  y : Int
  deriving DecidableEq

namespace Cell

def order : Cell → Cell → Ordering :=
  compareLex (compareOn Cell.x) (compareOn Cell.y)

instance : Std.TransCmp order :=
  inferInstanceAs (Std.TransCmp (compareLex (compareOn Cell.x) (compareOn Cell.y)))

theorem eq_of_order {a b : Cell} (h : order a b = .eq) : a = b := by
  simp only [order, compareLex_eq_eq, compareOn, Std.compare_eq_iff_eq] at h
  cases a
  cases b
  simp_all

instance : Std.LawfulEqCmp order where
  eq_of_compare := eq_of_order

end Cell

/-- The slot of a row of `n` that position `z` names: itself, or counted back from the end. -/
def slot (n : Nat) (z : Int) : Option (Fin n) :=
  if h : 0 ≤ z ∧ z < n then some ⟨z.toNat, by omega⟩
  else if h : z < 0 ∧ -n ≤ z then some ⟨(z + n).toNat, by omega⟩
  else none

theorem slot_of_nonneg {n : Nat} {z : Int} (low : 0 ≤ z) (high : z < n) :
    slot n z = some ⟨z.toNat, by omega⟩ := by
  simp [slot, low, high]

theorem slot_ofNat {n k : Nat} (h : k < n) : slot n k = some ⟨k, h⟩ := by
  simp [slot, h]

end ChipEight
