set_option autoImplicit false

namespace ChipEight

instance neZero_sixteen : @NeZero Nat Zero.ofOfNat0 16 := ⟨by decide⟩

abbrev Bank (α : Type) := Vector α 16

namespace Bank

variable {α : Type}

def read (b : Bank α) (k : Fin 16) : α := b[k]

def write (b : Bank α) (k : Fin 16) (a : α) : Bank α := b.set k a

@[simp]
theorem read_write (b : Bank α) (j k : Fin 16) (a : α) :
    (b.write j a).read k = if j = k then a else b.read k := by
  simp [read, write, Vector.getElem_set, Fin.ext_iff]

@[simp]
theorem read_ofFn (f : Fin 16 → α) (k : Fin 16) : read (Vector.ofFn f) k = f k := by
  simp [read]

@[simp]
theorem read_replicate (a : α) (k : Fin 16) : read (Vector.replicate 16 a) k = a := by
  simp [read]

theorem ext {b c : Bank α} (h : ∀ k, b.read k = c.read k) : b = c :=
  Vector.ext fun k hk => h ⟨k, hk⟩

end Bank

end ChipEight
