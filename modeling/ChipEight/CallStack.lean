set_option autoImplicit false

namespace ChipEight

def stackSlots : Nat := 16

/-- A pop only lowers the depth, so the slots at and above it keep what was last written there. -/
structure CallStack where
  slots : Vector UInt16 16
  depth : Fin 17

instance neZero_depths : @NeZero Nat Zero.ofOfNat0 17 := ⟨by decide⟩

namespace CallStack

def empty : CallStack := ⟨Vector.replicate 16 0, 0⟩

def live (s : CallStack) : List UInt16 := s.slots.toList.take s.depth

def push (s : CallStack) (entry : UInt16) : Option CallStack :=
  if h : s.depth.val < 16 then
    some ⟨s.slots.set s.depth entry, ⟨s.depth + 1, by omega⟩⟩
  else
    none

def pop (s : CallStack) : Option (UInt16 × CallStack) :=
  if h : 0 < s.depth.val then
    have : s.depth.val - 1 < 16 := by omega
    some (s.slots[s.depth.val - 1], { s with depth := ⟨s.depth - 1, by omega⟩ })
  else
    none

theorem live_empty : empty.live = [] := rfl

theorem length_live (s : CallStack) : s.live.length = s.depth := by
  have := s.depth.isLt
  simp [live]
  omega

theorem push_eq_none_iff {s : CallStack} {e : UInt16} : s.push e = none ↔ s.depth = 16 := by
  have bound := s.depth.isLt
  have full : s.depth = 16 ↔ s.depth.val = 16 := Fin.ext_iff
  unfold push
  split
  · simp only [reduceCtorEq, false_iff]
    omega
  · simp only [true_iff]
    omega

theorem pop_eq_none_iff {s : CallStack} : s.pop = none ↔ s.depth = 0 := by
  have bare : s.depth = 0 ↔ s.depth.val = 0 := Fin.ext_iff
  unfold pop
  split
  · simp only [reduceCtorEq, false_iff]
    omega
  · simp only [true_iff]
    omega

theorem live_push {s t : CallStack} {e : UInt16} (h : s.push e = some t) :
    t.live = s.live ++ [e] := by
  unfold push at h
  split at h
  · simp only [Option.some.injEq] at h
    subst h
    rename_i room
    simp only [live, Vector.toList_set, List.take_add_one]
    rw [List.take_set_of_le (Nat.le_refl _)]
    simp [room]
  · simp at h

theorem live_pop {s t : CallStack} {e : UInt16} (h : s.pop = some (e, t)) :
    s.live = t.live ++ [e] := by
  unfold pop at h
  split at h
  · simp only [Option.some.injEq, Prod.mk.injEq] at h
    obtain ⟨rfl, rfl⟩ := h
    rename_i used
    have last := s.depth.isLt
    have top : s.depth.val - 1 < s.slots.toList.length := by
      rw [Vector.length_toList]
      omega
    have joined := List.take_append_getElem top
    rw [Nat.sub_add_cancel used] at joined
    exact joined.symm
  · simp at h

end CallStack

end ChipEight
