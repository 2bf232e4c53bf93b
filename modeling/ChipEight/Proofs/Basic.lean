import Mathlib.Data.List.Basic

set_option autoImplicit false

namespace List

variable {ι α β : Type}

theorem intercalate_cons (sep x : List α) (xs : List (List α)) :
    intercalate sep (x :: xs) = x ++ xs.flatMap fun y => sep ++ y := by
  induction xs generalizing x with
  | nil => simp
  | cons y ys ih => rw [intercalate_cons_cons, ih, flatMap_cons, append_assoc, append_assoc]

theorem intercalate_append_sep (sep : List α) {ls : List (List α)} (filled : ls ≠ []) :
    intercalate sep ls ++ sep = ls.flatMap fun l => l ++ sep := by
  induction ls with
  | nil => exact absurd rfl filled
  | cons l rest ih =>
    cases rest with
    | nil => simp
    | cons k rest =>
      rw [intercalate_cons_cons, append_assoc, ih (by simp)]
      simp

theorem append_cons_inj {P : α → Prop} {xs ys r s : List α} {a b : α} (before : ∀ x ∈ xs, ¬ P x)
    (before' : ∀ y ∈ ys, ¬ P y) (here : P a) (here' : P b) (h : xs ++ a :: r = ys ++ b :: s) :
    xs = ys ∧ a :: r = b :: s := by
  induction xs generalizing ys with
  | nil =>
    cases ys with
    | nil => exact ⟨rfl, h⟩
    | cons y ys =>
      obtain ⟨rfl, _⟩ := cons.inj h
      exact absurd here (before' a (by simp))
  | cons x xs ih =>
    cases ys with
    | nil =>
      obtain ⟨rfl, _⟩ := cons.inj h
      exact absurd here' (before x (by simp))
    | cons y ys =>
      obtain ⟨rfl, further⟩ := cons.inj h
      obtain ⟨rfl, rest⟩ := ih (fun z hz => before z (by simp [hz]))
        (fun z hz => before' z (by simp [hz])) further
      exact ⟨rfl, rest⟩

/-- Each item of a list says where it ends, and what it stands for. -/
theorem flatMap_append_inj {f g : ι → List α} {Q : ι → Prop} {items : List ι}
    (each : ∀ k ∈ items, ∀ r s, f k ++ r = g k ++ s → Q k ∧ r = s) {r s : List α}
    (h : items.flatMap f ++ r = items.flatMap g ++ s) : (∀ k ∈ items, Q k) ∧ r = s := by
  induction items with
  | nil => exact ⟨fun _ member => (not_mem_nil member).elim, h⟩
  | cons k rest ih =>
    simp only [flatMap_cons, append_assoc] at h
    obtain ⟨first, further⟩ := each k (by simp) _ _ h
    obtain ⟨all, tail⟩ := ih (fun j hj => each j (by simp [hj])) further
    exact ⟨forall_mem_cons.2 ⟨first, all⟩, tail⟩

section

variable {f : α → Option β} {g : α → β} {xs : List α}

theorem takeWhile_isSome_eq_map (reads : ∀ x ∈ xs, f x = some (g x)) :
    ((xs.map f).takeWhile Option.isSome).filterMap id = xs.map g := by
  induction xs with
  | nil => rfl
  | cons x rest ih =>
    have later := ih fun z hz => reads z (by simp [hz])
    rw [map_cons, map_cons, reads x (by simp), takeWhile_cons_of_pos rfl, ← later]
    rfl

theorem mapM_eq_map (reads : ∀ x ∈ xs, f x = some (g x)) : xs.mapM f = some (xs.map g) := by
  induction xs with
  | nil => rfl
  | cons x rest ih =>
    rw [mapM_cons, reads x (by simp), ih fun z hz => reads z (by simp [hz])]
    rfl

end

end List

namespace Except

theorem exists_of_map_eq_ok {ε α β : Type} {x : Except ε α} {f : α → β} {b : β}
    (h : x.map f = .ok b) : ∃ a, x = .ok a ∧ f a = b := by
  cases x with
  | error e => cases h
  | ok a => exact ⟨a, rfl, Except.ok.inj h⟩

theorem eq_ok_of_toOption_eq_some {ε α : Type} {x : Except ε α} {a : α} (h : x.toOption = some a) :
    x = .ok a := by
  cases x with
  | error e => cases h
  | ok b => exact congrArg Except.ok (Option.some.inj h)

end Except
