import ChipEight.Text.Numeral
import ChipEight.Proofs.Basic
import Mathlib.Algebra.Group.Nat.Defs

set_option autoImplicit false

namespace ChipEight.Hex

def IsDigit (c : Char) : Prop := ∃ d, d < 16 ∧ c = digit d

def number (cs : List Char) : Nat := cs.foldl (fun n c => 16 * n + (value? c).getD 0) 0

theorem number_concat (cs : List Char) {d : Nat} (h : d < 16) :
    number (cs ++ [digit d]) = 16 * number cs + d := by
  rw [number, List.foldl_append, List.foldl_cons, List.foldl_nil, value?_digit h]
  rfl

theorem number_zeros (k : Nat) (cs : List Char) :
    number (List.replicate k '0' ++ cs) = number cs := by
  have zero : (value? '0').getD 0 = 0 := by decide
  induction k with
  | zero => rfl
  | succ k ih =>
    rw [List.replicate_succ, List.cons_append, number, List.foldl_cons, zero]
    exact ih

theorem number_digits (n : Nat) : number (digits n) = n := by
  induction n using digits.induct with
  | case1 n small =>
    rw [digits, if_pos small]
    simpa [number] using number_concat [] small
  | case2 n large ih =>
    have last : n % 16 < 16 := Nat.mod_lt n (by decide)
    rw [digits, if_neg large, number_concat _ last, ih]
    omega

theorem number_padded (width n : Nat) : number (padded width n) = n := by
  rw [padded, number_zeros, number_digits]

theorem isDigit_of_mem_digits {n : Nat} {c : Char} (h : c ∈ digits n) : IsDigit c := by
  induction n using digits.induct with
  | case1 n small =>
    rw [digits, if_pos small, List.mem_singleton] at h
    exact ⟨n, small, h⟩
  | case2 n large ih =>
    rw [digits, if_neg large, List.mem_append, List.mem_singleton] at h
    rcases h with earlier | last
    · exact ih earlier
    · exact ⟨n % 16, Nat.mod_lt n (by decide), last⟩

theorem isDigit_of_mem_padded {width n : Nat} {c : Char} (h : c ∈ padded width n) : IsDigit c := by
  rw [padded, List.mem_append] at h
  rcases h with zero | digit
  · exact ⟨0, by decide, (List.mem_replicate.1 zero).2⟩
  · exact isDigit_of_mem_digits digit

abbrev Stops (c : Char) : Prop := value? c = none

theorem Stops.not_mem_padded {c : Char} (stops : Stops c) (width n : Nat) : c ∉ padded width n := by
  intro member
  obtain ⟨d, small, rfl⟩ := isDigit_of_mem_padded member
  rw [Stops, value?_digit small] at stops
  cases stops

/-- A number ends where its digits do. -/
theorem padded_append_inj {width m n : Nat} {a b : Char} {r s : List Char} (here : Stops a)
    (here' : Stops b) (h : padded width m ++ a :: r = padded width n ++ b :: s) :
    m = n ∧ a :: r = b :: s := by
  have digits : ∀ k : Nat, ∀ c ∈ padded width k, ¬ Stops c :=
    fun k c member stops => stops.not_mem_padded width k member
  obtain ⟨same, rest⟩ := List.append_cons_inj (digits m) (digits n) here here' h
  refine ⟨?_, rest⟩
  rw [← number_padded width m, same, number_padded]

theorem length_digits_le {k n : Nat} (h : n < 16 ^ (k + 1)) : (digits n).length ≤ k + 1 := by
  induction k generalizing n with
  | zero =>
    rw [digits, if_pos (by simpa using h)]
    exact Nat.le_refl 1
  | succ k ih =>
    rw [digits]
    split
    · simp
    · have less : n / 16 < 16 ^ (k + 1) := by
        rw [Nat.div_lt_iff_lt_mul (by decide), ← Nat.pow_succ]
        exact h
      rw [List.length_append]
      exact Nat.add_le_add_right (ih less) 1

theorem length_padded {k n : Nat} (h : n < 16 ^ (k + 1)) : (padded (k + 1) n).length = k + 1 := by
  have := length_digits_le h
  rw [padded, List.length_append, List.length_replicate]
  omega

theorem padded_two {n : Nat} (h : n < 256) : padded 2 n = [digit (n / 16), digit (n % 16)] := by
  rw [padded, digits]
  split
  · rename_i small
    rw [Nat.div_eq_of_lt small, Nat.mod_eq_of_lt small]
    rfl
  · have first : n / 16 < 16 := by omega
    rw [digits, if_pos first]
    rfl

end ChipEight.Hex
