import ChipEight.Proofs.InstructionForms
import ChipEight.Proofs.PlainView

set_option autoImplicit false

namespace ChipEight

/-- The registers after an operation: the value went to `x` and then the flag, if there is one, to
the flag register. -/
structure Combined (v after : Registers) (x : Fin 16) (value : Int) (flag : Option Int) : Prop where
  flagged : ∀ f ∈ flag, ((after.read flagRegister).toNat : Int) = f
  stored : (x = flagRegister → flag = none) → ((after.read x).toNat : Int) = value
  kept : ∀ k, k ≠ x → (k = flagRegister → flag = none) → after.read k = v.read k

namespace Arithmetic

theorem combined_apply (s : Settings) (op : Arithmetic) (x y : Fin 16) (v : Registers) :
    Combined v (op.apply s x y v) x (op.value s (v.read x).toNat (v.read y).toNat)
      (op.flagValue s (v.read x).toNat (v.read y).toNat) := by
  rw [← toNat_result, ← toNat_flag]
  unfold apply
  cases op.flag s (v.read x) (v.read y) with
  | none =>
    refine ⟨by simp, fun _ => by simp, fun k other _ => ?_⟩
    simp [other.symm]
  | some f =>
    refine ⟨by simp, fun apart => ?_, fun k other apart => ?_⟩
    · have second : flagRegister ≠ x := fun same => by simpa using apart same.symm
      simp [second]
    · have second : flagRegister ≠ k := fun same => by simpa using apart same.symm
      simp [second, other.symm]

end Arithmetic

namespace Instruction

theorem eq_combine_of_form {op : Arithmetic} {i : Instruction} {x y : Fin 16}
    (h : i.form = (combine op x y).form) : ∃ x y, i = combine op x y := by
  cases i with
  | combine op' x y =>
    cases op <;> cases op' <;> first | exact ⟨x, y, rfl⟩ | simp [form] at h
  | _ => cases op <;> simp [form] at h

theorem eq_encode_combine {w : Word} (op : Arithmetic)
    (has : w.HasForm (combine op w.x w.y).form) : w = (combine op w.x w.y).encode := by
  obtain ⟨i, rfl, form⟩ := exists_of_hasForm (form_mem_forms _) has
  obtain ⟨x, y, rfl⟩ := eq_combine_of_form form
  simp only [encode, Word.x_ofDigits, Word.y_ofDigits, Nat.reduceLT]

end Instruction

namespace Machine

variable {δ : Type} [Display δ]

def Combines (m : Machine δ) (value : Int) (flag : Option Int) : Prop :=
  ∃ v, m.cycle = .done { m with core := { m.core with v := v, pc := m.core.pc + 2 } } ∧
    Combined m.core.v v m.core.fetch.x value flag

theorem combines_of_hasForm {m : Machine δ} (awake : m.core.wait = none) (op : Arithmetic)
    (has : m.core.fetch.HasForm (Instruction.combine op m.core.fetch.x m.core.fetch.y).form) :
    let a := (m.core.v.read m.core.fetch.x).toNat
    let b := (m.core.v.read m.core.fetch.y).toNat
    m.Combines (op.value m.settings a b) (op.flagValue m.settings a b) :=
  ⟨_, cycle_of_execute awake (Instruction.eq_encode_combine op has) rfl rfl,
    op.combined_apply m.settings _ _ m.core.v⟩

/-- The operations with a flag, and the bitwise ones. `a` and `b` are the values of the two
registers before the cycle, whichever registers they are. -/
theorem cycle_combines (m : Machine δ) (awake : m.core.wait = none) :
    let w := m.core.fetch
    let a := (m.core.v.read w.x).toNat
    let b := (m.core.v.read w.y).toNat
    let shifted := if m.settings.shiftSecond then b else a
    let cleared : Option Int := if m.settings.clearFlag then some 0 else none
    (w.HasForm "8xy4" → m.Combines ((a + b) % 256) (some (if 255 < a + b then 1 else 0))) ∧
    (w.HasForm "8xy5" → m.Combines ((a - b) % 256) (some (if b ≤ a then 1 else 0))) ∧
    (w.HasForm "8xy7" → m.Combines ((b - a) % 256) (some (if a ≤ b then 1 else 0))) ∧
    (w.HasForm "8xy6" → m.Combines (shifted / 2) (some (shifted.testBit 0).toNat)) ∧
    (w.HasForm "8xyE" → m.Combines (2 * shifted % 256) (some (shifted.testBit 7).toNat)) ∧
    (w.HasForm "8xy1" → m.Combines (a ||| b : Nat) cleared) ∧
    (w.HasForm "8xy2" → m.Combines (a &&& b : Nat) cleared) ∧
    (w.HasForm "8xy3" → m.Combines (a ^^^ b : Nat) cleared) := by
  intro w a b shifted cleared
  have operand : Arithmetic.operand m.settings a b = shifted := by
    simp only [Arithmetic.operand, shifted]
    split <;> rfl
  have lowest : (shifted.testBit 0).toNat = (shifted : Int) % 2 := by
    rw [Nat.toNat_testBit]
    omega
  have highest : (shifted.testBit 7).toNat = (shifted : Int) / 128 % 2 := by
    rw [Nat.toNat_testBit]
    omega
  refine ⟨fun has => ?_, fun has => ?_, fun has => ?_, fun has => ?_, fun has => ?_,
    combines_of_hasForm awake .or, combines_of_hasForm awake .and, combines_of_hasForm awake .xor⟩
  · have added := combines_of_hasForm awake .add has
    have carries : 255 < a + b ↔ (255 : Int) < a + b := by omega
    simp only [carries]
    exact added
  · have subtracted := combines_of_hasForm awake .subtract has
    simpa only [Arithmetic.value, Arithmetic.flagValue, Int.ofNat_le] using subtracted
  · have subtracted := combines_of_hasForm awake .subtractFrom has
    simpa only [Arithmetic.value, Arithmetic.flagValue, Int.ofNat_le] using subtracted
  · have halved := combines_of_hasForm awake .shiftRight has
    rw [lowest, ← operand]
    exact halved
  · have doubled := combines_of_hasForm awake .shiftLeft has
    rw [highest, ← operand, Int.mul_comm]
    exact doubled

/-- The flag register taken from itself, a register shifted with itself, and a sum of which only the
carry survives. -/
theorem cycle_combines_aliased :
    let core := { Core.powerOn with v := Vector.replicate 16 0x81 }
    let difference := poised core 0x8FF5
    let doubled := poised core 0x833E
    let sum := poised core 0x8F34
    (difference.cycle.state.core.v.read flagRegister).toNat = (1 : Int) ∧
      (doubled.cycle.state.core.v.read 3).toNat = (2 : Int) ∧
      (doubled.cycle.state.core.v.read flagRegister).toNat = (1 : Int) ∧
      doubled.cycle.state.core.v.read 4 = 0x81 ∧
      (sum.cycle.state.core.v.read flagRegister).toNat = (1 : Int) := by
  intro core difference doubled sum
  have first : difference.core.fetch = 0x8FF5 := Core.fetch_withWord _ _
  have second : doubled.core.fetch = 0x833E := Core.fetch_withWord _ _
  have third : sum.core.fetch = 0x8F34 := Core.fetch_withWord _ _
  obtain ⟨_, subtracts, _⟩ := cycle_combines difference rfl
  obtain ⟨_, _, _, _, doubles, _⟩ := cycle_combines doubled rfl
  obtain ⟨adds, _⟩ := cycle_combines sum rfl
  rw [first] at subtracts
  rw [second] at doubles
  rw [third] at adds
  obtain ⟨v, subtracted, difference'⟩ := subtracts (by decide)
  obtain ⟨u, shifted, doubled'⟩ := doubles (by decide)
  obtain ⟨t, added, sum'⟩ := adds (by decide)
  rw [second] at doubled'
  rw [subtracted, shifted, added]
  refine ⟨?_, ?_, ?_, ?_, ?_⟩
  · exact (difference'.flagged _ rfl).trans (by decide)
  · exact (doubled'.stored (by decide)).trans (by decide)
  · exact (doubled'.flagged _ rfl).trans (by decide)
  · exact (doubled'.kept 4 (by decide) (by decide)).trans (by decide)
  · exact (sum'.flagged _ rfl).trans (by decide)

end Machine

end ChipEight
