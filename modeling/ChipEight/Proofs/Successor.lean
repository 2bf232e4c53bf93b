import ChipEight.Proofs.InstructionForms

set_option autoImplicit false

namespace ChipEight

namespace CallStack

def top (s : CallStack) : UInt16 := Bank.read s.slots (Fin.ofNat 16 (s.depth - 1))

theorem top_of_pop {s t : CallStack} {e : UInt16} (h : s.pop = some (e, t)) : s.top = e := by
  unfold pop at h
  split at h
  · obtain ⟨rfl, _⟩ := Prod.mk.inj (Option.some.inj h)
    have bound : s.depth.val - 1 < 16 := by omega
    simp only [top, Bank.read, Fin.ofNat, Nat.mod_eq_of_lt bound]
    rfl
  · simp at h

end CallStack

namespace Core

/-- The word tests for something that holds, and so the word after it is passed over. -/
def Passes (c : Core) (w : Word) : Prop :=
  let key := Fin.ofNat 16 (c.v.read w.x).toNat
  w.HasForm "3xkk" ∧ c.v.read w.x = w.byte ∨
  w.HasForm "4xkk" ∧ c.v.read w.x ≠ w.byte ∨
  w.HasForm "5xy0" ∧ c.v.read w.x = c.v.read w.y ∨
  w.HasForm "9xy0" ∧ c.v.read w.x ≠ c.v.read w.y ∨
  w.HasForm "Ex9E" ∧ c.keys.read key = true ∨
  w.HasForm "ExA1" ∧ c.keys.read key = false

instance decidablePasses (c : Core) (w : Word) : Decidable (c.Passes w) :=
  inferInstanceAs (Decidable (_ ∧ _ ∨ _ ∧ _ ∨ _ ∧ _ ∨ _ ∧ _ ∨ _ ∧ _ ∨ _ ∧ _))

def successor (c : Core) (w : Word) : Nat :=
  if w.HasAny ["1nnn", "2nnn"] then w.address
  else if w.HasForm "Bnnn" then (w.address + (c.v.read 0).toNat) % 4096
  else if w.HasForm "00EE" then c.stack.top.toNat + 2
  else if w.HasForm "Fx0A" then c.pc
  else if c.Passes w then c.pc + 4
  else c.pc + 2

variable {s : Settings} {random : Nat → UInt8} {hit : Bool} {c d : Core}

theorem pc_skipIf (c : Core) (condition : Bool) :
    (c.skipIf condition).pc = if condition then c.pc + 4 else c.pc + 2 := by
  cases condition <;> rfl

theorem pc_execute {i : Instruction} (executed : c.execute s random hit i = .ok d) :
    d.pc = c.successor i.encode := by
  -- A test of the word for a form is one of the form of the instruction.
  have tests : ∀ form ∈ Instruction.forms, (i.encode.HasForm form ↔ form = i.form) :=
    fun _ => Instruction.hasForm_encode_iff
  simp only [Instruction.forms, List.forall_mem_cons] at tests
  simp only [successor, Passes, Word.HasAny, List.exists_mem_cons_iff, List.not_mem_nil,
    false_and, exists_false, or_false, tests]
  clear tests
  cases i with
  | ret =>
    obtain ⟨site, stack, popped, rfl⟩ := ret_eq_ok_iff.1 executed
    simp [Instruction.form, CallStack.top_of_pop popped]
  | call target =>
    obtain ⟨_, stack, pushed, rfl⟩ := call_eq_ok_iff.1 executed
    simp [Instruction.form, Instruction.encode, Word.address_ofAddress]
  | jump | jumpOffset =>
    obtain rfl := Except.ok.inj executed
    simp [Instruction.form, Instruction.encode, Word.address_ofAddress]
  | skipIfByte | skipUnlessByte =>
    obtain rfl := Except.ok.inj executed
    simp [Instruction.form, Instruction.encode, Word.x_ofByte, Word.byte_ofByte, pc_skipIf]
  | skipIfSame | skipUnlessSame =>
    obtain rfl := Except.ok.inj executed
    simp [Instruction.form, Instruction.encode, Word.x_ofDigits, Word.y_ofDigits, pc_skipIf]
  | skipIfKey | skipUnlessKey =>
    obtain rfl := Except.ok.inj executed
    simp [Instruction.form, Instruction.encode, Word.x_ofByte, keyDown, pc_skipIf]
  | combine op =>
    obtain rfl := Except.ok.inj executed
    cases op <;> simp [Instruction.form]
  | _ =>
    obtain rfl := Except.ok.inj executed
    simp [Instruction.form]

theorem successor_of_unlisted {w : Word} (unlisted : ¬ w.Listed) : c.successor w = c.pc + 2 := by
  have tests : ∀ form ∈ Instruction.forms, ¬ w.HasForm form :=
    fun form listed has => unlisted ⟨form, listed, has⟩
  simp only [Instruction.forms, List.forall_mem_cons] at tests
  simp [successor, Passes, Word.HasAny, tests]

end Core

namespace Machine

variable {δ : Type} [Display δ]

theorem pc_cycle {m : Machine δ} (awake : m.core.wait = none) (succeeds : m.cycle.fault = none) :
    m.cycle.state.core.pc = m.core.successor m.core.fetch := by
  have ended := m.cycled
  generalize m.cycle = o at ended succeeds ⊢
  cases ended with
  | waits waits => simp [awake] at waits
  | misses | refuses => simp [Outcome.failed] at succeeds
  | skips _ unread =>
    rw [Core.successor_of_unlisted (Instruction.decode_eq_none_iff.1 unread), Outcome.done,
      core_skipWord]
    rfl
  | executes _ fetched executed =>
    rw [fetched]
    exact Core.pc_execute executed

theorem after_cycles_of_waits {m : Machine δ} {x : Fin 16} (waits : m.core.wait = some x)
    (n : Nat) : m.after (List.replicate n .cycle) = m := by
  have still : m.cycle = .done m := by rw [cycle, waits]; rfl
  induction n with
  | zero => rfl
  | succ n ih =>
    rw [List.replicate_succ, after_cons, perform, still]
    exact ih

/-- Where the program counter stands after a cycle that succeeds, and while a key is awaited. -/
theorem pc_goes_to_successor (m : Machine δ) :
    (m.core.wait = none → m.cycle.fault = none →
      m.cycle.state.core.pc = m.core.successor m.core.fetch) ∧
    (m.core.wait ≠ none → ∀ n, (m.after (List.replicate n .cycle)).core.pc = m.core.pc) := by
  refine ⟨pc_cycle, fun waits n => ?_⟩
  obtain ⟨x, waits⟩ := Option.ne_none_iff_exists'.1 waits
  rw [after_cycles_of_waits waits]

theorem pc_goes_to_successor_at_edge :
    let jump := poised { Core.powerOn with v := Vector.replicate 16 0xFF } 0xBF05
    let back := poised { Core.powerOn with stack := ⟨Vector.replicate 16 0xFFFE, 1⟩ } 0x00EE
    let pressed := poised { Core.powerOn with keys := Vector.replicate 16 true } 0xE39E
    let waiting := poised { Core.powerOn with wait := some 3 } 0x1234
    jump.cycle.state.core.pc = 4 ∧ back.cycle.state.core.pc = 0x10000 ∧
      pressed.cycle.state.core.pc = 0x204 ∧
      (waiting.after (List.replicate 5 .cycle)).core.pc = 0x200 := by
  intro jump back pressed waiting
  have jumped := (pc_goes_to_successor jump).1 rfl (by decide +kernel)
  have returned := (pc_goes_to_successor back).1 rfl (by decide +kernel)
  have passed := (pc_goes_to_successor pressed).1 rfl (by decide +kernel)
  have waited := (pc_goes_to_successor waiting).2 (by decide) 5
  exact ⟨jumped.trans (by decide +kernel), returned.trans (by decide +kernel),
    passed.trans (by decide +kernel), waited⟩

end Machine

end ChipEight
