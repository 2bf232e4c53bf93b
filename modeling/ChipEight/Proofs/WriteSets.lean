import ChipEight.Proofs.InstructionForms

set_option autoImplicit false

namespace ChipEight

inductive Part
  | register (k : Fin 16)
  | index
  | depth
  | slot (k : Fin 16)
  | memory
  | delay
  | sound
  | keys
  | wait
  | drawFlag
  | randomDraws

theorem Bank.read_write_cases {α : Type} {b : Bank α} {j k : Fin 16} {a : α} :
    (b.write j a).read k = b.read k ∨ k = j := by
  rw [Bank.read_write]
  split
  · rename_i here
    exact .inr here.symm
  · exact .inl rfl

namespace CallStack

variable {s t : CallStack} {e : UInt16}

theorem slots_pop (h : s.pop = some (e, t)) : t.slots = s.slots := by
  unfold pop at h
  split at h
  · obtain ⟨_, rfl⟩ := Prod.mk.inj (Option.some.inj h)
    rfl
  · simp at h

theorem read_push (h : s.push e = some t) {k : Fin 16} :
    Bank.read t.slots k = Bank.read s.slots k ∨ k.val = s.depth := by
  unfold push at h
  split at h
  · rename_i room
    obtain rfl := Option.some.inj h
    exact (Bank.read_write_cases (b := s.slots) (j := ⟨s.depth, room⟩)).imp_right Fin.ext_iff.1
  · simp at h

end CallStack

namespace Instruction

theorem form_of_draws {i : Instruction} (draws : i.draws = true) : i.form ∈ ["00E0", "Dxyn"] := by
  cases i with
  | clear | draw => simp [form]
  | _ => simp [Instruction.draws] at draws

end Instruction

namespace Part

def Same (c d : Core) : Part → Prop
  | register k => d.v.read k = c.v.read k
  | index => d.index = c.index
  | depth => d.stack.depth = c.stack.depth
  | slot k => Bank.read d.stack.slots k = Bank.read c.stack.slots k
  | memory => d.memory = c.memory
  | delay => d.delay = c.delay
  | sound => d.sound = c.sound
  | keys => d.keys = c.keys
  | wait => d.wait = c.wait
  | drawFlag => d.drawFlag = c.drawFlag
  | randomDraws => d.randomDraws = c.randomDraws

/-- The word can change this part of the core. -/
def Written (s : Settings) (c : Core) (w : Word) : Part → Prop
  | register k =>
    k = w.x ∧ w.HasAny ["6xkk", "7xkk", "8xy0", "8xy1", "8xy2", "8xy3", "8xy4", "8xy5", "8xy6",
      "8xy7", "8xyE", "Cxkk", "Fx07"] ∨
    k = flagRegister ∧ w.HasAny ["8xy4", "8xy5", "8xy6", "8xy7", "8xyE", "Dxyn"] ∨
    k = flagRegister ∧ s.clearFlag = true ∧ w.HasAny ["8xy1", "8xy2", "8xy3"] ∨
    k ≤ w.x ∧ w.HasForm "Fx65"
  | index =>
    w.HasAny ["Annn", "Fx1E", "Fx29"] ∨ s.advanceIndex = true ∧ w.HasAny ["Fx55", "Fx65"]
  | depth => w.HasAny ["00EE", "2nnn"]
  | slot k => k.val = c.stack.depth ∧ w.HasForm "2nnn"
  | memory => w.HasAny ["Fx33", "Fx55"]
  | delay => w.HasForm "Fx15"
  | sound => w.HasForm "Fx18"
  | keys => False
  | wait => w.HasForm "Fx0A"
  | drawFlag => w.HasAny ["00E0", "Dxyn"]
  | randomDraws => w.HasForm "Cxkk"

instance decidableWritten (s : Settings) (c : Core) (w : Word) (p : Part) :
    Decidable (Written s c w p) :=
  match p with
  | register _ => inferInstanceAs (Decidable (_ ∧ _ ∨ _ ∧ _ ∨ _ ∧ _ ∧ _ ∨ _ ∧ _))
  | index => inferInstanceAs (Decidable (_ ∨ _ ∧ _))
  | slot _ => inferInstanceAs (Decidable (_ ∧ _))
  | depth | memory | drawFlag => inferInstanceAs (Decidable (Word.HasAny _ _))
  | delay | sound | wait | randomDraws => inferInstanceAs (Decidable (Word.HasForm _ _))
  | keys => inferInstanceAs (Decidable False)

variable {s : Settings} {random : Nat → UInt8} {hit : Bool} {c : Core}

theorem read_apply_cases {op : Arithmetic} {x y k : Fin 16} {v : Registers} :
    (op.apply s x y v).read k = v.read k ∨ k = x ∨
      k = flagRegister ∧ (op.flag s (v.read x) (v.read y)).isSome := by
  unfold Arithmetic.apply
  dsimp only
  split
  · exact Bank.read_write_cases.imp_right .inl
  · rename_i f flagged
    rcases Bank.read_write_cases (b := v.write x _) with stays | flag
    · rw [stays]
      exact Bank.read_write_cases.imp_right .inl
    · exact .inr (.inr ⟨flag, by rw [flagged]; rfl⟩)

theorem indexPast_cases {x : Fin 16} :
    c.indexPast s x = c.index ∨ s.advanceIndex = true := by
  unfold Core.indexPast
  split
  · rename_i advances
    exact .inr advances
  · exact .inl rfl

theorem read_restored_cases {x k : Fin 16} : (c.restored x).read k = c.v.read k ∨ k ≤ x := by
  by_cases covered : k.val ≤ x
  · exact .inr covered
  · exact .inl (by simp [Core.restored, Bank.read, covered])

section

variable {d : Core}

theorem same_call {target : Address} (called : c.call target = .ok d) (p : Part) :
    Same c d p ∨ Written s c (Instruction.call target).encode p := by
  obtain ⟨_, stack, pushed, rfl⟩ := Core.call_eq_ok_iff.1 called
  cases p with
  | depth => exact .inr (Instruction.hasAny_encode (by simp [Instruction.form]))
  | slot k =>
    exact (CallStack.read_push pushed).imp_right fun here =>
      ⟨here, (Instruction.call target).hasForm_encode⟩
  | _ => exact .inl rfl

theorem same_ret (returned : c.ret = .ok d) (p : Part) :
    Same c d p ∨ Written s c Instruction.ret.encode p := by
  obtain ⟨site, stack, popped, rfl⟩ := Core.ret_eq_ok_iff.1 returned
  cases p with
  | depth => exact .inr (Instruction.hasAny_encode (by simp [Instruction.form]))
  | slot k => exact .inl (congrArg (Bank.read · k) (CallStack.slots_pop popped))
  | _ => exact .inl rfl

theorem written_combine {op : Arithmetic} {x y k : Fin 16} {a b : UInt8}
    (changed : k = x ∨ k = flagRegister ∧ (op.flag s a b).isSome) :
    Written s c (Instruction.combine op x y).encode (register k) := by
  rcases changed with here | ⟨here, flagged⟩
  · refine .inl ⟨?_, Instruction.hasAny_encode (by cases op <;> simp [Instruction.form])⟩
    rw [here, Instruction.encode, Word.x_ofDigits (by decide)]
  · refine .inr ?_
    cases op with
    | copy => simp [Arithmetic.flag] at flagged
    | or | and | xor =>
      have clears : s.clearFlag = true := by simpa [Arithmetic.flag] using flagged
      exact .inr (.inl ⟨here, clears, Instruction.hasAny_encode (by simp [Instruction.form])⟩)
    | _ => exact .inl ⟨here, Instruction.hasAny_encode (by simp [Instruction.form])⟩

variable {i : Instruction} (executed : c.execute s random hit i = .ok d)

include executed

theorem same_register (k : Fin 16) :
    Same c d (register k) ∨ Written s c i.encode (register k) := by
  cases i with
  | call => exact same_call executed _
  | ret => exact same_ret executed _
  | setByte x | addByte x | random x | readDelay x =>
    obtain rfl := Except.ok.inj executed
    refine Bank.read_write_cases.imp_right fun here => .inl ⟨?_, ?_⟩
    · rw [here, Instruction.encode, Word.x_ofByte (by decide)]
    · exact Instruction.hasAny_encode (by simp [Instruction.form])
  | combine op x y =>
    obtain rfl := Except.ok.inj executed
    exact read_apply_cases.imp_right written_combine
  | draw =>
    obtain rfl := Except.ok.inj executed
    refine Bank.read_write_cases.imp_right fun here => .inr (.inl ⟨here, ?_⟩)
    exact Instruction.hasAny_encode (by simp [Instruction.form])
  | restore x =>
    obtain rfl := Except.ok.inj executed
    refine read_restored_cases.imp_right fun covered => .inr (.inr (.inr ⟨?_, ?_⟩))
    · rwa [Instruction.encode, Word.x_ofByte (by decide)]
    · exact (Instruction.restore x).hasForm_encode
  | _ =>
    obtain rfl := Except.ok.inj executed
    exact .inl rfl

theorem same_index : Same c d index ∨ Written s c i.encode index := by
  cases i with
  | call => exact same_call executed _
  | ret => exact same_ret executed _
  | setIndex | addIndex | glyph =>
    exact .inr (.inl (Instruction.hasAny_encode (by simp [Instruction.form])))
  | save | restore =>
    obtain rfl := Except.ok.inj executed
    refine indexPast_cases.imp_right fun advances => .inr ⟨advances, ?_⟩
    exact Instruction.hasAny_encode (by simp [Instruction.form])
  | _ =>
    obtain rfl := Except.ok.inj executed
    exact .inl rfl

theorem same_stack {p : Part} (stacked : p = depth ∨ ∃ k, p = slot k) :
    Same c d p ∨ Written s c i.encode p := by
  cases i with
  | call => exact same_call executed _
  | ret => exact same_ret executed _
  | _ =>
    obtain rfl := Except.ok.inj executed
    rcases stacked with rfl | ⟨k, rfl⟩ <;> exact .inl rfl

theorem same_memory : Same c d memory ∨ Written s c i.encode memory := by
  cases i with
  | call => exact same_call executed _
  | ret => exact same_ret executed _
  | decimal | save => exact .inr (Instruction.hasAny_encode (by simp [Instruction.form]))
  | _ =>
    obtain rfl := Except.ok.inj executed
    exact .inl rfl

theorem same_of_single {p : Part} (single : p ∈ [delay, sound, keys, wait, randomDraws]) :
    Same c d p ∨ Written s c i.encode p := by
  cases i with
  | call => exact same_call executed p
  | ret => exact same_ret executed p
  | setDelay x =>
    obtain rfl := Except.ok.inj executed
    cases p with
    | delay => exact .inr (Instruction.setDelay x).hasForm_encode
    | _ => exact .inl rfl
  | setSound x =>
    obtain rfl := Except.ok.inj executed
    cases p with
    | sound => exact .inr (Instruction.setSound x).hasForm_encode
    | _ => exact .inl rfl
  | awaitKey x =>
    obtain rfl := Except.ok.inj executed
    cases p with
    | wait => exact .inr (Instruction.awaitKey x).hasForm_encode
    | _ => exact .inl rfl
  | random x mask =>
    obtain rfl := Except.ok.inj executed
    cases p with
    | randomDraws => exact .inr (Instruction.random x mask).hasForm_encode
    | register => simp at single
    | _ => exact .inl rfl
  | _ =>
    obtain rfl := Except.ok.inj executed
    simp only [List.mem_cons, List.not_mem_nil, or_false] at single
    rcases single with rfl | rfl | rfl | rfl | rfl <;> exact .inl rfl

theorem same_drawFlag : Same c d drawFlag ∨ Written s c i.encode drawFlag := by
  cases drawn : i.draws with
  | true => exact .inr (Instruction.hasAny_encode (Instruction.form_of_draws drawn))
  | false => exact .inl (by rw [Same, Core.drawFlag_execute executed, drawn, Bool.or_false])

theorem same_execute (p : Part) : Same c d p ∨ Written s c i.encode p := by
  cases p with
  | register k => exact same_register executed k
  | index => exact same_index executed
  | depth => exact same_stack executed (.inl rfl)
  | slot k => exact same_stack executed (.inr ⟨k, rfl⟩)
  | memory => exact same_memory executed
  | drawFlag => exact same_drawFlag executed
  | delay | sound | keys | wait | randomDraws => exact same_of_single executed (by simp)

end

end Part

namespace Instruction

theorem eq_random_of_form {i : Instruction} (h : i.form = "Cxkk") :
    ∃ x mask, i = random x mask := by
  cases i with
  | random x mask => exact ⟨x, mask, rfl⟩
  | combine op => cases op <;> simp [form] at h
  | _ => simp [form] at h

end Instruction

namespace Machine

variable {δ : Type} [Display δ]

theorem same_cycle (m : Machine δ) (p : Part) :
    Part.Same m.core m.cycle.state.core p ∨ Part.Written m.settings m.core m.core.fetch p := by
  have ended := m.cycled
  generalize m.cycle = o at ended ⊢
  cases ended with
  | waits | misses | refuses => cases p <;> exact .inl rfl
  | skips =>
    rw [Outcome.done, core_skipWord]
    cases p <;> exact .inl rfl
  | executes _ fetched executed =>
    rw [fetched]
    exact Part.same_execute executed p

theorem display_cycle {m : Machine δ} (h : ¬ m.core.fetch.HasAny ["00E0", "Dxyn"]) :
    m.cycle.state.display = m.display := by
  unfold cycle
  split
  · rfl
  · split
    · rw [skipWord_eq]
      rfl
    · rename_i i read
      have still : i.draws = false := by
        by_contra draws
        refine h ?_
        rw [Instruction.eq_encode_of_decode read]
        exact Instruction.hasAny_encode (Instruction.form_of_draws (by simpa using draws))
      unfold execute
      rw [Core.paint_of_not_draws m.core m.display still]
      dsimp only
      split <;> rfl

theorem drawFlag_cycle {m : Machine δ} (up : m.core.drawFlag = true) :
    m.cycle.state.core.drawFlag = true := by
  have ended := m.cycled
  generalize m.cycle = o at ended ⊢
  cases ended with
  | waits | misses | refuses => exact up
  | skips =>
    rw [Outcome.done, core_skipWord]
    exact up
  | executes _ _ executed =>
    rw [Outcome.done]
    dsimp only
    rw [Core.drawFlag_execute executed, up, Bool.true_or]

theorem randomDraws_cycle {m : Machine δ} (awake : m.core.wait = none) :
    m.cycle.state.core.randomDraws =
      m.core.randomDraws + if m.core.fetch.HasForm "Cxkk" then 1 else 0 := by
  split
  · rename_i draws
    obtain ⟨i, fetched, form⟩ := Instruction.exists_of_hasForm (by simp [Instruction.forms]) draws
    obtain ⟨x, mask, rfl⟩ := Instruction.eq_random_of_form form
    rw [cycle_of_execute awake fetched rfl rfl]
    rfl
  · rename_i other
    exact (m.same_cycle .randomDraws).resolve_right other

theorem cycle_of_source {m : Machine δ} {random : Nat → UInt8}
    (next : m.core.fetch.HasForm "Cxkk" → random m.core.randomDraws = m.random m.core.randomDraws) :
    { m with random := random }.cycle = m.cycle.map fun n => { n with random := random } := by
  have alike : ∀ (hit : Bool) (i : Instruction), m.core.fetch = i.encode →
      m.core.execute m.settings random hit i = m.core.execute m.settings m.random hit i := by
    intro hit i fetched
    cases i with
    | random x mask =>
      have drawn := next (by rw [fetched]; exact (Instruction.random x mask).hasForm_encode)
      simp only [Core.execute, drawn]
    | _ => rfl
  simp only [cycle]
  split
  · rfl
  · split
    · simp only [skipWord_eq]
      rfl
    · rename_i i read
      simp only [execute, alike _ i (Instruction.eq_encode_of_decode read)]
      split
      · rfl
      · split <;> rfl

/-- A cycle changes only what its word can change. The draw flag does not come down, and the random
bytes are drawn one by one, by the words that ask for one. -/
theorem cycle_keeps_unwritten (m : Machine δ) (awake : m.core.wait = none) :
    let w := m.core.fetch
    let n := m.cycle.state
    (∀ p, ¬ Part.Written m.settings m.core w p → Part.Same m.core n.core p) ∧
    (¬ w.HasAny ["00E0", "Dxyn"] → n.display = m.display) ∧
    (m.core.drawFlag = true → n.core.drawFlag = true) ∧
    n.core.randomDraws = m.core.randomDraws + (if w.HasForm "Cxkk" then 1 else 0) ∧
    ∀ random : Nat → UInt8,
      (w.HasForm "Cxkk" → random m.core.randomDraws = m.random m.core.randomDraws) →
      { m with random := random }.cycle = m.cycle.map fun n => { n with random := random } :=
  ⟨fun p unwritten => (m.same_cycle p).resolve_right unwritten, display_cycle, drawFlag_cycle,
    randomDraws_cycle awake, fun _ => cycle_of_source⟩

/-- An addition that overflows, with a picture that waits to be presented, and a random byte from a
source that gives the same first byte as another. -/
theorem cycle_keeps_unwritten_overflow :
    let m := poised { Core.powerOn with v := Vector.replicate 16 0xFF, drawFlag := true } 0x7EFF
    let n := m.cycle.state
    let r := poised Core.powerOn 0xCA0F
    let source : Nat → UInt8 := fun k => UInt8.ofNat k
    n.core.v.read 14 = 0xFE ∧ n.core.v.read 15 = 0xFF ∧ n.core.drawFlag = true ∧
      n.core.randomDraws = 0 ∧ r.cycle.state.core.randomDraws = 1 ∧
      { r with random := source }.cycle = r.cycle.map fun n => { n with random := source } := by
  intro m n r source
  obtain ⟨kept, _, flag, uncounted, _⟩ := cycle_keeps_unwritten m rfl
  obtain ⟨_, _, _, counted, sourced⟩ := cycle_keeps_unwritten r rfl
  have carry : n.core.v.read 15 = 0xFF := kept (.register 15) (by decide +kernel)
  have draws : r.core.fetch.HasForm "Cxkk" := by decide +kernel
  have undrawn : ¬ m.core.fetch.HasForm "Cxkk" := by decide +kernel
  rw [if_neg undrawn] at uncounted
  rw [if_pos draws] at counted
  exact ⟨by decide +kernel, carry, flag rfl, uncounted, counted, sourced source fun _ => rfl⟩

end Machine

end ChipEight
