import ChipEight.Proofs.Run

set_option autoImplicit false

namespace ChipEight

def Instruction.draws : Instruction → Bool
  | .clear | .draw _ _ _ => true
  | _ => false

namespace Core

variable {c d : Core} {target : Address} {f : Fault}

theorem call_eq_ok_iff : c.call target = .ok d ↔
    c.pc ≤ 0xFFFF ∧ ∃ stack, c.stack.push (UInt16.ofNat c.pc) = some stack ∧
      d = { c with stack := stack, pc := target } := by
  unfold call
  split
  · rename_i full
    simp [full]
  · rename_i stack pushed
    by_cases wide : 0xFFFF < c.pc
    · have far : ¬ c.pc ≤ 0xFFFF := by omega
      simp [wide, far]
    · simp only [if_neg wide, Except.ok.injEq, pushed, Option.some.injEq, exists_eq_left']
      constructor
      · rintro rfl
        exact ⟨by omega, rfl⟩
      · rintro ⟨_, rfl⟩
        rfl

theorem call_eq_error_iff : c.call target = .error f ↔
    c.stack.depth = 16 ∧ f = .stackOverflow target c.pc ∨
      c.stack.depth ≠ 16 ∧ 0xFFFF < c.pc ∧ f = .returnTooWide c.pc := by
  unfold call
  split
  · rename_i full
    simp [CallStack.push_eq_none_iff.1 full, eq_comm]
  · rename_i stack pushed
    have room : c.stack.depth ≠ 16 := by
      intro full
      rw [CallStack.push_eq_none_iff.2 full] at pushed
      simp at pushed
    by_cases wide : 0xFFFF < c.pc
    · simp [room, wide, eq_comm]
    · simp [room, wide]

theorem ret_eq_ok_iff : c.ret = .ok d ↔
    ∃ site stack, c.stack.pop = some (site, stack) ∧
      d = { c with stack := stack, pc := site.toNat + 2 } := by
  unfold ret
  split
  · rename_i bare
    simp [bare]
  · rename_i site stack popped
    simp only [popped, Except.ok.injEq, Option.some.injEq, Prod.mk.injEq]
    constructor
    · rintro rfl
      exact ⟨site, stack, ⟨rfl, rfl⟩, rfl⟩
    · rintro ⟨_, _, ⟨rfl, rfl⟩, rfl⟩
      rfl

theorem ret_eq_error_iff : c.ret = .error f ↔ c.stack.depth = 0 ∧ f = .stackUnderflow c.pc := by
  unfold ret
  split
  · rename_i bare
    simp [CallStack.pop_eq_none_iff.1 bare, eq_comm]
  · rename_i site stack popped
    have used : c.stack.depth ≠ 0 := by
      intro bare
      rw [CallStack.pop_eq_none_iff.2 bare] at popped
      simp at popped
    simp [used]

/-- A change of the core that calls and returns do not notice. -/
structure Aside (g : Core → Core) : Prop where
  stack (c : Core) : (g c).stack = c.stack
  pc (c : Core) : (g c).pc = c.pc
  moved (c : Core) (stack : CallStack) (pc : Nat) :
    g { c with stack := stack, pc := pc } = { g c with stack := stack, pc := pc }

theorem Aside.call {g : Core → Core} (aside : Aside g) (c : Core) (target : Address) :
    (g c).call target = (c.call target).map g := by
  cases called : c.call target with
  | error f =>
    have cause := call_eq_error_iff.1 called
    rw [← aside.stack, ← aside.pc] at cause
    exact call_eq_error_iff.2 cause
  | ok d =>
    obtain ⟨narrow, stack, pushed, rfl⟩ := call_eq_ok_iff.1 called
    rw [← aside.pc] at narrow pushed
    rw [← aside.stack] at pushed
    exact call_eq_ok_iff.2 ⟨narrow, stack, pushed, aside.moved c stack target⟩

theorem Aside.ret {g : Core → Core} (aside : Aside g) (c : Core) :
    (g c).ret = c.ret.map g := by
  cases returned : c.ret with
  | error f =>
    have cause := ret_eq_error_iff.1 returned
    rw [← aside.stack, ← aside.pc] at cause
    exact ret_eq_error_iff.2 cause
  | ok d =>
    obtain ⟨site, stack, popped, rfl⟩ := ret_eq_ok_iff.1 returned
    rw [← aside.stack] at popped
    exact ret_eq_ok_iff.2 ⟨site, stack, popped, aside.moved c stack (site.toNat + 2)⟩

/-- What every instruction but a call or a return does. The stack stays. The program counter stays
too, or it moves a little or to one of the 4096 addresses, and no wait begins. -/
structure Passed (c d : Core) : Prop where
  stack : d.stack = c.stack
  pc : d.pc = c.pc ∨ d.wait = c.wait ∧ (d.pc < 4096 ∨ d.pc ≤ c.pc + 4)

theorem passed_skipIf (c : Core) (condition : Bool) : Passed c (c.skipIf condition) := by
  refine ⟨rfl, .inr ⟨rfl, .inr ?_⟩⟩
  cases condition <;> simp [skipIf]

theorem execute_cases (s : Settings) (random : Nat → UInt8) (hit : Bool) (c : Core)
    (i : Instruction) :
    (∃ target, i = .call target) ∨ i = .ret ∨
      (∀ target, i ≠ .call target) ∧ i ≠ .ret ∧
        ∃ d, c.execute s random hit i = .ok d ∧ Passed c d := by
  cases i with
  | call target => exact .inl ⟨target, rfl⟩
  | ret => exact .inr (.inl rfl)
  | skipIfByte | skipUnlessByte | skipIfSame | skipUnlessSame | skipIfKey | skipUnlessKey =>
    exact .inr (.inr ⟨by simp, by simp, _, rfl, passed_skipIf c _⟩)
  | jump target =>
    exact .inr (.inr ⟨by simp, by simp, _, rfl, rfl, .inr ⟨rfl, .inl target.isLt⟩⟩)
  | jumpOffset =>
    exact .inr (.inr ⟨by simp, by simp, _, rfl, rfl, .inr ⟨rfl, .inl (Nat.mod_lt _ (by decide))⟩⟩)
  | awaitKey => exact .inr (.inr ⟨by simp, by simp, _, rfl, rfl, .inl rfl⟩)
  | _ =>
    exact .inr (.inr ⟨by simp, by simp, _, rfl, rfl,
      .inr ⟨rfl, .inr (Nat.add_le_add_left (by decide) _)⟩⟩)

theorem drawFlag_execute {s : Settings} {random : Nat → UInt8} {hit : Bool} {i : Instruction}
    (executed : c.execute s random hit i = .ok d) : d.drawFlag = (c.drawFlag || i.draws) := by
  cases i with
  | clear | draw =>
    obtain rfl := Except.ok.inj executed
    simp [Instruction.draws]
  | call target =>
    obtain ⟨_, _, _, rfl⟩ := call_eq_ok_iff.1 executed
    simp [Instruction.draws]
  | ret =>
    obtain ⟨_, _, _, rfl⟩ := ret_eq_ok_iff.1 executed
    simp [Instruction.draws]
  | _ =>
    obtain rfl := Except.ok.inj executed
    simp [Instruction.draws, skipIf]

theorem skipped_execute {s : Settings} {random : Nat → UInt8} {hit : Bool} {i : Instruction}
    (executed : c.execute s random hit i = .ok d) : d.skipped = c.skipped := by
  cases i with
  | call target =>
    obtain ⟨_, _, _, rfl⟩ := call_eq_ok_iff.1 executed
    rfl
  | ret =>
    obtain ⟨_, _, _, rfl⟩ := ret_eq_ok_iff.1 executed
    rfl
  | _ =>
    obtain rfl := Except.ok.inj executed
    rfl

theorem paint_of_not_draws {δ : Type} [Display δ] (c : Core) (d : δ) {i : Instruction}
    (still : i.draws = false) : c.paint d i = ⟨d, false, none⟩ := by
  cases i with
  | clear | draw => simp [Instruction.draws] at still
  | _ => rfl

end Core

namespace Machine

variable {δ : Type} [Display δ]

omit [Display δ] in
theorem core_skipWord (m : Machine δ) (w : Word) : (m.skipWord w).core = m.core.skipWord := by
  unfold skipWord
  dsimp only
  split <;> rfl

omit [Display δ] in
theorem skipWord_eq (m : Machine δ) (w : Word) :
    m.skipWord w = { m with
      core := m.core.skipWord
      log := if m.settings.reportSkipped then m.log.push (.wordSkipped w m.core.pc) else m.log } := by
  unfold skipWord
  dsimp only
  split <;> rfl

theorem cycle_of_execute {m : Machine δ} {i : Instruction} {c : Core} (awake : m.core.wait = none)
    (fetched : m.core.fetch = i.encode)
    (painted : m.core.paint m.display i = ⟨m.display, false, none⟩)
    (executed : m.core.execute m.settings m.random false i = .ok c) :
    m.cycle = .done { m with core := c } := by
  rw [cycle_of_fetch awake fetched]
  unfold execute
  simp only [painted, executed]

theorem cycle_of_unread {m : Machine δ} (awake : m.core.wait = none)
    (unread : Instruction.decode m.core.fetch = none) :
    m.cycle = .done (m.skipWord m.core.fetch) := by
  unfold cycle
  rw [awake, unread]
  rfl

theorem paint_of_error {m : Machine δ} {hit : Bool} {i : Instruction} {f : Fault}
    (h : m.core.execute m.settings m.random hit i = .error f) :
    m.core.paint m.display i = ⟨m.display, false, none⟩ := by
  cases i with
  | call | ret => rfl
  | _ => simp [Core.execute] at h

inductive Cycled (m : Machine δ) : Outcome (Machine δ) → Prop
  | waits {x : Fin 16} (waits : m.core.wait = some x) : Cycled m (.done m)
  | skips (awake : m.core.wait = none) (unread : Instruction.decode m.core.fetch = none) :
      Cycled m (.done (m.skipWord m.core.fetch))
  | misses {x y rows : Fin 16} (awake : m.core.wait = none)
      (fetched : m.core.fetch = (Instruction.draw x y rows).encode) {cell : Cell} {d : δ}
      (missing : (m.core.paint m.display (.draw x y rows)).missing = some cell) :
      Cycled m (.failed (.outsideDisplay cell) { m with display := d })
  | refuses {i : Instruction} {f : Fault} (awake : m.core.wait = none)
      (fetched : m.core.fetch = i.encode)
      (refused : m.core.execute m.settings m.random false i = .error f) : Cycled m (.failed f m)
  | executes {i : Instruction} {hit : Bool} {c : Core} {d : δ} (awake : m.core.wait = none)
      (fetched : m.core.fetch = i.encode)
      (executed : m.core.execute m.settings m.random hit i = .ok c) :
      Cycled m (.done { m with core := c, display := d })

theorem cycled_execute {m : Machine δ} {i : Instruction} (awake : m.core.wait = none)
    (fetched : m.core.fetch = i.encode) : Cycled m (m.execute i) := by
  unfold execute
  dsimp only
  split
  · rename_i cell missing
    cases i with
    | draw => exact .misses awake fetched missing
    | _ => simp [Core.paint] at missing
  · split
    · rename_i f refused
      rw [paint_of_error refused] at refused ⊢
      exact .refuses awake fetched refused
    · rename_i c executed
      exact .executes awake fetched executed

theorem cycled (m : Machine δ) : Cycled m m.cycle := by
  unfold cycle
  cases wait : m.core.wait with
  | some x => exact .waits wait
  | none =>
    simp only [Option.isSome_none, Bool.false_eq_true, if_false]
    split
    · rename_i unread
      exact .skips wait unread
    · rename_i i read
      exact cycled_execute wait (Instruction.eq_encode_of_decode read)

theorem given_perform (m : Machine δ) (c : Command) :
    (m.perform c).state.settings = m.settings ∧ (m.perform c).state.random = m.random := by
  cases c with
  | cycle =>
    have ended := m.cycled
    simp only [perform]
    generalize m.cycle = o at ended
    cases ended with
    | skips =>
      simp only [Outcome.done, skipWord]
      split <;> exact ⟨rfl, rfl⟩
    | _ => exact ⟨rfl, rfl⟩
  | tick | releaseKeys | reset => exact ⟨rfl, rfl⟩
  | key key pressed =>
    simp only [perform, setKey]
    split <;> exact ⟨rfl, rfl⟩
  | load program =>
    simp only [perform, load]
    split
    · exact ⟨rfl, rfl⟩
    · split <;> exact ⟨rfl, rfl⟩

theorem settings_perform (m : Machine δ) (c : Command) :
    (m.perform c).state.settings = m.settings := (given_perform m c).1

theorem random_perform (m : Machine δ) (c : Command) :
    (m.perform c).state.random = m.random := (given_perform m c).2

end Machine

end ChipEight
