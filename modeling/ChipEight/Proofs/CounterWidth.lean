import ChipEight.Proofs.StackFaults

set_option autoImplicit false

namespace ChipEight

def Fault.OfStack : Fault → Prop
  | stackOverflow _ _ | stackUnderflow _ => True
  | _ => False

namespace Machine.Command

/-- What a host asks of a machine that runs a program. -/
def Ordinary : Command → Prop
  | cycle | tick | releaseKeys => True
  | key k _ => 0 ≤ k ∧ k < 16
  | load _ | reset => False

instance : DecidablePred Ordinary
  | cycle | tick | releaseKeys => .isTrue trivial
  | key k _ => inferInstanceAs (Decidable (0 ≤ k ∧ k < 16))
  | load _ | reset => .isFalse id

def isCycle : Command → Bool
  | cycle => true
  | _ => false

end Machine.Command

open Machine (Command)

namespace Core

variable {b : Nat} {c d : Core}

/-- The program counter is at most `b`, also after the end of a pending wait and after a return from
any call that is still open. -/
structure CounterWithin (b : Nat) (c : Core) : Prop where
  pc : c.pc ≤ b
  resumed : ∀ x, c.wait = some x → c.pc + 2 ≤ b
  sites : ∀ site ∈ c.stack.live, site.toNat ≤ b

theorem CounterWithin.mono {b' : Nat} (h : CounterWithin b c) (le : b ≤ b') :
    CounterWithin b' c where
  pc := Nat.le_trans h.pc le
  resumed x hx := Nat.le_trans (h.resumed x hx) le
  sites site hs := Nat.le_trans (h.sites site hs) le

theorem CounterWithin.passed (h : CounterWithin b c) (wide : 4095 ≤ b) (awake : c.wait = none)
    (passed : Passed c d) : CounterWithin (b + 4) d := by
  have from_pc := h.pc
  obtain ⟨stack, stays | ⟨wait, moves⟩⟩ := passed
  · refine ⟨by omega, fun x _ => by omega, fun site hs => ?_⟩
    have := h.sites site (stack ▸ hs)
    omega
  · refine ⟨by omega, fun x hx => ?_, fun site hs => ?_⟩
    · rw [wait, awake] at hx
      simp at hx
    · have := h.sites site (stack ▸ hs)
      omega

theorem CounterWithin.call {target : Address} (h : CounterWithin b c) (wide : 4095 ≤ b)
    (awake : c.wait = none) (called : c.call target = .ok d) : CounterWithin (b + 4) d := by
  have from_pc := h.pc
  have near := target.isLt
  obtain ⟨narrow, stack, pushed, rfl⟩ := call_eq_ok_iff.1 called
  refine ⟨?_, fun x hx => ?_, fun site hs => ?_⟩
  · dsimp only
    omega
  · rw [awake] at hx
    simp at hx
  · rw [CallStack.live_push pushed, List.mem_append, List.mem_singleton] at hs
    rcases hs with older | rfl
    · have := h.sites site older
      omega
    · rw [UInt16.toNat_ofNat']
      omega

theorem CounterWithin.ret (h : CounterWithin b c) (awake : c.wait = none)
    (returned : c.ret = .ok d) : CounterWithin (b + 4) d := by
  obtain ⟨site, stack, popped, rfl⟩ := ret_eq_ok_iff.1 returned
  have live := CallStack.live_pop popped
  have top := h.sites site (by rw [live]; simp)
  refine ⟨?_, fun x hx => ?_, fun older hs => ?_⟩
  · dsimp only
    omega
  · rw [awake] at hx
    simp at hx
  · have := h.sites older (by rw [live]; simp [hs])
    omega

theorem CounterWithin.execute {s : Settings} {random : Nat → UInt8} {hit : Bool} {i : Instruction}
    (h : CounterWithin b c) (wide : 4095 ≤ b) (awake : c.wait = none)
    (executed : c.execute s random hit i = .ok d) : CounterWithin (b + 4) d := by
  rcases execute_cases s random hit c i with ⟨target, rfl⟩ | rfl | ⟨_, _, e, done, passed⟩
  · exact h.call wide awake executed
  · exact h.ret awake executed
  · obtain rfl : e = d := Except.ok.inj (done.symm.trans executed)
    exact h.passed wide awake passed

theorem CounterWithin.setKey (h : CounterWithin b c) (k : Fin 16) (pressed : Bool) :
    CounterWithin b (c.setKey k pressed) := by
  cases pressed with
  | false => exact ⟨h.pc, h.resumed, h.sites⟩
  | true =>
    cases wait : c.wait with
    | none =>
      simp only [Core.setKey, endWait, wait, if_true]
      exact ⟨h.pc, by simp, h.sites⟩
    | some x =>
      simp only [Core.setKey, endWait, wait, if_true]
      exact ⟨h.resumed x wait, by simp, h.sites⟩

end Core

namespace Machine

open ChipEight.Core (CounterWithin)

variable {δ : Type} [Display δ] {b : Nat} {m : Machine δ}

theorem counterWithin_cycle (h : CounterWithin b m.core) (wide : 4095 ≤ b) :
    CounterWithin (b + 4) m.cycle.state.core := by
  have ended := m.cycled
  generalize m.cycle = o at ended ⊢
  cases ended with
  | waits | misses | refuses => exact h.mono (by omega)
  | skips awake =>
    have passed : Core.Passed m.core m.core.skipWord :=
      ⟨rfl, .inr ⟨rfl, .inr (Nat.add_le_add_left (by decide) _)⟩⟩
    simp only [Outcome.done, core_skipWord]
    exact h.passed wide awake passed
  | executes awake _ executed => exact h.execute wide awake executed

theorem counterWithin_perform {c : Command} (ordinary : c.Ordinary) (h : CounterWithin b m.core)
    (wide : 4095 ≤ b) :
    CounterWithin (b + 4 * [c].countP Command.isCycle) (m.perform c).state.core := by
  cases c with
  | cycle => exact counterWithin_cycle h wide
  | tick | releaseKeys => exact ⟨h.pc, h.resumed, h.sites⟩
  | key k pressed =>
    simp only [perform, setKey]
    split
    · exact h.setKey _ _
    · exact h
  | load | reset => exact ordinary.elim

theorem counterWithin_after {cs : List Command} (ordinary : ∀ c ∈ cs, c.Ordinary)
    (h : CounterWithin b m.core) (wide : 4095 ≤ b) :
    CounterWithin (b + 4 * cs.countP Command.isCycle) (m.after cs).core := by
  -- Each cycle moves the bound, so the induction is for every bound.
  induction cs generalizing m b with
  | nil => exact h
  | cons c rest ih =>
    have first := counterWithin_perform (ordinary c (by simp)) h wide
    have later := ih (fun d hd => ordinary d (by simp [hd])) first (by omega)
    have counted : (c :: rest).countP Command.isCycle =
        [c].countP Command.isCycle + rest.countP Command.isCycle := by
      rw [← List.countP_append]
      rfl
    rw [counted, Nat.mul_add, ← Nat.add_assoc]
    exact later

theorem counterWithin_of_mem {cs : List Command} (ordinary : ∀ c ∈ cs, c.Ordinary)
    (h : CounterWithin b m.core) (wide : 4095 ≤ b) {o : Outcome (Machine δ)}
    (ho : o ∈ m.performAll cs) :
    CounterWithin (b + 4 * cs.countP Command.isCycle) o.state.core := by
  obtain ⟨before, c, rest, rfl, rfl⟩ := mem_performAll.1 ho
  have earlier : ∀ d ∈ before ++ [c], d.Ordinary := by
    intro d hd
    apply ordinary
    rw [List.append_cons]
    exact List.mem_append_left _ hd
  have reached := counterWithin_after earlier h wide
  rw [after_concat] at reached
  refine reached.mono ?_
  simp only [List.countP_append, List.countP_cons, List.countP_nil]
  omega

theorem refuses_of_ordinary {lit : δ → Cell → Bool} (shows : ShowsPicture δ lit) {c : Command}
    (ordinary : c.Ordinary) {f : Fault} (failed : (m.perform c).fault = some f) :
    m.core.Refuses f ∧ (m.perform c).state = m := by
  cases c with
  | cycle =>
    obtain ⟨_, refused | ⟨cell, _, _, _, rfl, _⟩⟩ := cycle_failed failed
    · exact refused
    · exact absurd failed (perform_ne_outside shows m .cycle cell)
  | tick | releaseKeys => simp [perform, Outcome.done] at failed
  | key k pressed =>
    have named : 0 ≤ k ∧ k < 16 := ordinary
    simp [perform, setKey, named, Outcome.done] at failed
  | load | reset => exact ordinary.elim

/-- The program counter fits in sixteen bits throughout, and only the depth of the call stack makes
a command fail. -/
def SixteenBits (m : Machine δ) (cs : List Command) : Prop :=
  ∀ o ∈ m.performAll cs, o.state.core.pc ≤ 0xFFFF ∧ ∀ f, o.fault = some f → f.OfStack

theorem counterWithin_loaded {settings : Settings} {random : Nat → UInt8} {d : δ}
    {program : List Int} (accepted : (create settings random d).load program = .done m) :
    CounterWithin 4095 m.core := by
  obtain ⟨memory, loaded⟩ := core_load (create settings random d) program
  rw [accepted] at loaded
  have core : m.core = { Core.powerOn with memory := memory } := loaded
  rw [core]
  refine ⟨(by decide : programStart ≤ 4095), by simp [Core.powerOn], fun site hs => ?_⟩
  simp [Core.powerOn, CallStack.live_empty] at hs

/-- What holds of every run of a program that was loaded at power-on: as long as the program counter
fits in sixteen bits, a cycle fails for the depth of the call stack only; it fits for the first
15360 cycles at least; and from then on there is one more fault, of a call beyond sixteen bits. -/
theorem sixteenBits_iff {lit : δ → Cell → Bool} (shows : ShowsPicture δ lit) {settings : Settings}
    {random : Nat → UInt8} {d : δ} {program : List Int} {m : Machine δ}
    (accepted : (create settings random d).load program = .done m) (cs : List Command)
    (ordinary : ∀ c ∈ cs, c.Ordinary) :
    (SixteenBits m cs ↔ ∀ o ∈ m.performAll cs, o.state.core.pc ≤ 0xFFFF) ∧
    (cs.countP Command.isCycle ≤ 15360 → SixteenBits m cs) ∧
    ∀ o ∈ m.performAll cs, ∀ f, o.fault = some f →
      f.OfStack ∨ 0xFFFF < o.state.core.pc ∧ f = .returnTooWide o.state.core.pc := by
  have faults : ∀ o ∈ m.performAll cs, ∀ f, o.fault = some f →
      f.OfStack ∨ 0xFFFF < o.state.core.pc ∧ f = .returnTooWide o.state.core.pc := by
    intro o ho f failed
    obtain ⟨before, c, rest, rfl, rfl⟩ := mem_performAll.1 ho
    obtain ⟨refused, same⟩ := refuses_of_ordinary shows (ordinary c (by simp)) failed
    rw [same]
    cases f with
    | stackOverflow | stackUnderflow => exact .inl trivial
    | returnTooWide pc =>
      obtain ⟨_, _, wide, rfl⟩ := refused
      exact .inr ⟨wide, rfl⟩
    | _ => exact refused.elim
  have narrow : (∀ o ∈ m.performAll cs, o.state.core.pc ≤ 0xFFFF) → SixteenBits m cs := by
    intro bounded o ho
    refine ⟨bounded o ho, fun f failed => ?_⟩
    have fits := bounded o ho
    rcases faults o ho f failed with ofStack | ⟨wide, _⟩
    · exact ofStack
    · omega
  refine ⟨⟨fun h o ho => (h o ho).1, narrow⟩, fun short => narrow fun o ho => ?_, faults⟩
  have reached :=
    (counterWithin_of_mem ordinary (counterWithin_loaded accepted) (Nat.le_refl _) ho).pc
  omega

theorem sixteenBits_return :
    let loaded := (create .modern (fun _ => 0) (TextScreen.create 64 32 false)).load
      ([0x00, 0xEE].map fun b : UInt8 => (b.toNat : Int))
    let cs : List Command := [.tick, .key 3 true, .cycle, .releaseKeys]
    loaded = .done loaded.state ∧ (∀ c ∈ cs, c.Ordinary) ∧
      (loaded.state.performAll cs).map Outcome.fault =
        [none, none, some (.stackUnderflow 0x200), none] ∧
      cs.countP Command.isCycle ≤ 15360 ∧ SixteenBits loaded.state cs := by
  intro loaded cs
  have short : ([0x00, 0xEE] : List UInt8).length ≤ programCapacity := by decide
  have accepted : loaded = .done loaded.state := by
    simp only [loaded, load_bytes _ _ short, Outcome.done]
  have ordinary : ∀ c ∈ cs, c.Ordinary := by decide
  have faults : (loaded.state.performAll cs).map Outcome.fault =
      [none, none, some (.stackUnderflow 0x200), none] := by
    decide +kernel
  have few : cs.countP Command.isCycle ≤ 15360 := by decide
  have shows := TextScreen.showsPicture (Nat.le_refl displayWidth) (Nat.le_refl displayHeight)
  exact ⟨accepted, ordinary, faults, few, (sixteenBits_iff shows accepted cs ordinary).2.1 few⟩

end Machine

end ChipEight
