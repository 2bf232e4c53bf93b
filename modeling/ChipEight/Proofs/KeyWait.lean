import ChipEight.Proofs.Run

set_option autoImplicit false

namespace ChipEight

namespace Machine.Command

def Idle : Command → Prop
  | cycle | tick | releaseKeys => True
  | key k pressed => pressed = false ∨ k < 0 ∨ 16 ≤ k
  | load _ | reset => False

def isTick : Command → Bool
  | tick => true
  | _ => false

def releases (k : Fin 16) : Command → Bool
  | releaseKeys => true
  | key j pressed => !pressed && j == k.val
  | _ => false

def refusal : Command → Option Fault
  | key k _ => if 0 ≤ k ∧ k < 16 then none else some (.invalidKey k)
  | _ => none

end Machine.Command

open Machine (Command)

namespace Core

def stillHeld (cs : List Command) (keys : Bank Bool) : Bank Bool :=
  Vector.ofFn fun k => keys.read k && !cs.any (Command.releases k)

def idled (cs : List Command) (c : Core) : Core :=
  { c with
    delay := countdown (cs.countP Command.isTick) c.delay
    sound := countdown (cs.countP Command.isTick) c.sound
    keys := stillHeld cs c.keys }

@[simp]
theorem read_stillHeld (cs : List Command) (keys : Bank Bool) (k : Fin 16) :
    (stillHeld cs keys).read k = (keys.read k && !cs.any (Command.releases k)) := by
  simp [stillHeld]

theorem stillHeld_nil (keys : Bank Bool) : stillHeld [] keys = keys := by
  apply Bank.ext
  intro k
  simp

theorem stillHeld_cons (d : Command) (cs : List Command) (keys : Bank Bool) :
    stillHeld (d :: cs) keys = stillHeld cs (stillHeld [d] keys) := by
  apply Bank.ext
  intro k
  simp [Bool.and_assoc]

theorem idled_nil (c : Core) : c.idled [] = c := by
  simp only [idled, List.countP_nil, countdown_zero, stillHeld_nil]

theorem idled_cons (d : Command) (cs : List Command) (c : Core) :
    c.idled (d :: cs) = (c.idled [d]).idled cs := by
  have ticks : (d :: cs).countP Command.isTick =
      [d].countP Command.isTick + cs.countP Command.isTick := by
    rw [← List.countP_append]
    rfl
  simp only [idled, ticks, countdown_add, stillHeld_cons d cs]

theorem idled_of_quiet {d : Command} (c : Core) (timers : d.isTick = false)
    (keys : ∀ k, d.releases k = false) : c.idled [d] = c := by
  have held : stillHeld [d] c.keys = c.keys := by
    apply Bank.ext
    intro k
    simp [keys]
  simp [idled, timers, countdown_zero, held]

theorem idled_tick (c : Core) : c.idled [.tick] = c.tick := by
  have held : stillHeld [.tick] c.keys = c.keys := by
    apply Bank.ext
    intro k
    simp [Command.releases]
  simp [idled, tick_eq, Command.isTick, held]

theorem idled_releaseKeys (c : Core) : c.idled [.releaseKeys] = c.releaseKeys := by
  have held : stillHeld [.releaseKeys] c.keys = noKeys := by
    apply Bank.ext
    intro k
    simp [Command.releases]
  simp [idled, releaseKeys, Command.isTick, countdown_zero, held]

theorem idled_release (c : Core) (k : Fin 16) :
    c.idled [.key k.val false] = c.setKey k false := by
  have held : stillHeld [.key k.val false] c.keys = c.keys.write k false := by
    apply Bank.ext
    intro j
    rw [read_stillHeld, Bank.read_write]
    by_cases same : k = j
    · subst j
      simp [Command.releases]
    · have other : ¬ ((k.val : Int) = j.val) := fun h => same (Fin.ext (Int.natCast_inj.1 h))
      simp [Command.releases, same, other]
  simp [idled, setKey, Command.isTick, countdown_zero, held]

end Core

namespace Machine

variable {δ : Type}

theorem setKey_fin (m : Machine δ) (k : Fin 16) (pressed : Bool) :
    m.setKey k.val pressed = .done { m with core := m.core.setKey k pressed } := by
  have named : (0 : Int) ≤ k.val ∧ (k.val : Int) < 16 := by omega
  simp only [setKey, named, and_self, dif_pos, Int.toNat_natCast]

theorem setKey_of_not {k : Int} (h : ¬ (0 ≤ k ∧ k < 16)) (m : Machine δ) (pressed : Bool) :
    m.setKey k pressed = .failed (.invalidKey k) m := by
  simp only [setKey, dif_neg h]

theorem setKey_of_awake {m : Machine δ} (awake : m.core.wait = none) (k : Fin 16) :
    m.setKey k.val true =
      .done { m with core := { m.core with keys := m.core.keys.write k true } } := by
  simp [setKey_fin, Core.setKey, Core.endWait, awake]

variable [Display δ]

theorem perform_idle {m : Machine δ} {x : Fin 16} (waits : m.core.wait = some x) {d : Command}
    (idle : d.Idle) : m.perform d = ⟨{ m with core := m.core.idled [d] }, d.refusal⟩ := by
  cases d with
  | cycle =>
    have passed : m.cycle = .done m := by simp [cycle, waits]
    rw [Core.idled_of_quiet m.core rfl (fun _ => rfl)]
    exact passed
  | tick =>
    rw [Core.idled_tick]
    rfl
  | releaseKeys =>
    rw [Core.idled_releaseKeys]
    rfl
  | key k pressed =>
    -- A request with a key that exists is a release; any other is refused.
    by_cases known : 0 ≤ k ∧ k < 16
    · obtain ⟨j, rfl⟩ : ∃ j : Fin 16, k = j.val := ⟨⟨k.toNat, by omega⟩, by simp; omega⟩
      have released : pressed = false := by
        rcases idle with up | below | above
        · exact up
        · omega
        · omega
      subst released
      simp only [perform, setKey_fin, Core.idled_release, Command.refusal, known, and_self, if_true]
      rfl
    · have untouched : m.core.idled [.key k pressed] = m.core := by
        apply Core.idled_of_quiet _ rfl
        intro j
        have other : ¬ (k = (j.val : Int)) := by omega
        simp [Command.releases, other]
      simp only [perform, setKey_of_not known, untouched, Command.refusal, if_neg known]
      rfl
  | load _ | reset => exact idle.elim

theorem after_idle {x : Fin 16} (cs : List Command) (idle : ∀ d ∈ cs, d.Idle) (m : Machine δ)
    (waits : m.core.wait = some x) :
    m.after cs = { m with core := m.core.idled cs } ∧
      (m.performAll cs).map Outcome.fault = cs.map Command.refusal := by
  induction cs generalizing m with
  | nil => exact ⟨by rw [Core.idled_nil]; rfl, rfl⟩
  | cons d rest ih =>
    have first := perform_idle waits (idle d (by simp))
    obtain ⟨state, faults⟩ := ih (fun e he => idle e (by simp [he]))
      { m with core := m.core.idled [d] } waits
    constructor
    · rw [after_cons, first, state, Core.idled_cons d rest]
    · simp only [performAll, List.map_cons, first, faults]

theorem awake_perform {d : Command} (h : d ≠ .cycle) (m : Machine δ) (awake : m.core.wait = none) :
    (m.perform d).state.core.wait = none := by
  cases d with
  | cycle => exact absurd rfl h
  | tick | releaseKeys => exact awake
  | reset => rfl
  | load program =>
    simp only [perform, load]
    split
    · exact awake
    · split <;> exact awake
  | key k pressed =>
    simp only [perform, setKey]
    split
    · cases pressed <;> simp [Outcome.done, Core.setKey, Core.endWait, awake]
    · exact awake

theorem cycle_awaitKey {m : Machine δ} {x : Fin 16} (awake : m.core.wait = none)
    (fetched : m.core.fetch = Word.ofByte 0xF x 0x0A) :
    m.cycle = .done { m with core := { m.core with wait := some x } } := by
  have fetched' : m.core.fetch = (Instruction.awaitKey x).encode := fetched
  rw [cycle_of_fetch awake fetched']
  rfl

/-- The life of a wait for a key: how it begins, what passes over it, what ends it, and that it is
then over. -/
theorem wait_lasts_until_press (m : Machine δ) (x : Fin 16) (awake : m.core.wait = none)
    (fetched : m.core.fetch = Word.ofByte 0xF x 0x0A) (cs : List Command)
    (idle : ∀ d ∈ cs, d.Idle) :
    ∃ waiting : Machine δ,
      m.cycle.fault = none ∧ m.cycle.state.after cs = waiting ∧
      (m.cycle.state.performAll cs).map Outcome.fault = cs.map Command.refusal ∧
      waiting = { m with core := { m.core with
        wait := some x
        delay := Core.countdown (cs.countP Command.isTick) m.core.delay
        sound := Core.countdown (cs.countP Command.isTick) m.core.sound
        keys := Core.stillHeld cs m.core.keys } } ∧
      ∀ k : Fin 16, ∃ resumed : Machine δ,
        waiting.perform (.key k.val true) = .done resumed ∧
        resumed = { waiting with core := { waiting.core with
          v := m.core.v.write x (UInt8.ofNat k)
          pc := m.core.pc + 2
          wait := none
          keys := waiting.core.keys.write k true } } ∧
        ∀ ds : List Command, (∀ d ∈ ds, d ≠ .cycle) → ∀ j : Fin 16,
          (resumed.after ds).perform (.key j.val true) =
            .done { resumed.after ds with core := { (resumed.after ds).core with
              keys := (resumed.after ds).core.keys.write j true } } := by
  have begun := cycle_awaitKey awake fetched
  obtain ⟨state, faults⟩ :=
    after_idle cs idle { m with core := { m.core with wait := some x } } rfl
  refine ⟨_, by rw [begun]; rfl, rfl, by rw [begun]; exact faults, by rw [begun]; exact state, ?_⟩
  intro k
  rw [begun]
  simp only [Outcome.done, state]
  refine ⟨_, ?_, rfl, ?_⟩
  · rw [perform, setKey_fin]
    rfl
  · intro ds quiet j
    apply setKey_of_awake
    exact after_keeps ds (fun d hd m => awake_perform (quiet d hd) m) _ rfl

theorem wait_passes_over_commands :
    let m := poised { Core.powerOn with delay := 3 } (Word.ofByte 0xF 3 0x0A)
    let cs : List Command :=
      [.tick, .key 3 false, .key 99 true, .cycle, .releaseKeys, .tick]
    let waiting := m.cycle.state.after cs
    let resumed := (waiting.perform (.key 7 true)).state
    m.core.wait = none ∧ m.core.fetch = Word.ofByte 0xF 3 0x0A ∧ (∀ d ∈ cs, d.Idle) ∧
      waiting.core.wait = some 3 ∧ waiting.core.pc = 0x200 ∧ waiting.core.delay = 1 ∧
      resumed.core.wait = none ∧ resumed.core.pc = 0x202 ∧ resumed.core.v.read 3 = 7 := by
  intro m cs waiting resumed
  have awake : m.core.wait = none := rfl
  have fetched : m.core.fetch = Word.ofByte 0xF 3 0x0A := Core.fetch_withWord _ _
  have idle : ∀ d ∈ cs, d.Idle := by
    intro d hd
    simp only [cs, List.mem_cons, List.not_mem_nil, or_false] at hd
    rcases hd with rfl | rfl | rfl | rfl | rfl | rfl <;> simp [Command.Idle]
  obtain ⟨_, _, left, _, state, pressed⟩ := wait_lasts_until_press m 3 awake fetched cs idle
  obtain ⟨_, performed, ended, _⟩ := pressed 7
  have after : resumed = _ := (congrArg Outcome.state (left ▸ performed)).trans ended
  have before : waiting = _ := left.trans state
  refine ⟨awake, fetched, idle, ?_, ?_, ?_, ?_, ?_, ?_⟩
  · rw [before]
  · rw [before]
    rfl
  · rw [before]
    rfl
  · rw [after]
  · rw [after]
    rfl
  · rw [after]
    rfl

end Machine

end ChipEight
