import ChipEight.Proofs.KeptDisplay
import Mathlib.Data.List.Chain

set_option autoImplicit false

namespace ChipEight

variable {δ : Type} [Display δ]

namespace Machine

structure Drawn (m n : Machine δ) (drew : Bool) : Prop where
  flag : n.core.drawFlag = (m.core.drawFlag || drew)
  display : drew = false → n.display = m.display
  keeps : ∀ P : δ → Prop, Display.Keeps P → P m.display → P n.display

theorem Drawn.trans {m n k : Machine δ} {drew drew' : Bool} (first : Drawn m n drew)
    (second : Drawn n k drew') : Drawn m k (drew || drew') where
  flag := by rw [second.flag, first.flag, Bool.or_assoc]
  display still := by
    obtain ⟨still, still'⟩ := Bool.or_eq_false_iff.1 still
    rw [second.display still', first.display still]
  keeps P keeps shown := second.keeps P keeps (first.keeps P keeps shown)

theorem drawn_execute {m n : Machine δ} {i : Instruction} (executed : m.execute i = .done n) :
    n.core.drawFlag = (m.core.drawFlag || i.draws) ∧
      (i.draws = false → n.display = m.display) := by
  unfold execute at executed
  dsimp only at executed
  split at executed
  · simp [Outcome.failed, Outcome.done] at executed
  · split at executed
    · simp [Outcome.failed, Outcome.done] at executed
    · rename_i core done
      obtain rfl := congrArg Outcome.state executed
      refine ⟨Core.drawFlag_execute done, fun still => ?_⟩
      exact congrArg Drawing.display (Core.paint_of_not_draws m.core m.display still)

theorem drawn_cycle {m n : Machine δ} (cycled : m.cycle = .done n) :
    Drawn m n ((m.executed [.cycle]).any Instruction.draws) := by
  have keeps : ∀ P : δ → Prop, Display.Keeps P → P m.display → P n.display := by
    intro P keeps shown
    have kept := keeps.cycle shown
    rwa [cycled] at kept
  suffices h : n.core.drawFlag = (m.core.drawFlag || (m.executed [.cycle]).any Instruction.draws) ∧
      ((m.executed [.cycle]).any Instruction.draws = false → n.display = m.display) from
    ⟨h.1, h.2, keeps⟩
  simp only [executed, executes, List.append_nil]
  unfold cycle at cycled
  split at cycled
  · rename_i waits
    obtain rfl : m = n := congrArg Outcome.state cycled
    simp [waits]
  · rename_i awake
    simp only [awake, Bool.false_eq_true, if_false]
    split at cycled
    · rename_i unread
      obtain rfl := congrArg Outcome.state cycled
      simp only [unread, Outcome.done, core_skipWord]
      unfold skipWord
      dsimp only
      split <;> simp [Core.skipWord, note]
    · rename_i i read
      simpa [read] using drawn_execute cycled

end Machine

namespace Host

def draws (h : Host δ) : Bool :=
  (h.poll.state.machine.executed (List.replicate h.instructionsPerFrame .cycle)).any
    Instruction.draws

/-- A frame takes the host from `b` to `g`, with the pause behind it. -/
def Completes (b g : Host δ) : Prop :=
  b.running = true ∧ b.Reaches (frameActs b.instructionsPerFrame) g

theorem cycle_eq_done {h g : Host δ} (cycled : h.act .cycle = .done g) : ∃ m,
    h.machine.cycle = .done m ∧ g = { h with
      machine := m
      instructions := h.instructions + 1 } := by
  rw [act, cycle] at cycled
  obtain ⟨_, mapped, counted⟩ := Outcome.andThen_eq_done cycled
  obtain ⟨m, done, rfl⟩ := Outcome.map_eq_done mapped
  exact ⟨m, done, (congrArg Outcome.state counted).symm⟩

theorem drawn_cycles (n : Nat) {h g : Host δ} (reached : h.Reaches (List.replicate n .cycle) g) :
    g.pace = h.pace ∧ h.machine.Drawn g.machine
      ((h.machine.executed (List.replicate n .cycle)).any Instruction.draws) := by
  induction n generalizing h with
  | zero =>
    obtain rfl : h = g := congrArg Outcome.state reached
    exact ⟨rfl, by simp [Machine.executed], fun _ => rfl, fun _ _ shown => shown⟩
  | succ n ih =>
    obtain ⟨_, cycled, further⟩ := Outcome.andThen_eq_done reached
    obtain ⟨m, done, rfl⟩ := cycle_eq_done cycled
    obtain ⟨pace, later⟩ := ih further
    have split : h.machine.executed (List.replicate (n + 1) .cycle) =
        h.machine.executed [.cycle] ++ m.executed (List.replicate n .cycle) := by
      rw [List.replicate_succ]
      simp [Machine.executed, Machine.perform, done, Outcome.done]
    rw [split, List.any_append]
    exact ⟨pace, (Machine.drawn_cycle done).trans later⟩

theorem closeFrame_eq_done {q f : Host δ} (closed : q.closeFrame = .done f) :
    f.machine.core.drawFlag = false ∧ f.pace = q.pace ∧
      if q.machine.core.drawFlag then
        Display.present q.machine.display = .done f.machine.display
      else f.machine.display = q.machine.display := by
  obtain ⟨_, presented, counted⟩ := Outcome.andThen_eq_done closed
  obtain rfl := congrArg Outcome.state counted
  unfold present at presented
  change (if q.machine.core.drawFlag then _ else _) = _ at presented
  split at presented
  · rename_i raised
    obtain ⟨_, shown, lowered⟩ := Outcome.andThen_eq_done presented
    obtain ⟨d, named, rfl⟩ := Outcome.map_eq_done shown
    obtain rfl := congrArg Outcome.state lowered
    rw [if_pos raised]
    exact ⟨rfl, rfl, named⟩
  · rename_i down
    obtain rfl := congrArg Outcome.state presented
    rw [if_neg down]
    exact ⟨Bool.eq_false_iff.2 down, rfl, rfl⟩

/-- With the flag down at its start, a frame presents what it drew, or leaves the display alone. -/
structure Framed (b f : Host δ) : Prop where
  flag : f.machine.core.drawFlag = false
  pace : f.pace = b.pace
  idle : b.draws = false → f.machine.display = b.machine.display
  drawn : b.draws = true → ∃ drawn : δ,
    (∀ P : δ → Prop, Display.Keeps P → P b.machine.display → P drawn) ∧
      Display.present drawn = .done f.machine.display

theorem framed_of_done {b f : Host δ} (lowered : b.machine.core.drawFlag = false)
    (done : b.frame = .done f) : Framed b f := by
  obtain ⟨q, batched, closed⟩ := Outcome.andThen_eq_done done
  obtain ⟨p, polled, cycled⟩ := Outcome.andThen_eq_done batched
  obtain ⟨core, keypad, script, flag, left⟩ := b.state_poll
  have here : b.poll.state = p := congrArg Outcome.state polled
  rw [← actAll_batch] at cycled
  obtain ⟨pace, drawn⟩ := drawn_cycles _ cycled
  obtain ⟨down, pace', shown⟩ := closeFrame_eq_done closed
  -- The poll leaves the display, the flag and the share as they were.
  have kept : p.machine.display = b.machine.display ∧ p.pace = b.pace ∧
      p.machine.core.drawFlag = false ∧ p.instructionsPerFrame = b.instructionsPerFrame := by
    rw [← here, left]
    exact ⟨rfl, rfl, flag.trans lowered, rfl⟩
  obtain ⟨display, pace'', flag', share⟩ := kept
  have drew : b.draws = (p.machine.executed (List.replicate p.instructionsPerFrame .cycle)).any
      Instruction.draws := by rw [draws, here, share]
  rw [← drew] at drawn
  have raised : q.machine.core.drawFlag = b.draws := by rw [drawn.flag, flag', Bool.false_or]
  rw [raised] at shown
  refine ⟨down, pace'.trans (pace.trans pace''), fun happened => ?_, fun happened => ?_⟩
  · rw [happened, if_neg (by decide), drawn.display happened, display] at shown
    exact shown
  · rw [happened, if_pos rfl] at shown
    exact ⟨_, fun P keeps shows => drawn.keeps P keeps (display ▸ shows), shown⟩

theorem exists_frame_of_completes {b g : Host δ} (completes : b.Completes g) :
    ∃ f, b.frame = .done f ∧ f.rest = g := by
  obtain ⟨_, reached⟩ := completes
  rw [Reaches, actAll_frameActs] at reached
  obtain ⟨f, framed, rested⟩ := Outcome.andThen_eq_done reached
  exact ⟨f, framed, congrArg Outcome.state rested⟩

structure Presented (b g : Host δ) (drawn shown : δ) : Prop where
  keeps : ∀ P : δ → Prop, Display.Keeps P → P b.machine.display → P drawn
  present : Display.present drawn = .done shown
  display : g.machine.display = b.pace shown

theorem frame_cases {b g : Host δ} (lowered : b.machine.core.drawFlag = false)
    (completes : b.Completes g) : g.machine.core.drawFlag = false ∧ g.pace = b.pace ∧
      (b.draws = false ∧ g.machine.display = b.pace b.machine.display ∨
        b.draws = true ∧ ∃ drawn shown, Presented b g drawn shown) := by
  obtain ⟨f, done, rfl⟩ := exists_frame_of_completes completes
  have framed := framed_of_done lowered done
  have paused : f.rest.machine.display = b.pace f.machine.display := by rw [← framed.pace, rest]
  refine ⟨framed.flag, framed.pace, ?_⟩
  cases happened : b.draws with
  | false => exact .inl ⟨rfl, by rw [paused, framed.idle happened]⟩
  | true =>
    obtain ⟨drawn, keeps, presented⟩ := framed.drawn happened
    exact .inr ⟨rfl, drawn, f.machine.display, keeps, presented, paused⟩

theorem exists_isChain (fuel : Nat) (visited : Array (Host δ)) (h : Host δ) : ∃ ends,
    (framesWith Array.push fuel visited h).1.toList = visited.toList ++ ends ∧
      List.IsChain Completes (h :: ends) := by
  induction fuel generalizing visited h with
  | zero => exact ⟨[], by simp [framesWith], .singleton h⟩
  | succ fuel ih =>
    unfold framesWith
    split
    · rename_i on
      split
      · rename_i next framed
        obtain ⟨ends, listed, chain⟩ := ih (visited.push next.rest) next.rest
        have completes : h.Completes next.rest := by
          refine ⟨on, ?_⟩
          rw [Reaches, actAll_frameActs, framed]
          rfl
        refine ⟨next.rest :: ends, ?_, chain.cons_cons completes⟩
        rw [listed, Array.toList_push, List.append_assoc]
        rfl
      · exact ⟨[], by simp, .singleton h⟩
    · exact ⟨[], by simp, .singleton h⟩

def boundaries (h : Host δ) : List (Host δ) := h :: h.trace.1.toList

theorem isChain_boundaries (h : Host δ) : List.IsChain Completes h.boundaries := by
  obtain ⟨ends, listed, chain⟩ := exists_isChain h.budget #[] h
  have all : h.boundaries = h :: ends := congrArg (h :: ·) listed
  rw [all]
  exact chain

theorem boundaries_keep {D : δ → Prop} {h : Host δ} (lowered : h.machine.core.drawFlag = false)
    (start : D h.machine.display) (pause : ∀ d, D d → D (h.pace d))
    (present : ∀ d drawn shown, D d → (∀ P : δ → Prop, Display.Keeps P → P d → P drawn) →
      Display.present drawn = .done shown → D shown) :
    ∀ g ∈ h.boundaries, g.machine.core.drawFlag = false ∧ g.pace = h.pace ∧
      D g.machine.display := by
  refine h.isChain_boundaries.induction _ _ ?_ fun _ => ⟨lowered, rfl, start⟩
  rintro b g completes ⟨down, pace, shows⟩
  obtain ⟨down', pace', left⟩ := frame_cases down completes
  refine ⟨down', pace'.trans pace, ?_⟩
  rw [pace] at left
  obtain ⟨_, same⟩ | ⟨_, drawn, shown, presented⟩ := left
  · rw [same]
    exact pause _ shows
  · rw [presented.display, pace]
    exact pause _ (present _ _ _ shows presented.keeps presented.present)

theorem mem_boundaries_of_completes {h g : Host δ} (completes : h.Completes g) :
    g ∈ h.boundaries := by
  have on := completes.1
  obtain ⟨next, framed, rfl⟩ := exists_frame_of_completes completes
  -- The frame takes something off the budget, so the run has fuel for it.
  have less := budget_frame on
  obtain ⟨fuel, budget⟩ := Nat.exists_eq_succ_of_ne_zero (n := h.budget) (by omega)
  obtain ⟨ends, listed, _⟩ := exists_isChain fuel #[next.rest] next.rest
  have visited : h.trace.1.toList = next.rest :: ends := by
    have first : h.trace.1 = (framesWith Array.push fuel #[next.rest] next.rest).1 := by
      simp only [trace, runWith, budget, framesWith, if_pos on, framed, Outcome.done]
      rfl
    rw [first, listed]
    rfl
  rw [boundaries, visited]
  simp

end Host

end ChipEight
