import ChipEight.Proofs.Run
import ChipEight.Proofs.SpriteCells
import Mathlib.Data.List.Forall2

set_option autoImplicit false

namespace ChipEight

variable {δ ε : Type}

structure Drawing.Alike (R : δ → ε → Prop) (a : Drawing δ) (b : Drawing ε) : Prop where
  display : R a.display b.display
  hit : a.hit = b.hit
  missing : a.missing = b.missing

structure Machine.Alike (R : δ → ε → Prop) (m : Machine δ) (n : Machine ε) : Prop where
  settings : m.settings = n.settings
  random : m.random = n.random
  core : m.core = n.core
  log : m.log = n.log
  display : R m.display n.display

structure Outcome.Alike {σ τ : Type} (S : σ → τ → Prop) (o : Outcome σ) (p : Outcome τ) : Prop where
  fault : o.fault = p.fault
  state : S o.state p.state

namespace Machine.Alike

variable {R : δ → ε → Prop} {m : Machine δ} {n : Machine ε}

theorem imp {S : δ → ε → Prop} (h : Alike R m n) (weaker : ∀ d e, R d e → S d e) : Alike S m n :=
  ⟨h.settings, h.random, h.core, h.log, weaker _ _ h.display⟩

theorem skipWord (h : Alike R m n) (w : Word) : Alike R (m.skipWord w) (n.skipWord w) := by
  obtain ⟨settings, random, core, d, log⟩ := m
  obtain ⟨_, _, _, e, _⟩ := n
  obtain ⟨rfl, rfl, rfl, rfl, shown⟩ := h
  simp only [Machine.skipWord]
  split <;> exact ⟨rfl, rfl, rfl, rfl, shown⟩

theorem load (h : Alike R m n) (program : List Int) :
    Outcome.Alike (Alike R) (m.load program) (n.load program) := by
  obtain ⟨settings, random, core, d, log⟩ := m
  obtain ⟨_, _, _, e, _⟩ := n
  obtain ⟨rfl, rfl, rfl, rfl, shown⟩ := h
  simp only [Machine.load]
  split
  · exact ⟨rfl, rfl, rfl, rfl, rfl, shown⟩
  · split <;> exact ⟨rfl, rfl, rfl, rfl, rfl, shown⟩

theorem setKey (h : Alike R m n) (key : Int) (pressed : Bool) :
    Outcome.Alike (Alike R) (m.setKey key pressed) (n.setKey key pressed) := by
  obtain ⟨settings, random, core, d, log⟩ := m
  obtain ⟨_, _, _, e, _⟩ := n
  obtain ⟨rfl, rfl, rfl, rfl, shown⟩ := h
  simp only [Machine.setKey]
  split <;> exact ⟨rfl, rfl, rfl, rfl, rfl, shown⟩

end Machine.Alike

variable [Display δ] [Display ε]

structure Simulates (R : δ → ε → Prop) : Prop where
  clear : ∀ d e, R d e → R (Display.clear d) (Display.clear e)
  look : ∀ d e (c : Cell), c.OnPicture → R d e →
    Option.Rel (fun p q => p.1 = q.1 ∧ R p.2 q.2) (Display.look d c) (Display.look e c)
  flip : ∀ d e (c : Cell), c.OnPicture → R d e →
    Option.Rel R (Display.flip d c) (Display.flip e c)

namespace Simulates

variable {R : δ → ε → Prop}

theorem flipAll (sim : Simulates R) (cells : List Cell) (on : ∀ c ∈ cells, c.OnPicture) (hit : Bool)
    {d : δ} {e : ε} (h : R d e) :
    Drawing.Alike R (Drawing.flipAll cells hit d) (Drawing.flipAll cells hit e) := by
  induction cells generalizing hit d e with
  | nil => exact ⟨h, rfl, rfl⟩
  | cons c rest ih =>
    have here : c.OnPicture := on c (by simp)
    have looked := sim.look d e c here h
    simp only [Drawing.flipAll]
    cases hd : Display.look d c <;> cases he : Display.look e c <;> rw [hd, he] at looked <;>
      cases looked
    case none.none => exact ⟨h, rfl, rfl⟩
    case some.some p q both =>
      obtain ⟨lit, d'⟩ := p
      obtain ⟨lit', e'⟩ := q
      obtain ⟨rfl, h'⟩ := both
      have flipped := sim.flip d' e' c here h'
      dsimp only
      cases fd : Display.flip d' c <;> cases fe : Display.flip e' c <;> rw [fd, fe] at flipped <;>
        cases flipped
      case none.none => exact ⟨h', rfl, rfl⟩
      case some.some h'' => exact ih (fun b hb => on b (by simp [hb])) _ h''

theorem paint (sim : Simulates R) (c : Core) {d : δ} {e : ε} (h : R d e) (i : Instruction) :
    Drawing.Alike R (c.paint d i) (c.paint e i) := by
  cases i with
  | clear => exact ⟨sim.clear d e h, rfl, rfl⟩
  | draw x y rows =>
    exact sim.flipAll _ (fun _ hc => Sprite.onPicture_of_mem_cells hc) false h
  | _ => exact ⟨h, rfl, rfl⟩

variable {m : Machine δ} {n : Machine ε}

theorem execute (sim : Simulates R) (h : Machine.Alike R m n) (i : Instruction) :
    Outcome.Alike (Machine.Alike R) (m.execute i) (n.execute i) := by
  obtain ⟨settings, random, core, d, log⟩ := m
  obtain ⟨_, _, _, e, _⟩ := n
  obtain ⟨rfl, rfl, rfl, rfl, shown⟩ := h
  obtain ⟨display, hit, missing⟩ := sim.paint core shown i
  simp only [Machine.execute, hit, missing]
  split
  · exact ⟨rfl, rfl, rfl, rfl, rfl, display⟩
  · split
    · exact ⟨rfl, rfl, rfl, rfl, rfl, display⟩
    · exact ⟨rfl, rfl, rfl, rfl, rfl, display⟩

theorem cycle (sim : Simulates R) (h : Machine.Alike R m n) :
    Outcome.Alike (Machine.Alike R) m.cycle n.cycle := by
  simp only [Machine.cycle, h.core]
  split
  · exact ⟨rfl, h⟩
  · split
    · exact ⟨rfl, h.skipWord _⟩
    · exact sim.execute h _

theorem reset (sim : Simulates R) (h : Machine.Alike R m n) :
    Machine.Alike R m.reset n.reset := by
  obtain ⟨settings, random, core, log, display⟩ := h
  exact ⟨settings, random, congrArg Core.reset core, congrArg (Array.push · _) log,
    sim.clear _ _ display⟩

theorem perform (sim : Simulates R) (h : Machine.Alike R m n) (c : Machine.Command) :
    Outcome.Alike (Machine.Alike R) (m.perform c) (n.perform c) := by
  cases c with
  | cycle => exact sim.cycle h
  | tick =>
    exact ⟨rfl, h.settings, h.random, congrArg Core.tick h.core, h.log, h.display⟩
  | key key pressed => exact h.setKey key pressed
  | releaseKeys =>
    exact ⟨rfl, h.settings, h.random, congrArg Core.releaseKeys h.core, h.log, h.display⟩
  | load program => exact h.load program
  | reset => exact ⟨rfl, sim.reset h⟩

theorem performAll (sim : Simulates R) (h : Machine.Alike R m n) (cs : List Machine.Command) :
    List.Forall₂ (Outcome.Alike (Machine.Alike R)) (m.performAll cs) (n.performAll cs) := by
  induction cs generalizing m n with
  | nil => exact .nil
  | cons c rest ih =>
    have first := sim.perform h c
    exact .cons first (ih first.state)

theorem executed (sim : Simulates R) (h : Machine.Alike R m n) (cs : List Machine.Command) :
    m.executed cs = n.executed cs := by
  induction cs generalizing m n with
  | nil => rfl
  | cons c rest ih =>
    have here : m.executes c = n.executes c := by
      cases c <;> simp only [Machine.executes, h.core]
    rw [Machine.executed, Machine.executed, here, ih (sim.perform h c).state]

end Simulates

end ChipEight
