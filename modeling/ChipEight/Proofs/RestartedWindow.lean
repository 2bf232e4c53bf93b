import ChipEight.Proofs.FrameBoundaries
import Mathlib.Logic.Relation

set_option autoImplicit false

namespace ChipEight

namespace WindowScreen

variable {toolkit : Toolkit} {width height n : Int} {σ : Surface}
  {s shown : WindowScreen toolkit width height (some n)}

theorem shows_of_repaint (positive : 1 ≤ n) (named : toolkit.Names (width * n) (height * n))
    (all : s.repaint = true) (presented : s.present = .done shown) : Shows n σ shown := by
  have due : s.due = allCells width height := by simp [WindowScreen.due, all]
  have painted : List.Forall₂ (Paints n s.litAt) s.due s.paints :=
    paints_due positive named fun c here => mem_allCells.1 (due ▸ here)
  rw [present_eq_done presented]
  intro c within
  refine ⟨s.litAt c, isLit_of_within s within, fun p block => ?_⟩
  have here : c ∈ s.due := due ▸ mem_allCells.2 within
  rw [Array.toList_push, Array.toList_appendList, Surface.after_append, Surface.after_append]
  exact Surface.after_paints_of_mem painted positive _ here block

theorem Shows.isLit_eq {s t : WindowScreen toolkit width height (some n)} (positive : 1 ≤ n)
    (shows : Shows n σ s) (shows' : Shows n σ t) (same : s.calls = t.calls) {c : Cell}
    (within : c.Within width height) : s.isLit c = t.isLit c := by
  obtain ⟨lit, isLit, colour⟩ := shows c within
  obtain ⟨lit', isLit', colour'⟩ := shows' c within
  let p : Pixel := ⟨c.x * n, c.y * n⟩
  have block : c.Block n p := by
    simp only [Cell.Block, Int.add_mul, Int.one_mul, p]
    omega
  have equal : Colour.ofLit lit = Colour.ofLit lit' := by
    rw [← colour p block, ← colour' p block, same]
  rw [isLit, isLit', Colour.ofLit_inj equal]

end WindowScreen

namespace Host

section

variable {δ : Type} [Display δ]

/-- The machine was reset and perhaps given a program, which it may have refused. -/
def restarted (h : Host δ) (program : Option (List Int)) : Host δ :=
  { h with machine := h.machine.after (.reset :: program.toList.map .load) }

theorem restarted_eq (h : Host δ) (program : Option (List Int)) : ∃ memory log,
    h.restarted program = { h with
      machine := { h.machine with
        core := { h.machine.core.reset with memory := memory }
        display := Display.clear h.machine.display
        log := log } } := by
  cases program with
  | none => exact ⟨_, _, rfl⟩
  | some values =>
    simp only [restarted, Option.toList, List.map_cons, List.map_nil, Machine.after, Machine.perform,
      Machine.load]
    split
    · exact ⟨_, _, rfl⟩
    · split <;> exact ⟨_, _, rfl⟩

def Idles (b g : Host δ) : Prop := b.frame = .done g ∧ b.draws = false

/-- From a restart of `b` on, frames that draw nothing lead to `last`, and one more frame to `g`. -/
structure Resumes (b : Host δ) (program : Option (List Int)) (last g : Host δ) : Prop where
  idle : Relation.ReflTransGen Idles (b.restarted program) last
  frame : last.frame = .done g

theorem display_of_idles {b last : Host δ} (lowered : b.machine.core.drawFlag = false)
    (idle : Relation.ReflTransGen Idles b last) :
    last.machine.core.drawFlag = false ∧ last.machine.display = b.machine.display := by
  induction idle with
  | refl => exact ⟨lowered, rfl⟩
  | tail _ step ih =>
    obtain ⟨down, same⟩ := ih
    have framed := framed_of_done down step.1
    exact ⟨framed.flag, (framed.idle step.2).trans same⟩

theorem Resumes.framed {b last g : Host δ} {program : Option (List Int)}
    (resumes : b.Resumes program last g) :
    last.machine.display = Display.clear b.machine.display ∧ Framed last g := by
  obtain ⟨memory, log, restarted⟩ := b.restarted_eq program
  obtain ⟨idle, done⟩ := resumes
  rw [restarted] at idle
  obtain ⟨down, same⟩ := display_of_idles rfl idle
  exact ⟨same, framed_of_done down done⟩

end

section

variable {toolkit : Toolkit} {width height n : Int} {σ : Surface}
  {b last g : Host (WindowScreen toolkit width height (some n))} {program : Option (List Int)}

/-- From `b` to `g` the screen went dark, and nothing reached the window. -/
structure Unseen (n : Int) (σ : Surface) (b g : Host (WindowScreen toolkit width height (some n))) :
    Prop where
  calls : g.machine.display.calls = b.machine.display.calls
  renders : g.machine.display.renders = b.machine.display.renders
  dark : ∀ c : Cell, c.Within width height → g.machine.display.isLit c = some false
  shows : g.machine.display.Shows n σ ↔
    ∀ c : Cell, c.Within width height → b.machine.display.isLit c = some false

theorem Unseen.litAt_of_shows (unseen : Unseen n σ b g) (shows : g.machine.display.Shows n σ)
    {c : Cell} (within : c.Within width height) : b.machine.display.litAt c = false := by
  simp [WindowScreen.litAt, unseen.shows.1 shows c within]

structure Resumed (n : Int) (σ : Surface) (b last g : Host (WindowScreen toolkit width height (some n))) :
    Prop where
  unseen : last.draws = false → Unseen n σ b g
  presented : last.draws = true → ∃ shown, WindowScreen.Presentation shown ∧
    g.machine.display.calls.toList = b.machine.display.calls.toList ++ shown
  renews : last.draws = true → g.machine.display.Shows n σ

theorem unseen_of_clear (positive : 1 ≤ n) (shows : b.machine.display.Shows n σ)
    (cleared : g.machine.display = b.machine.display.clear) : Unseen n σ b g := by
  have dark : ∀ c : Cell, c.Within width height → g.machine.display.isLit c = some false := by
    intro c within
    rw [cleared, WindowScreen.isLit_of_within _ within, WindowScreen.litAt_clear _ within]
  have same : g.machine.display.calls = b.machine.display.calls := by rw [cleared]; rfl
  refine ⟨same, by rw [cleared]; rfl, dark, ?_, ?_⟩
  · intro shows' c within
    rw [← shows'.isLit_eq positive shows same within]
    exact dark c within
  · intro old c within
    obtain ⟨lit, isLit, colour⟩ := shows c within
    obtain rfl : false = lit := Option.some.inj ((old c within).symm.trans isLit)
    refine ⟨false, dark c within, fun p block => ?_⟩
    rw [same]
    exact colour p block

theorem Resumes.exists_drawn (resumes : b.Resumes program last g) (drew : last.draws = true) :
    ∃ drawn : WindowScreen toolkit width height (some n), drawn.repaint = true ∧
      drawn.calls = b.machine.display.calls ∧ drawn.present = .done g.machine.display := by
  obtain ⟨dark, framed⟩ := resumes.framed
  obtain ⟨drawn, keeps, presented⟩ := framed.drawn drew
  rw [dark] at keeps
  exact ⟨drawn, keeps _ WindowScreen.keeps_repaint rfl,
    (keeps _ (WindowScreen.keeps_calls _ _) ⟨rfl, rfl⟩).1, presented⟩

theorem Resumes.resumed (positive : 1 ≤ n) (named : toolkit.Names (width * n) (height * n))
    (shows : b.machine.display.Shows n σ) (resumes : b.Resumes program last g) :
    Resumed n σ b last g where
  unseen idle := by
    obtain ⟨dark, framed⟩ := resumes.framed
    exact unseen_of_clear positive shows ((framed.idle idle).trans dark)
  presented drew := by
    obtain ⟨drawn, _, calls, presented⟩ := resumes.exists_drawn drew
    rw [← calls]
    exact WindowScreen.presentation_of_present presented
  renews drew := by
    obtain ⟨drawn, all, _, presented⟩ := resumes.exists_drawn drew
    exact WindowScreen.shows_of_repaint positive named all presented

end

section

variable {δ ε : Type} [Display δ] [Display ε] {R : δ → ε → Prop} {h : Host δ} {k : Host ε}

theorem Abreast.restarted (accompanies : Accompanies R) (abreast : Abreast R h k)
    (program : Option (List Int)) : Abreast R (h.restarted program) (k.restarted program) := by
  have alike := accompanies.simulates.reset abreast.machine
  cases program with
  | none => exact abreast.onMachines alike
  | some values => exact abreast.onMachines (alike.load values).state

theorem Abreast.frame (accompanies : Accompanies R) (abreast : Abreast R h k) :
    Outcome.Alike (Abreast R) h.frame k.frame := by
  refine (abreast.poll.andThen fun p q abreast => ?_).andThen fun p q abreast => ?_
  · rw [← actAll_batch, ← actAll_batch, abreast.share]
    exact abreast_actAll accompanies _ abreast
  · exact (abreast_act accompanies abreast .tick).andThen fun p q abreast =>
      abreast_act accompanies abreast .present

theorem Abreast.draws_eq (accompanies : Accompanies R) (abreast : Abreast R h k) :
    h.draws = k.draws := by
  rw [draws, draws, abreast.share,
    accompanies.simulates.executed abreast.poll.state.machine]

end

end Host

namespace Session

def still : List UInt8 := [0x12, 0x00]

def given (rom : List UInt8) : Option (List Int) := some (rom.map fun b => (b.toNat : Int))

def unseenFrame (rom : List UInt8) : Outcome (Host (TextScreen displayWidth displayHeight)) :=
  Host.actAll (Host.frameActs 3) (headlessHost brief.options brief.random 1 180 rom)

def unseenRestart (rom next : List UInt8) : Host (TextScreen displayWidth displayHeight) :=
  (unseenFrame rom).state.restarted (given next)

theorem accompanies_brief :
    Host.Accompanies (@Beside brief.toolkit brief.options.scale.toOption) :=
  Beside.accompanies rfl fits_brief

theorem exists_restart {rom next : List UInt8} (fine : (unseenFrame rom).fault = none)
    (fine' : (unseenRestart rom next).frame.fault = none) :
    ∃ b g, (windowStart brief 180 rom).Completes b ∧
      Host.Abreast Beside (unseenFrame rom).state b ∧
      (b.restarted (given next)).frame = .done g ∧
      (b.restarted (given next)).draws = (unseenRestart rom next).draws ∧
      Host.Abreast Beside (unseenRestart rom next).frame.state g := by
  have begun := abreast_start comparable_brief.unbound 1 180 rom
  have first := Host.abreast_actAll accompanies_brief (Host.frameActs 3) begun
  cases completed : Host.actAll (Host.frameActs 3) (windowStart brief 180 rom) with
  | mk b fault =>
    rw [completed] at first
    obtain rfl : fault = none := first.fault.symm.trans fine
    have again := first.state.restarted accompanies_brief (given next)
    have alike := again.frame accompanies_brief
    cases framed : (b.restarted (given next)).frame with
    | mk g fault =>
      rw [framed] at alike
      obtain rfl : fault = none := alike.fault.symm.trans fine'
      exact ⟨b, g, ⟨rfl, completed⟩, first.state, framed,
        (again.draws_eq accompanies_brief).symm, alike.state⟩

theorem corner_lit : (unseenFrame corner).fault = none ∧
    (unseenFrame corner).state.machine.display.litAt ⟨63, 0⟩ = true := by
  decide +kernel

theorem still_corner : (unseenFrame still).fault = none ∧
    (unseenRestart still corner).draws = true ∧ (unseenRestart still corner).frame.fault = none ∧
    (unseenRestart still corner).frame.state.machine.display.litAt ⟨63, 0⟩ = true := by
  decide +kernel

theorem corner_still :
    (unseenRestart corner still).draws = false ∧ (unseenRestart corner still).frame.fault = none := by
  decide +kernel

theorem shows_brief {rom : List UInt8} {b : Host (Screen brief)}
    (completes : (windowStart brief 180 rom).Completes b) :
    b.machine.display.Shows 8 fun _ => .black :=
  shows_boundaries rfl fits_brief 180 rom _ b (Host.mem_boundaries_of_completes completes)

/-- After a restart a frame that draws nothing leaves the old picture on the window. The first that draws
presents the screen, and the window shows it then, whatever was run before and is run now. -/
theorem restart_reaches_window {toolkit : Toolkit} {width height n : Int} {σ : Surface}
    {b last g : Host (WindowScreen toolkit width height (some n))} {program : Option (List Int)}
    (positive : 1 ≤ n) (named : toolkit.Names (width * n) (height * n))
    (shows : b.machine.display.Shows n σ) (resumes : b.Resumes program last g) :
    Host.Resumed n σ b last g :=
  resumes.resumed positive named shows

theorem restart_reaches_window_standard :
    (1 : Int) ≤ 8 ∧ brief.toolkit.Names 512 256 ∧ ∃ b g,
      (windowStart brief 180 still).Completes b ∧ b.machine.display.Shows 8 (fun _ => .black) ∧
        b.Resumes (given corner) (b.restarted (given corner)) g ∧
        (b.restarted (given corner)).draws = true ∧ g.machine.display.litAt ⟨63, 0⟩ = true ∧
        g.machine.display.Shows 8 (fun _ => .black) := by
  have positive : (1 : Int) ≤ 8 := by decide
  have named : brief.toolkit.Names 512 256 := fits_brief.named
  obtain ⟨fine, drew, fine', lit⟩ := still_corner
  obtain ⟨b, g, completes, _, framed, drew', abreast⟩ := exists_restart fine fine'
  have shows := shows_brief completes
  have resumes : b.Resumes (given corner) (b.restarted (given corner)) g := ⟨.refl, framed⟩
  have resumed := restart_reaches_window positive named shows resumes
  refine ⟨positive, named, b, g, completes, shows, resumes, drew'.trans drew, ?_,
    resumed.renews (drew'.trans drew)⟩
  rw [← abreast.machine.display.litAt_eq ⟨by decide, by decide, by decide, by decide⟩]
  exact lit

/-- The window shows the last cell of a row, and goes on showing it when the machine was reset and
jumps on the spot. -/
theorem not_shows_restarted : ∃ b g,
    (windowStart brief 180 corner).Completes b ∧ b.machine.display.Shows 8 (fun _ => .black) ∧
      (b.restarted (given still)).draws = false ∧ (b.restarted (given still)).frame = .done g ∧
      ¬ g.machine.display.Shows 8 (fun _ => .black) := by
  obtain ⟨fine, lit⟩ := corner_lit
  obtain ⟨idle, fine'⟩ := corner_still
  obtain ⟨b, g, completes, abreast, framed, idle', _⟩ := exists_restart fine fine'
  have shows := shows_brief completes
  have lit' : b.machine.display.litAt ⟨63, 0⟩ = true := by
    rw [← abreast.machine.display.litAt_eq ⟨by decide, by decide, by decide, by decide⟩]
    exact lit
  have resumes : b.Resumes (given still) (b.restarted (given still)) g := ⟨.refl, framed⟩
  have resumed : Host.Resumed 8 (fun _ => .black) b (b.restarted (given still)) g :=
    Host.Resumes.resumed (by decide) fits_brief.named shows resumes
  have unseen := resumed.unseen (idle'.trans idle)
  refine ⟨b, g, completes, shows, idle'.trans idle, framed, fun shows' => ?_⟩
  have old := unseen.litAt_of_shows (c := ⟨63, 0⟩) shows'
    ⟨by decide, by decide, by decide, by decide⟩
  exact absurd (old.symm.trans lit') (by decide)

end Session

end ChipEight
