import ChipEight.Proofs.SessionsAgree

set_option autoImplicit false

namespace ChipEight

namespace WindowScreen

variable {toolkit : Toolkit} {width height : Int} {scale : Option Int}

/-- On a window that showed `σ` at first, the block of each cell has the colour of the cell. -/
def Shows (n : Int) (σ : Surface) (s : WindowScreen toolkit width height scale) : Prop :=
  ∀ c : Cell, c.Within width height → ∃ lit, s.isLit c = some lit ∧
    ∀ p, c.Block n p → σ.after s.calls.toList p = .ofLit lit

/-- The calls of one presentation: cells are painted, and then areas are reported. -/
def Presentation (calls : List WindowCall) : Prop :=
  ∃ fills areas, calls = fills ++ [.update areas] ∧ ∀ c ∈ fills, ∃ lit area, c = .fill lit area

theorem presentation_of_present {s shown : WindowScreen toolkit width height scale}
    (presented : s.present = .done shown) : ∃ calls, Presentation calls ∧
      shown.calls.toList = s.calls.toList ++ calls := by
  refine ⟨s.paints ++ [.update (s.dueAreas.getD [])], ⟨_, _, rfl, fun c painted => ?_⟩, ?_⟩
  · obtain ⟨cell, _, area, _, rfl⟩ := exists_of_mem_paints painted
    exact ⟨_, area, rfl⟩
  · rw [present_eq_done presented]
    simp

variable {n : Int} {σ : Surface}

theorem after_pace (s : WindowScreen toolkit width height scale) (rate : Nat) (σ : Surface) :
    σ.after (s.call (.pace rate)).calls.toList = σ.after s.calls.toList := by
  rw [call, Array.toList_push, Surface.after_append]
  rfl

theorem keeps_calls (calls : Array WindowCall) (renders : Nat) : Display.Keeps
    fun s : WindowScreen toolkit width height scale => s.calls = calls ∧ s.renders = renders := by
  refine WindowScreen.keeps (fun _ kept => kept) ?_
  intro s c toggled _ flip kept
  obtain ⟨_, _, rfl⟩ := Option.map_eq_some_iff.1 flip
  exact kept

theorem Shows.pace {s : WindowScreen toolkit width height scale} (shows : Shows n σ s) (rate : Nat) :
    Shows n σ (s.call (.pace rate)) := by
  intro c within
  obtain ⟨lit, isLit, colour⟩ := shows c within
  refine ⟨lit, isLit, fun p block => ?_⟩
  rw [after_pace]
  exact colour p block

theorem upToDate_of_shows {s : WindowScreen toolkit width height (some n)} (shows : Shows n σ s)
    (none : s.touched = ∅) : UpToDate σ s where
  touched c touched := by
    rw [none] at touched
    exact absurd touched Std.TreeSet.not_mem_emptyc
  shown _ c within _ p block := by
    obtain ⟨lit, isLit, colour⟩ := shows c within
    have here : s.litAt c = lit := by simp [litAt, isLit]
    rw [here]
    exact colour p block

theorem UpToDate.keeps : Display.Keeps
    fun s : WindowScreen toolkit displayWidth displayHeight (some n) => UpToDate σ s := by
  refine WindowScreen.keeps (fun _ current => current.clear) ?_
  intro s c toggled on flip current
  have answered : Display.answer s (.flip c) = toggled := by
    simp only [Display.answer, Display.flip, flip, Option.getD_some]
  rw [← answered]
  exact current.flip on

theorem UpToDate.pace {s : WindowScreen toolkit width height (some n)} (current : UpToDate σ s) (rate : Nat) :
    UpToDate σ (s.call (.pace rate)) where
  touched := current.touched
  shown painted c within untouched p block := by
    rw [after_pace]
    exact current.shown painted c within untouched p block

theorem shows_of_present (fits : Fits toolkit width height n)
    {s shown : WindowScreen toolkit width height (some n)} (current : UpToDate σ s)
    (presented : s.present = .done shown) : Shows n σ shown := by
  rw [present_eq_done presented]
  intro c within
  refine ⟨s.litAt c, isLit_of_within s within, fun p block => ?_⟩
  rw [Array.toList_push, Array.toList_appendList, Surface.after_append]
  exact shown_of_paints fits current within block

end WindowScreen

namespace Host

variable {toolkit : Toolkit} {width height : Int} {scale : Option Int}

/-- A frame from `b` to `g` left the draw flag down and presented the screen once if it drew. -/
structure Settles (b g : Host (WindowScreen toolkit width height scale)) : Prop where
  flag : g.machine.core.drawFlag = false
  calls : ∃ shown, g.machine.display.calls.toList =
      b.machine.display.calls.toList ++ shown ++ [.pace framesPerSecond] ∧
    if b.draws then WindowScreen.Presentation shown else shown = []
  renders : g.machine.display.renders = b.machine.display.renders + if b.draws then 1 else 0

theorem settles {b g : Host (WindowScreen toolkit width height scale)}
    (lowered : b.machine.core.drawFlag = false)
    (paced : b.pace = fun d => d.call (.pace framesPerSecond)) (completes : b.Completes g) :
    Settles b g := by
  obtain ⟨down, _, left⟩ := frame_cases lowered completes
  rw [paced] at left
  obtain ⟨still, same⟩ | ⟨drew, drawn, shown, presented⟩ := left
  · refine ⟨down, ⟨[], ?_, by simp [still]⟩, ?_⟩ <;> simp [same, still, WindowScreen.call]
  · obtain ⟨calls, renders⟩ := presented.keeps _ (WindowScreen.keeps_calls _ _) ⟨rfl, rfl⟩
    obtain ⟨more, once, listed⟩ := WindowScreen.presentation_of_present presented.present
    have display : g.machine.display = shown.call (.pace framesPerSecond) := by
      rw [presented.display, paced]
    refine ⟨down, ⟨more, ?_, by simpa [drew] using once⟩, ?_⟩
    · rw [display, ← calls, ← listed]
      simp [WindowScreen.call]
    · rw [display, WindowScreen.present_eq_done presented.present, drew, ← renders]
      rfl

theorem renders_eq_count {b : Host (WindowScreen toolkit width height scale)}
    {hosts : List (Host (WindowScreen toolkit width height scale))} (chain : List.IsChain Settles (b :: hosts))
    {earlier later : List (Host (WindowScreen toolkit width height scale))}
    {g : Host (WindowScreen toolkit width height scale)} (split : b :: hosts = earlier ++ g :: later) :
    g.machine.display.renders = b.machine.display.renders + earlier.countP draws := by
  induction earlier generalizing b hosts with
  | nil =>
    obtain ⟨rfl, _⟩ := List.cons.inj split
    rfl
  | cons e earlier ih =>
    obtain ⟨rfl, rest⟩ := List.cons.inj split
    obtain _ | ⟨k, hosts⟩ := hosts
    · simp at rest
    · obtain ⟨first, further⟩ := List.isChain_cons_cons.1 chain
      rw [ih further rest, first.renders, List.countP_cons]
      omega

/-- Each frame of the host settles, and presentations count the frames that drew. -/
structure Punctual (h : Host (WindowScreen toolkit width height scale)) : Prop where
  settles : List.IsChain Settles h.boundaries
  renders : ∀ earlier g later, h.boundaries = earlier ++ g :: later →
    g.machine.display.renders = earlier.countP draws

structure Opened (h : Host (WindowScreen toolkit width height scale)) : Prop where
  flag : h.machine.core.drawFlag = false
  paced : h.pace = fun d => d.call (.pace framesPerSecond)
  touched : h.machine.display.touched = ∅
  renders : h.machine.display.renders = 0

theorem Opened.punctual {h : Host (WindowScreen toolkit width height scale)} (opened : h.Opened) :
    h.Punctual := by
  have kept := boundaries_keep (D := fun _ => True) opened.flag trivial (fun _ _ => trivial)
    fun _ _ _ _ _ _ => trivial
  have chain : List.IsChain Settles h.boundaries := by
    refine h.isChain_boundaries.imp_of_mem_imp fun b g here _ completes => ?_
    obtain ⟨down, pace, _⟩ := kept b here
    exact settles down (pace.trans opened.paced) completes
  refine ⟨chain, fun earlier g later split => ?_⟩
  have counted := renders_eq_count chain split
  rw [opened.renders] at counted
  omega

variable {n : Int} {σ : Surface} {h : Host (WindowScreen toolkit displayWidth displayHeight (some n))}

theorem Opened.shows (opened : h.Opened)
    (fits : WindowScreen.Fits toolkit displayWidth displayHeight n)
    (dark : h.machine.display.Shows n σ) : ∀ g ∈ h.boundaries, g.machine.display.Shows n σ := by
  have kept := boundaries_keep (D := fun d => WindowScreen.UpToDate σ d ∧ d.Shows n σ) opened.flag
    ⟨WindowScreen.upToDate_of_shows dark opened.touched, dark⟩
    (by
      rw [opened.paced]
      exact fun d ⟨current, shows⟩ => ⟨current.pace _, shows.pace _⟩)
    (by
      rintro d drawn shown ⟨current, _⟩ keeps presented
      have shows : shown.Shows n σ :=
        WindowScreen.shows_of_present fits (keeps _ WindowScreen.UpToDate.keeps current) presented
      have none : shown.touched = ∅ := by rw [WindowScreen.present_eq_done presented]
      exact ⟨WindowScreen.upToDate_of_shows shows none, shows⟩)
  exact fun g here => (kept g here).2.2.2

end Host

namespace Session

theorem opened_windowStart (s : Setting) (speed : Int) (rom : List UInt8) :
    (windowStart s speed rom).Opened := by
  obtain ⟨_, _, booted⟩ := state_boot s (windowScreen s) rom
  rw [windowStart, booted]
  exact ⟨rfl, rfl, rfl, rfl⟩

theorem display_windowStart (s : Setting) (speed : Int) (rom : List UInt8) :
    (windowStart s speed rom).machine.display = (windowScreen s).clear := by
  obtain ⟨_, _, booted⟩ := state_boot s (windowScreen s) rom
  rw [windowStart, booted]
  rfl

theorem shows_windowStart (s : Setting) (speed : Int) (rom : List UInt8) (n : Int) (σ : Surface) :
    (windowStart s speed rom).machine.display.Shows n σ := by
  rw [display_windowStart]
  intro c within
  refine ⟨false, ?_, fun p _ => rfl⟩
  rw [WindowScreen.isLit_of_within _ within, WindowScreen.litAt_clear _ within]

theorem shows_boundaries {s : Setting} {n : Int} (scaled : s.options.scale = .value n)
    (fits : WindowScreen.Fits s.toolkit displayWidth displayHeight n) (speed : Int)
    (rom : List UInt8) (σ : Surface) :
    ∀ g ∈ (windowStart s speed rom).boundaries, g.machine.display.Shows n σ := by
  have opened := opened_windowStart s speed rom
  have dark := shows_windowStart s speed rom n σ
  obtain ⟨⟨_, _, scale, _, _, _, _, _, _, _, _⟩, _, _, _, _, _⟩ := s
  obtain rfl : scale = .value n := scaled
  exact opened.shows fits dark

/-- At the end of each frame the draw flag is down, the screen was presented once if the frame drew, and
the window shows the picture. -/
theorem window_keeps_up {s : Setting} {n : Int} (scaled : s.options.scale = .value n)
    (positive : 1 ≤ n) (lawful : s.toolkit.Lawful)
    (opened : s.toolkit.opens (windowSize s.options.scale) = true) (speed : Int)
    (rom : List UInt8) (σ : Surface) :
    (windowStart s speed rom).Punctual ∧
      ∀ g ∈ (windowStart s speed rom).boundaries, g.machine.display.Shows n σ :=
  ⟨(opened_windowStart s speed rom).punctual,
    shows_boundaries scaled (fits_of_opens scaled positive lawful opened) speed rom σ⟩

def corner : List UInt8 := [0x60, 0x3F, 0xA2, 0x06, 0xD0, 0x11, 0x80]

theorem window_keeps_up_standard :
    brief.options.scale = .value 8 ∧ (1 : Int) ≤ 8 ∧ brief.toolkit.Lawful ∧
      brief.toolkit.opens (windowSize brief.options.scale) = true ∧
      (windowStart brief 180 corner).Punctual ∧
      ∀ g ∈ (windowStart brief 180 corner).boundaries,
        g.machine.display.Shows 8 fun _ => .black :=
  ⟨rfl, by decide, lawful_brief, opens_brief,
    window_keeps_up rfl (by decide) lawful_brief opens_brief 180 corner _⟩

end Session

end ChipEight
