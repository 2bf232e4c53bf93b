import ChipEight.Proofs.FrameLoop

set_option autoImplicit false

namespace ChipEight

variable {δ : Type} [Display δ]

structure Display.Keeps (P : δ → Prop) : Prop where
  clear : ∀ d, P d → P (Display.clear d)
  look : ∀ (d : δ) (c : Cell) (lit : Bool) (looked : δ), c.OnPicture →
    Display.look d c = some (lit, looked) → P d → P looked
  flip : ∀ (d : δ) (c : Cell) (flipped : δ), c.OnPicture →
    Display.flip d c = some flipped → P d → P flipped

namespace Display.Keeps

variable {P : δ → Prop}

theorem simulates (keeps : Keeps P) : Simulates fun d e : δ => d = e ∧ P d where
  clear := by
    rintro d _ ⟨rfl, h⟩
    exact ⟨rfl, keeps.clear d h⟩
  look := by
    rintro d _ c on ⟨rfl, h⟩
    cases looked : Display.look d c with
    | none => exact .none
    | some p => exact .some ⟨rfl, rfl, keeps.look d c p.1 p.2 on looked h⟩
  flip := by
    rintro d _ c on ⟨rfl, h⟩
    cases flipped : Display.flip d c with
    | none => exact .none
    | some e => exact .some ⟨rfl, keeps.flip d c e on flipped h⟩

theorem cycle (keeps : Keeps P) {m : Machine δ} (h : P m.display) : P m.cycle.state.display :=
  (keeps.simulates.cycle (m := m) (n := m) ⟨rfl, rfl, rfl, rfl, rfl, h⟩).state.display.2

end Display.Keeps

theorem WindowScreen.keeps {toolkit : Toolkit} {width height : Int} {scale : Option Int}
    {P : WindowScreen toolkit width height scale → Prop} (clear : ∀ s, P s → P s.clear)
    (toggle : ∀ (s : WindowScreen toolkit width height scale) (c : Cell) toggled, c.OnPicture →
      s.toggle c = some toggled → P s → P toggled) : Display.Keeps P where
  clear := clear
  look := by
    intro s c lit looked _ look h
    obtain ⟨_, _, same⟩ := Option.map_eq_some_iff.1 look
    rw [← (Prod.mk.inj same).2]
    exact h
  flip s c toggled on flip h := toggle s c toggled on flip h

theorem Outcome.keeps_andThen {σ : Type} {P : σ → Prop} {o : Outcome σ} {next : σ → Outcome σ}
    (h : P o.state) (step : ∀ s, P s → P (next s).state) : P (o.andThen next).state := by
  unfold andThen
  split
  · exact step _ h
  · exact h

namespace Host

/-- Nothing that the host does to its display takes the property away. -/
structure Spares (h : Host δ) (P : δ → Prop) : Prop where
  keeps : Display.Keeps P
  present : ∀ d, P d → P (Display.present d).state
  pause : ∀ d, P d → P (h.pace d)

variable {P : δ → Prop}

def Has (h : Host δ) (P : δ → Prop) (g : Host δ) : Prop := g.pace = h.pace ∧ P g.machine.display

theorem has_act {h g : Host δ} (spares : h.Spares P) (has : h.Has P g) (a : Act) :
    h.Has P (g.act a).state := by
  obtain ⟨pause, shown⟩ := has
  cases a with
  | poll =>
    obtain ⟨_, _, _, _, polled⟩ := state_poll g
    rw [act, polled]
    exact ⟨pause, shown⟩
  | cycle => exact Outcome.keeps_andThen ⟨pause, spares.keeps.cycle shown⟩ fun _ kept => kept
  | tick => exact ⟨pause, shown⟩
  | present =>
    refine Outcome.keeps_andThen (P := h.Has P) ?_ fun _ kept => kept
    unfold Host.present
    split
    · exact Outcome.keeps_andThen (P := h.Has P) ⟨pause, spares.present _ shown⟩ fun _ kept => kept
    · exact ⟨pause, shown⟩
  | pace =>
    refine ⟨pause, ?_⟩
    change P (g.pace g.machine.display)
    rw [pause]
    exact spares.pause _ shown

theorem has_actAll (acts : List Act) {h g : Host δ} (spares : h.Spares P) (has : h.Has P g) :
    h.Has P (actAll acts g).state := by
  induction acts generalizing g with
  | nil => exact has
  | cons a rest ih => exact Outcome.keeps_andThen (has_act spares has a) fun _ kept => ih kept

theorem display_run {h : Host δ} (standard : h.Standard) (spares : h.Spares P)
    (shown : P h.machine.display) : P h.run.state.machine.display := by
  have kept := has_actAll (schedule h.planned h.instructionsPerFrame) spares ⟨rfl, shown⟩
  rw [run_of_loops (loops_schedule h.planned standard rfl)]
  exact (Outcome.keeps_andThen (P := h.Has P) kept fun _ kept => kept).2

end Host

end ChipEight
