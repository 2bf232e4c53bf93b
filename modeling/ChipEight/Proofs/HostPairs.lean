import ChipEight.Proofs.FrameLoop

set_option autoImplicit false

namespace ChipEight

theorem Outcome.Alike.andThen {σ τ : Type} {S : σ → τ → Prop} {o : Outcome σ} {p : Outcome τ}
    (h : Alike S o p) {next : σ → Outcome σ} {next' : τ → Outcome τ}
    (step : ∀ s t, S s t → Alike S (next s) (next' t)) :
    Alike S (o.andThen next) (p.andThen next') := by
  obtain ⟨s, fault⟩ := o
  obtain ⟨t, fault'⟩ := p
  obtain ⟨rfl, related⟩ := h
  cases fault with
  | none => exact step s t related
  | some f => exact ⟨rfl, related⟩

theorem Outcome.Alike.map {σ τ σ' τ' : Type} {S : σ → τ → Prop} {S' : σ' → τ' → Prop}
    {o : Outcome σ} {p : Outcome τ} (h : Alike S o p) {g : σ → σ'} {g' : τ → τ'}
    (kept : ∀ s t, S s t → S' (g s) (g' t)) : Alike S' (o.map g) (p.map g') :=
  ⟨h.fault, kept _ _ h.state⟩

def KeyEvent.Unbound (map : KeyMap) : KeyEvent → Prop
  | .down code | .up code => map.find? code = none
  | .quit | .other => True

variable {δ ε : Type}

theorem Simulates.refine [Display δ] [Display ε] {R Q : δ → ε → Prop} (sim : Simulates R)
    (clear : ∀ d e, Q d e → Q (Display.clear d) (Display.clear e))
    (look : ∀ d e (c : Cell) p q, c.OnPicture → Display.look d c = some p →
      Display.look e c = some q → Q d e → Q p.2 q.2)
    (flip : ∀ d e (c : Cell) d' e', c.OnPicture → Display.flip d c = some d' →
      Display.flip e c = some e' → Q d e → Q d' e') :
    Simulates fun d e => R d e ∧ Q d e where
  clear d e h := ⟨sim.clear d e h.1, clear d e h.2⟩
  look d e c on h := by
    have looked := sim.look d e c on h.1
    cases hd : Display.look d c <;> cases he : Display.look e c <;> rw [hd, he] at looked <;>
      cases looked
    case none.none => exact .none
    case some.some p q both => exact .some ⟨both.1, both.2, look d e c p q on hd he h.2⟩
  flip d e c on h := by
    have flipped := sim.flip d e c on h.1
    cases hd : Display.flip d c <;> cases he : Display.flip e c <;> rw [hd, he] at flipped <;>
      cases flipped
    case none.none => exact .none
    case some.some related => exact .some ⟨related, flip d e c _ _ on hd he h.2⟩

namespace Host

def Quiet (h : Host δ) : Prop :=
  ∀ map isOpen, h.keypad = .scripted map isOpen → ∀ events ∈ h.script, ∀ e ∈ events, e.Unbound map

theorem handle_unbound {h : Host δ} {map : KeyMap} {isOpen : Bool}
    (held : h.keypad = .scripted map isOpen) {e : KeyEvent} (unbound : e.Unbound map) :
    ∃ stillOpen, h.handle e = .done { h with keypad := .scripted map stillOpen } := by
  obtain ⟨machine, keypad, script, share, instructions, frames, pace⟩ := h
  obtain rfl : keypad = .scripted map isOpen := held
  cases e with
  | quit => exact ⟨false, rfl⟩
  | other => exact ⟨isOpen, rfl⟩
  | down code =>
    have none : map.find? code = none := unbound
    exact ⟨isOpen, by simp only [handle, none]⟩
  | up code =>
    have none : map.find? code = none := unbound
    exact ⟨isOpen, by simp only [handle, none]⟩

theorem handleAll_unbound (events : List KeyEvent) {h : Host δ} {map : KeyMap} {isOpen : Bool}
    (held : h.keypad = .scripted map isOpen) (unbound : ∀ e ∈ events, e.Unbound map) :
    ∃ stillOpen, handleAll events h = .done { h with keypad := .scripted map stillOpen } := by
  induction events generalizing h isOpen with
  | nil => exact ⟨isOpen, by simp [handleAll, ← held]⟩
  | cons e rest ih =>
    obtain ⟨open', handled⟩ := handle_unbound held (unbound e (by simp))
    rw [handleAll, handled, Outcome.andThen_done]
    exact ih (h := { h with keypad := .scripted map open' }) rfl fun b hb => unbound b (by simp [hb])

theorem poll_quiet {h : Host δ} (quiet : h.Quiet) : ∃ keypad script,
    h.poll = .done { h with keypad := keypad, script := script } ∧
      Quiet { h with keypad := keypad, script := script } := by
  obtain ⟨machine, keypad, script, share, instructions, frames, pace⟩ := h
  cases keypad with
  | unattended left => exact ⟨_, script, rfl, by simp [Quiet]⟩
  | scripted map isOpen =>
    have unbound := quiet map isOpen rfl
    cases script with
    | nil => exact ⟨_, [], rfl, by simp [Quiet]⟩
    | cons events rest =>
      obtain ⟨stillOpen, polled⟩ := handleAll_unbound events
        (h := ⟨machine, .scripted map isOpen, rest, share, instructions, frames, pace⟩) rfl
        (unbound events (by simp))
      refine ⟨_, rest, polled, ?_⟩
      rintro map' open' same later member
      obtain rfl := (Keypad.scripted.inj same).1
      exact unbound later (by simp [member])

variable [Display δ] [Display ε]

/-- A host cannot tell the displays apart: they answer a machine alike, they are presented alike, and
they were presented equally often. -/
structure Accompanies (R : δ → ε → Prop) : Prop where
  simulates : Simulates R
  present : ∀ d e, R d e → Outcome.Alike R (Display.present d) (Display.present e)
  renders : ∀ d e, R d e → Display.renders d = Display.renders e

omit [Display δ] [Display ε] in
/-- The hosts have done the same so far, and hear nothing from now on. -/
structure Abreast (R : δ → ε → Prop) (h : Host δ) (k : Host ε) : Prop where
  machine : Machine.Alike R h.machine k.machine
  share : h.instructionsPerFrame = k.instructionsPerFrame
  instructions : h.instructions = k.instructions
  frames : h.frames = k.frames
  pause : ∀ d e, R d e → R (h.pace d) (k.pace e)
  quiet : h.Quiet
  quiet' : k.Quiet

variable {R : δ → ε → Prop} {h : Host δ} {k : Host ε}

omit [Display δ] [Display ε] in
theorem Abreast.poll (abreast : Abreast R h k) : Outcome.Alike (Abreast R) h.poll k.poll := by
  obtain ⟨_, _, polled, quiet⟩ := poll_quiet abreast.quiet
  obtain ⟨_, _, polled', quiet'⟩ := poll_quiet abreast.quiet'
  rw [polled, polled']
  exact ⟨rfl, abreast.machine, abreast.share, abreast.instructions, abreast.frames, abreast.pause,
    quiet, quiet'⟩

omit [Display δ] [Display ε] in
theorem Abreast.onMachines (abreast : Abreast R h k) {m : Machine δ} {n : Machine ε}
    (alike : Machine.Alike R m n) : Abreast R { h with machine := m } { k with machine := n } :=
  ⟨alike, abreast.share, abreast.instructions, abreast.frames, abreast.pause, abreast.quiet,
    abreast.quiet'⟩

theorem Abreast.cycle (accompanies : Accompanies R) (abreast : Abreast R h k) :
    Outcome.Alike (Abreast R) h.cycle k.cycle := by
  have cycled := accompanies.simulates.cycle abreast.machine
  refine (cycled.map fun m n alike => abreast.onMachines alike).andThen ?_
  intro g l abreast
  exact ⟨rfl, abreast.machine, abreast.share, congrArg (· + 1) abreast.instructions, abreast.frames,
    abreast.pause, abreast.quiet, abreast.quiet'⟩

omit [Display δ] [Display ε] in
theorem Abreast.lowerFlag (abreast : Abreast R h k) : Abreast R h.lowerFlag k.lowerFlag := by
  obtain ⟨settings, random, core, log, display⟩ := abreast.machine
  exact abreast.onMachines
    ⟨settings, random, congrArg (fun c => { c with drawFlag := false }) core, log, display⟩

theorem Abreast.present (accompanies : Accompanies R) (abreast : Abreast R h k) :
    Outcome.Alike (Abreast R) h.present k.present := by
  obtain ⟨settings, random, core, log, display⟩ := abreast.machine
  unfold Host.present
  rw [core]
  split
  · have shown := accompanies.present _ _ display
    refine (shown.map fun d e related => ?_).andThen fun g l abreast => ⟨rfl, abreast.lowerFlag⟩
    exact abreast.onMachines (m := { h.machine with display := d })
      (n := { k.machine with display := e }) ⟨settings, random, core, log, related⟩
  · exact ⟨rfl, abreast⟩

theorem abreast_act (accompanies : Accompanies R) (abreast : Abreast R h k) (a : Act) :
    Outcome.Alike (Abreast R) (h.act a) (k.act a) := by
  obtain ⟨settings, random, core, log, display⟩ := abreast.machine
  cases a with
  | poll => exact abreast.poll
  | cycle => exact abreast.cycle accompanies
  | tick =>
    exact ⟨rfl, abreast.onMachines (m := h.machine.tick) (n := k.machine.tick)
      ⟨settings, random, congrArg Core.tick core, log, display⟩⟩
  | present =>
    unfold act
    refine (abreast.present accompanies).andThen ?_
    intro g l abreast
    exact ⟨rfl, abreast.machine, abreast.share, abreast.instructions,
      congrArg (· + 1) abreast.frames, abreast.pause, abreast.quiet, abreast.quiet'⟩
  | pace =>
    exact ⟨rfl, abreast.onMachines (m := { h.machine with display := h.pace h.machine.display })
      (n := { k.machine with display := k.pace k.machine.display })
      ⟨settings, random, core, log, abreast.pause _ _ display⟩⟩

theorem abreast_actAll (accompanies : Accompanies R) (acts : List Act) (abreast : Abreast R h k) :
    Outcome.Alike (Abreast R) (actAll acts h) (actAll acts k) := by
  induction acts generalizing h k with
  | nil => exact ⟨rfl, abreast⟩
  | cons a rest ih =>
    exact (abreast_act accompanies abreast a).andThen fun g l abreast => ih abreast

theorem abreast_report (accompanies : Accompanies R) (abreast : Abreast R h k) :
    Abreast R h.report k.report := by
  obtain ⟨settings, random, core, log, display⟩ := abreast.machine
  have renders := accompanies.renders _ _ display
  have same : h.report.machine.log = k.report.machine.log := by
    simp only [report, Machine.note, log, abreast.instructions, abreast.frames, renders]
  exact abreast.onMachines (m := h.report.machine) (n := k.report.machine)
    ⟨settings, random, core, same, display⟩

theorem abreast_run (accompanies : Accompanies R) (abreast : Abreast R h k) (standard : h.Standard)
    (standard' : k.Standard) (planned : h.planned = k.planned) :
    Outcome.Alike (Abreast R) h.run k.run := by
  rw [run_of_loops (loops_schedule h.planned standard rfl),
    run_of_loops (loops_schedule k.planned standard' rfl), ← planned, ← abreast.share]
  refine (abreast_actAll accompanies _ abreast).andThen ?_
  intro g l abreast
  exact ⟨rfl, abreast_report accompanies abreast⟩

end Host

end ChipEight
