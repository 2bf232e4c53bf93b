import ChipEight.Proofs.HostActs

set_option autoImplicit false

/-!
# What a run of the host adds up to

The keypad alone decides how many frames a run has: an unattended one allows a number of polls, and a
scripted one goes on to the first poll that closes the window. A run performs the acts of so many
frames, and stops early only at an act that fails. With the standard bindings a poll never does, so
what can fail is a cycle, or a presentation on a window that cannot name what is to be painted.
-/
namespace ChipEight

theorem KeyMap.find?_standard {code key : Int} (found : standard.find? code = some key) :
    0 ≤ key ∧ key < 16 := by
  obtain ⟨binding, here, rfl⟩ := Option.map_eq_some_iff.1 found
  rw [List.findRev?_eq_find?_reverse] at here
  have bound : binding ∈ standard := List.mem_reverse.1 (List.mem_of_find?_eq_some here)
  have known : ∀ b ∈ standard, 0 ≤ b.2 ∧ b.2 < 16 := by decide
  exact known binding bound

namespace Host

variable {δ : Type}

def Standard (h : Host δ) : Prop :=
  ∀ map isOpen, h.keypad = .scripted map isOpen → map = .standard

/-- The number of polls that the keypad still allows. -/
def planned (h : Host δ) : Nat :=
  match h.keypad with
  | .unattended left => left.toNat
  | .scripted _ isOpen =>
    if isOpen then h.script.findIdx (fun events => events.contains .quit) + 1 else 0

inductive Polled (h g : Host δ) (n : Nat) : Prop
  | unattended {left : Int} (before : h.keypad = .unattended left)
      (after : g.keypad = .unattended (left - n))
  | scripted {map : KeyMap} {isOpen stillOpen : Bool} (before : h.keypad = .scripted map isOpen)
      (after : g.keypad = .scripted map stillOpen) (rest : g.script = h.script.drop n)

theorem Polled.zero {h g : Host δ} (keypad : g.keypad = h.keypad) (script : g.script = h.script) :
    h.Polled g 0 := by
  cases held : h.keypad with
  | unattended left => exact .unattended held (by simp [keypad, held])
  | scripted map isOpen => exact .scripted held (keypad.trans held) script

theorem Polled.trans {h g k : Host δ} {m n : Nat} (first : h.Polled g m) (second : g.Polled k n) :
    h.Polled k (m + n) := by
  cases first with
  | unattended before middle =>
    cases second with
    | unattended middle' after =>
      obtain rfl := Keypad.unattended.inj (middle.symm.trans middle')
      refine .unattended before (after.trans (congrArg _ ?_))
      omega
    | scripted middle' => simp [middle] at middle'
  | scripted before middle rest =>
    cases second with
    | unattended middle' => simp [middle] at middle'
    | scripted middle' after further =>
      obtain ⟨rfl, rfl⟩ := Keypad.scripted.inj (middle.symm.trans middle')
      exact .scripted before after (by rw [further, rest, List.drop_drop])

theorem running_iff_planned (h : Host δ) : h.running = true ↔ 0 < h.planned := by
  unfold running planned Keypad.running
  split
  · rename_i isOpen held
    rw [held]
    cases isOpen <;> simp
  · rename_i left held
    rw [held]
    simp

theorem setKey_known (h : Host δ) {key : Int} (known : 0 ≤ key ∧ key < 16) (pressed : Bool) :
    ∃ machine, h.setKey key pressed = .done { h with machine := machine } := by
  unfold setKey Machine.setKey
  rw [dif_pos known]
  exact ⟨_, rfl⟩

theorem handle_standard {h : Host δ} {isOpen : Bool} (held : h.keypad = .scripted .standard isOpen)
    {e : KeyEvent} (other : e ≠ .quit) : ∃ machine, h.handle e = .done { h with machine := machine } := by
  obtain ⟨machine, keypad, script, share, instructions, frames, pace⟩ := h
  obtain rfl : keypad = .scripted .standard isOpen := held
  cases e with
  | quit => exact absurd rfl other
  | other => exact ⟨machine, rfl⟩
  | down code =>
    cases found : KeyMap.standard.find? code with
    | none => exact ⟨machine, by simp only [handle, found]⟩
    | some key =>
      simp only [handle, found]
      exact setKey_known _ (KeyMap.find?_standard found) true
  | up code =>
    cases found : KeyMap.standard.find? code with
    | none => exact ⟨machine, by simp only [handle, found]⟩
    | some key =>
      simp only [handle, found]
      exact setKey_known _ (KeyMap.find?_standard found) false

theorem handle_quit {h : Host δ} {map : KeyMap} {isOpen : Bool}
    (held : h.keypad = .scripted map isOpen) :
    h.handle .quit = .done { h with keypad := .scripted map false } := by
  unfold handle
  rw [held]

theorem handleAll_standard (events : List KeyEvent) {h : Host δ} {isOpen : Bool}
    (held : h.keypad = .scripted .standard isOpen) : ∃ machine, handleAll events h = .done { h with
      machine := machine
      keypad := .scripted .standard (isOpen && !events.contains .quit) } := by
  induction events generalizing h isOpen with
  | nil => exact ⟨h.machine, by simp [handleAll, ← held]⟩
  | cons e rest ih =>
    rw [handleAll]
    by_cases closes : e = .quit
    · subst closes
      rw [handle_quit held, Outcome.andThen_done]
      have closed := ih (h := { h with keypad := .scripted .standard false }) rfl
      simpa using closed
    · obtain ⟨machine, handled⟩ := handle_standard held closes
      rw [handled, Outcome.andThen_done]
      have further := ih (h := { h with machine := machine }) held
      have open' : (e :: rest).contains .quit = rest.contains .quit := by
        rw [List.contains_cons, beq_false_of_ne (Ne.symm closes), Bool.false_or]
      rw [open']
      exact further

theorem poll_unattended {h : Host δ} {left : Int} (held : h.keypad = .unattended left) :
    h.poll = .done { h with keypad := .unattended (left - 1) } := by
  unfold poll
  rw [held]

theorem poll_scripted {h : Host δ} {isOpen : Bool} (held : h.keypad = .scripted .standard isOpen) :
    ∃ machine, h.poll = .done { h with
      machine := machine
      keypad := .scripted .standard (isOpen && !(h.script.headD [.quit]).contains .quit)
      script := h.script.tail } := by
  obtain ⟨machine, keypad, script, share, instructions, frames, pace⟩ := h
  obtain rfl : keypad = .scripted .standard isOpen := held
  cases script with
  | nil => exact handleAll_standard [.quit] rfl
  | cons events rest => exact handleAll_standard events rfl

theorem poll_standard {h : Host δ} (standard : h.Standard) :
    ∃ g, h.poll = .done g ∧ g.Standard ∧ g.planned = h.planned - 1 ∧ h.Polled g 1 := by
  cases held : h.keypad with
  | unattended left =>
    refine ⟨_, poll_unattended held, by simp [Standard], ?_, .unattended held rfl⟩
    simp only [planned, held]
    omega
  | scripted map isOpen =>
    obtain rfl := standard map isOpen held
    obtain ⟨machine, polled⟩ := poll_scripted held
    refine ⟨_, polled, ?_, ?_, .scripted held rfl (by rw [List.drop_one])⟩
    · rintro map stillOpen same
      exact (Keypad.scripted.inj same).1.symm
    · simp only [planned, held]
      cases isOpen with
      | false => simp
      | true =>
        cases h.script with
        | nil => simp
        | cons events rest =>
          cases events.contains .quit <;> simp [List.findIdx_cons]

variable [Display δ]

theorem polled_of_act {h g : Host δ} {a : Act} (standard : h.Standard) (acted : h.act a = .done g) :
    g.Standard ∧ g.planned = h.planned - [a].count .poll ∧ h.Polled g ([a].count .poll) := by
  by_cases polls : a = .poll
  · subst polls
    obtain ⟨next, polled, kept⟩ := poll_standard standard
    obtain rfl : next = g := congrArg Outcome.state (polled.symm.trans acted)
    exact kept
  · obtain ⟨machine, rfl⟩ := act_eq_done polls acted
    have none : [a].count .poll = 0 := List.count_eq_zero.2 (by simpa using Ne.symm polls)
    rw [none]
    exact ⟨standard, rfl, .zero rfl rfl⟩

theorem polled_of_reaches {h g : Host δ} {acts : List Act} (standard : h.Standard)
    (reached : h.Reaches acts g) : g.Standard ∧ g.planned = h.planned - acts.count .poll ∧
      h.Polled g (acts.count .poll) := by
  induction acts generalizing h with
  | nil =>
    obtain rfl := congrArg Outcome.state reached
    exact ⟨standard, rfl, .zero rfl rfl⟩
  | cons a rest ih =>
    obtain ⟨next, acted, further⟩ := Outcome.andThen_eq_done reached
    obtain ⟨kept, less, first⟩ := polled_of_act standard acted
    obtain ⟨kept', less', later⟩ := ih kept further
    have both : (a :: rest).count .poll = [a].count .poll + rest.count .poll := by
      rw [← List.count_append]
      rfl
    rw [both]
    exact ⟨kept', by rw [less', less, Nat.sub_sub], first.trans later⟩

theorem counts_of_reaches {h g : Host δ} {acts : List Act} {polls cycles ticks presents paces : Nat}
    (standard : h.Standard) (reached : h.Reaches acts g)
    (tally : Tally acts polls cycles ticks presents paces) :
    g.frames = h.frames + presents ∧ g.instructions = h.instructions + cycles ∧ h.Polled g polls ∧
      g.planned = h.planned - polls := by
  obtain ⟨_, instructions, frames⟩ := took_of_reaches reached
  obtain ⟨_, left, polled⟩ := polled_of_reaches standard reached
  rw [tally.presents] at frames
  rw [tally.cycles] at instructions
  rw [tally.polls] at left polled
  exact ⟨frames, instructions, polled, left⟩

inductive Loops : Host δ → Outcome (Host δ) → Prop
  | stops {h : Host δ} (off : h.running = false) : Loops h (.done h)
  | fails {h g : Host δ} {f : Fault} (on : h.running = true) (failed : h.frame = .failed f g) :
      Loops h (.failed f g)
  | goesOn {h g : Host δ} {o : Outcome (Host δ)} (on : h.running = true) (framed : h.frame = .done g)
      (further : Loops g.rest o) : Loops h o

theorem framesWith_of_loops {α : Type} (visit : α → Host δ → α) {h : Host δ} {o : Outcome (Host δ)}
    (loops : h.Loops o) {fuel : Nat} (enough : h.budget ≤ fuel) (a : α) :
    (framesWith visit fuel a h).2 = o := by
  induction loops generalizing fuel a with
  | stops off =>
    unfold framesWith
    split
    · rfl
    · rw [off]
      rfl
  | fails on failed =>
    -- The frame takes something off the budget, so some fuel is left for it.
    have less := budget_frame on
    obtain _ | fuel := fuel
    · omega
    · rw [framesWith, if_pos on, failed]
      rfl
  | goesOn on framed further ih =>
    have less := budget_frame on
    obtain _ | fuel := fuel
    · omega
    · rw [framed] at less
      rw [framesWith, if_pos on, framed]
      exact ih (by rw [budget_rest]; exact Nat.le_of_lt_succ (Nat.lt_of_lt_of_le less enough)) _

/-- The bound on the frames of a run is never what ends it. -/
theorem run_of_loops {h : Host δ} {o : Outcome (Host δ)} (loops : h.Loops o) :
    h.run = o.andThen fun g => .done g.report := by
  unfold run runWith
  dsimp only
  rw [framesWith_of_loops _ loops (Nat.le_refl _)]

theorem loops_schedule (n : Nat) {h : Host δ} (standard : h.Standard) (allowed : h.planned = n) :
    h.Loops (actAll (schedule n h.instructionsPerFrame) h) := by
  induction n generalizing h with
  | zero =>
    have off : ¬ h.running = true := by
      rw [running_iff_planned]
      omega
    exact .stops (Bool.eq_false_iff.2 off)
  | succ n ih =>
    have on : h.running = true := by
      rw [running_iff_planned]
      omega
    rw [schedule_succ, actAll_append, actAll_frameActs]
    cases framed : h.frame with
    | mk g fault =>
      cases fault with
      | some f => exact .fails on framed
      | none =>
        have reached : h.Reaches (frameActs h.instructionsPerFrame) g.rest := by
          rw [Reaches, actAll_frameActs, framed]
          rfl
        obtain ⟨kept, less, _⟩ := polled_of_reaches standard reached
        have once : (frameActs h.instructionsPerFrame).count .poll = 1 := by
          simp [frameActs, List.count_replicate]
        have share := (took_of_reaches reached).share
        have later := ih kept (by omega)
        rw [share] at later
        exact .goesOn on framed later

theorem cycle_of_fault {lit : δ → Cell → Bool} (shows : ShowsPicture δ lit) {h : Host δ} {f : Fault}
    (failed : h.machine.cycle.fault = some f) : h.cycle = .failed f h := by
  obtain ⟨_, ⟨_, kept⟩ | ⟨cell, _, _, _, rfl, _⟩⟩ := Machine.cycle_failed failed
  · unfold cycle
    cases cycled : h.machine.cycle with
    | mk m fault =>
      rw [cycled] at failed kept
      obtain rfl : m = h.machine := kept
      obtain rfl : fault = some f := failed
      rfl
  · exact absurd failed (Machine.perform_ne_outside shows h.machine .cycle cell)

theorem failing_act {h : Host δ} {acts : List Act} (standard : h.Standard) {a : Act} {f : Fault}
    (first : firstFault acts h = some (a, f)) : a = .cycle ∨ a = .present := by
  induction acts generalizing h with
  | nil => simp [firstFault] at first
  | cons b rest ih =>
    unfold firstFault at first
    split at first
    · rename_i next acted
      exact ih (polled_of_act standard acted).1 first
    · rename_i next e acted
      obtain ⟨rfl, rfl⟩ := Prod.mk.inj (Option.some.inj first)
      cases b with
      | cycle => exact .inl rfl
      | present => exact .inr rfl
      | tick | pace => simp [act, Outcome.done] at acted
      | poll =>
        obtain ⟨g, polled, _⟩ := poll_standard standard
        simp [act, polled, Outcome.done] at acted

theorem firstFault_eq_none {h : Host δ} {acts : List Act} (standard : h.Standard)
    (cycles : ∀ f, firstFault acts h ≠ some (.cycle, f))
    (presents : ∀ f, firstFault acts h ≠ some (.present, f)) : firstFault acts h = none := by
  cases first : firstFault acts h with
  | none => rfl
  | some p =>
    obtain ⟨a, f⟩ := p
    obtain rfl | rfl := failing_act standard first
    · exact absurd first (cycles f)
    · exact absurd first (presents f)

theorem run_cases {lit : δ → Cell → Bool} (shows : ShowsPicture δ lit)
    (shown : ∀ d : δ, (Display.present d).fault = none) {h : Host δ} (standard : h.Standard) :
    let acts := schedule h.planned h.instructionsPerFrame
    (∃ g, h.Reaches acts g ∧ h.run = .done g.report) ∨
      ∃ earlier later g f, acts = earlier ++ .cycle :: later ∧ h.Reaches earlier g ∧
        g.machine.cycle.fault = some f ∧ h.run = .failed f g := by
  intro acts
  have run := run_of_loops (loops_schedule h.planned standard rfl)
  cases first : firstFault acts h with
  | none =>
    obtain ⟨g, reached⟩ := reaches_of_firstFault first
    refine .inl ⟨g, reached, ?_⟩
    rw [run, reached, Outcome.andThen_done]
  | some p =>
    obtain ⟨a, f⟩ := p
    obtain ⟨earlier, later, g, k, split, reached, failed⟩ := exists_of_firstFault first
    have cycles : a = .cycle := by
      obtain rfl | rfl := failing_act standard first
      · rfl
      · have fine := fault_present g
        simp [failed, Outcome.failed, shown] at fine
    subst cycles
    have fault : g.machine.cycle.fault = some f := by
      rw [← fault_cycle, failed]
      rfl
    have refused : g.act .cycle = .failed f g := cycle_of_fault shows fault
    refine .inr ⟨earlier, later, g, f, split, reached, fault, ?_⟩
    have stopped : actAll acts h = .failed f g :=
      (congrArg (actAll · h) split).trans (actAll_of_failed reached refused later)
    rw [run, stopped, Outcome.andThen_failed]

end Host

/-- The number of frames that a keypad allows: of an unattended one its polls, and of a window with
the standard bindings the polls up to the first that closes it. -/
inductive Keypad.Allows : Keypad → List (List KeyEvent) → Nat → Prop
  | unattended (polls : Int) (script : List (List KeyEvent)) :
      Allows (.unattended polls) script polls.toNat
  | scripted (script : List (List KeyEvent)) :
      Allows (.scripted .standard true) script
        (script.findIdx (fun events => events.contains .quit) + 1)

namespace Host

variable {δ : Type} [Display δ]

omit [Display δ] in
theorem standard_of_allows {keypad : Keypad} {script : List (List KeyEvent)} {n : Nat}
    (allows : keypad.Allows script n) (machine : Machine δ) (speed : Int) (pace : δ → δ) :
    (create machine keypad script speed pace).Standard ∧
      (create machine keypad script speed pace).planned = n := by
  cases allows with
  | unattended polls =>
    refine ⟨?_, rfl⟩
    rintro map isOpen ⟨⟩
  | scripted =>
    refine ⟨?_, rfl⟩
    rintro map isOpen ⟨⟩
    rfl

/-- A run ends. If no cycle and no presentation fails, it takes as many frames as the keypad allows,
each with one poll, the frame's share of cycles, a tick, a presentation if something was drawn, and a
pause. If a cycle fails, the run ends there, and of that frame it has counted the earlier cycles. -/
theorem run_accounts {lit : δ → Cell → Bool} (shows : ShowsPicture δ lit) (machine : Machine δ)
    {keypad : Keypad} {script : List (List KeyEvent)} {n : Nat} (allows : keypad.Allows script n)
    (speed : Int) (pace : δ → δ) :
    let h := create machine keypad script speed pace
    let acts := schedule n (share speed)
    (∃ o, h.Loops o ∧ h.run = o.andThen fun g => .done g.report) ∧
    ((∀ f, firstFault acts h ≠ some (.cycle, f)) → (∀ f, firstFault acts h ≠ some (.present, f)) →
      ∃ g, h.Reaches acts g ∧ h.run = .done g.report ∧ g.running = false ∧ g.frames = n ∧
        g.instructions = n * share speed ∧ h.Polled g n ∧ Tally acts n (n * share speed) n n n) ∧
    ∀ m j g f, m < n → j < share speed →
      let begun := schedule m (share speed) ++ .poll :: List.replicate j .cycle
      h.Reaches begun g → g.machine.cycle.fault = some f →
        h.run = .failed f g ∧ g.frames = m ∧ g.instructions = m * share speed + j ∧
          h.Polled g (m + 1) ∧ Tally begun (m + 1) (m * share speed + j) m m m := by
  intro h acts
  obtain ⟨standard, allowed⟩ := standard_of_allows allows machine speed pace
  have loops : h.Loops (actAll acts h) := loops_schedule n standard allowed
  have run := run_of_loops loops
  refine ⟨⟨_, loops, run⟩, ?_, ?_⟩
  · intro cycles presents
    obtain ⟨g, reached⟩ := reaches_of_firstFault (firstFault_eq_none standard cycles presents)
    have tally := tally_schedule n (share speed)
    obtain ⟨frames, instructions, polled, left⟩ := counts_of_reaches standard reached tally
    have off : ¬ g.running = true := by
      rw [running_iff_planned]
      omega
    refine ⟨g, reached, ?_, Bool.eq_false_iff.2 off, frames.trans (Nat.zero_add _),
      instructions.trans (Nat.zero_add _), polled, tally⟩
    rw [run, reached, Outcome.andThen_done]
  · intro m j g f frame cycle begun reached failed
    have tally := tally_begun m j (share speed)
    obtain ⟨frames, instructions, polled, _⟩ := counts_of_reaches standard reached tally
    refine ⟨?_, frames.trans (Nat.zero_add _), instructions.trans (Nat.zero_add _), polled, tally⟩
    obtain ⟨later, split⟩ := exists_schedule_eq frame cycle
    have refused : g.act .cycle = .failed f g := cycle_of_fault shows failed
    have stopped : actAll acts h = .failed f g :=
      (congrArg (actAll · h) split).trans (actAll_of_failed reached refused later)
    rw [run, stopped, Outcome.andThen_failed]

theorem run_accounts_text :
    let start : Machine (TextScreen 64 32) := .create .modern (fun _ => 0) (.create 64 32 false)
    let circling := (start.load [0x12, 0x00]).state
    let returning := (start.load [0x60, 0x05, 0x61, 0x06, 0x62, 0x07, 0x00, 0xEE]).state
    let script : List (List KeyEvent) := [[.down 113, .other], [.up 113, .quit], [.down 49]]
    let window := create circling (.scripted .standard true) script 120 id
    let headless := create returning (.unattended 5) [] 120 id
    let begun : List Act := schedule 1 2 ++ .poll :: List.replicate 1 .cycle
    (∀ f, firstFault (schedule 2 2) window ≠ some (.cycle, f)) ∧
      (∀ f, firstFault (schedule 2 2) window ≠ some (.present, f)) ∧
      (∃ g, window.Reaches (schedule 2 2) g ∧ window.run = .done g.report ∧ g.frames = 2) ∧
      ∃ g f, headless.Reaches begun g ∧ g.machine.cycle.fault = some f ∧
        headless.run = .failed f g ∧ g.frames = 1 ∧ g.instructions = 3 := by
  intro start circling returning script window headless begun
  have shows : ShowsPicture (TextScreen 64 32) TextScreen.litAt :=
    TextScreen.showsPicture (by decide) (by decide)
  have fine : firstFault (schedule 2 2) window = none := by decide +kernel
  have cycles : ∀ f, firstFault (schedule 2 2) window ≠ some (.cycle, f) := by simp [fine]
  have presents : ∀ f, firstFault (schedule 2 2) window ≠ some (.present, f) := by simp [fine]
  have met : (actAll begun headless).fault = none ∧
      (actAll begun headless).state.machine.cycle.fault = some (.stackUnderflow 0x206) := by
    decide +kernel
  obtain ⟨g, reached, run, _, frames, _⟩ := (run_accounts shows circling
    (Keypad.Allows.scripted script) 120 id).2.1 cycles presents
  refine ⟨cycles, presents, ⟨g, reached, run, frames⟩, ?_⟩
  have begins : headless.Reaches begun (actAll begun headless).state := by
    rw [Reaches, Outcome.done, ← met.1]
  obtain ⟨stopped, counted, instructions, _⟩ := (run_accounts shows returning
    (Keypad.Allows.unattended 5 []) 120 id).2.2 1 1 _ _ (by decide) (by decide) begins met.2
  exact ⟨_, _, begins, met.2, stopped, counted, instructions⟩

theorem run_stopped_by_window :
    let toolkit : Toolkit := .upTo 0x8000000000000000
    let dark : WindowScreen toolkit 64 32 (some 0x200000000000000) := .fresh #[]
    let machine := ((Machine.create .modern (fun _ => 0) dark).load [0x00, 0xE0]).state
    let h := create machine (.unattended 1) [] 60 id
    (∀ f, firstFault (schedule 1 (share 60)) h ≠ some (.cycle, f)) ∧
      h.run.fault = some .outsideWindow ∧ h.run.state.frames ≠ 1 := by
  intro toolkit dark machine h
  have first : firstFault (schedule 1 (share 60)) h = some (.present, .outsideWindow) := by
    decide +kernel
  have stopped : h.run.fault = some .outsideWindow ∧ h.run.state.frames = 0 := by decide +kernel
  refine ⟨fun f => ?_, stopped.1, ?_⟩
  · simp [first]
  · omega

end Host

end ChipEight
