import ChipEight.Proofs.Basic
import ChipEight.Proofs.Boot
import ChipEight.Proofs.KeptDisplay
import ChipEight.Proofs.Repaint

set_option autoImplicit false

namespace ChipEight

namespace WindowCall

/-- The first call opens the window, and no call closes it. -/
def LeftOpen (calls : List WindowCall) : Prop :=
  ∃ later, calls = .start :: later ∧ .start ∉ later ∧ .quit ∉ later

/-- The first call opens the window, the last one closes it, and no other does either. -/
def Closed (calls : List WindowCall) : Prop :=
  ∃ between, calls = .start :: (between ++ [.quit]) ∧ .start ∉ between ∧ .quit ∉ between

def Inner (c : WindowCall) : Prop := c ≠ .start ∧ c ≠ .quit

theorem LeftOpen.append {calls : List WindowCall} (opened : LeftOpen calls)
    (more : List WindowCall) (inner : ∀ c ∈ more, Inner c) : LeftOpen (calls ++ more) := by
  obtain ⟨later, rfl, start, quit⟩ := opened
  refine ⟨later ++ more, rfl, ?_, ?_⟩
  · rw [List.mem_append]
    rintro (h | h)
    · exact start h
    · exact (inner _ h).1 rfl
  · rw [List.mem_append]
    rintro (h | h)
    · exact quit h
    · exact (inner _ h).2 rfl

theorem LeftOpen.closed {calls : List WindowCall} (opened : LeftOpen calls) :
    Closed (calls ++ [.quit]) := by
  obtain ⟨later, rfl, start, quit⟩ := opened
  exact ⟨later, rfl, start, quit⟩

theorem LeftOpen.not_closed {calls : List WindowCall} (opened : LeftOpen calls) : ¬ Closed calls := by
  obtain ⟨later, rfl, _, quit⟩ := opened
  rintro ⟨between, same, _⟩
  obtain rfl := (List.cons.inj same).2
  exact quit (by simp)

end WindowCall

namespace WindowScreen

variable {toolkit : Toolkit} {width height : Int} {scale : Option Int}

theorem inner_of_mem_paints {s : WindowScreen toolkit width height scale} {c : WindowCall}
    (h : c ∈ s.paints) : c.Inner := by
  obtain ⟨cell, _, area, _, rfl⟩ := exists_of_mem_paints h
  exact ⟨by simp, by simp⟩

theorem leftOpen_present {s : WindowScreen toolkit width height scale}
    (opened : WindowCall.LeftOpen s.calls.toList) :
    WindowCall.LeftOpen s.present.state.calls.toList := by
  have painted : WindowCall.LeftOpen (s.calls.toList ++ s.paints) :=
    opened.append _ fun _ h => inner_of_mem_paints h
  have updated : WindowCall.LeftOpen (s.calls.toList ++ s.paints ++ [.update (s.dueAreas.getD [])]) :=
    painted.append _ (by simp [WindowCall.Inner])
  unfold present
  dsimp only
  split
  · simpa [Outcome.done] using updated
  · simpa [Outcome.failed] using painted

end WindowScreen

namespace Session

theorem leftOpen_opening (o : Options) : WindowCall.LeftOpen (opening o) :=
  ⟨_, rfl, by simp, by simp⟩

theorem leftOpen_spares (s : Setting) (speed : Int) (m : Machine (Screen s)) :
    (windowHost s speed m).Spares fun screen => WindowCall.LeftOpen screen.calls.toList where
  keeps := by
    refine WindowScreen.keeps (fun _ opened => opened) ?_
    intro d c flipped _ flip opened
    obtain ⟨_, _, rfl⟩ := Option.map_eq_some_iff.1 flip
    exact opened
  present _ opened := WindowScreen.leftOpen_present opened
  pause screen opened := by
    have paused : WindowCall.LeftOpen (screen.calls.toList ++ [.pace framesPerSecond]) :=
      opened.append _ (by simp [WindowCall.Inner])
    simpa [windowHost, Host.create, WindowScreen.call] using paused

theorem leftOpen_boot (s : Setting) (rom : List UInt8) : WindowCall.LeftOpen
    (boot s (windowScreen s) rom).state.display.calls.toList := by
  obtain ⟨_, _, booted⟩ := state_boot s (windowScreen s) rom
  rw [booted]
  exact leftOpen_opening s.options

theorem calls_writeDump (s : Setting) (c : Core) (r : Report) : (writeDump s c r).calls = r.calls := by
  unfold writeDump
  split
  · rfl
  · split <;> rfl

theorem closed_windowRun (s : Setting) (speed : Int) (m : Machine (Screen s))
    (opened : WindowCall.LeftOpen m.display.calls.toList) :
    WindowCall.Closed (windowRun s speed m).calls := by
  have standard : (windowHost s speed m).Standard :=
    (Host.standard_of_allows (.scripted s.script) m speed _).1
  have still : WindowCall.LeftOpen (windowHost s speed m).run.state.machine.display.calls.toList :=
    Host.display_run standard (leftOpen_spares s speed m) opened
  unfold windowRun
  dsimp only
  split
  · unfold closeWindow refresh
    dsimp only
    split
    · rw [calls_writeDump]
      exact still.closed
    · rw [calls_writeDump]
      have refreshed := still.append [.flip] (by simp [WindowCall.Inner])
      exact refreshed.closed
  · rw [calls_writeDump]
    exact still.closed

theorem windowOpened_calls (s : Setting) (rom : List UInt8) :
    if rom.length ≤ programCapacity ∧ s.options.speed ≠ .withheld
    then WindowCall.Closed (windowOpened s rom).calls
    else WindowCall.LeftOpen (windowOpened s rom).calls := by
  have opened := leftOpen_boot s rom
  have fault := fault_boot s (windowScreen s) rom
  unfold windowOpened
  dsimp only
  by_cases fits : rom.length ≤ programCapacity
  · rw [if_neg (Nat.not_lt.2 fits)] at fault
    rw [fault]
    cases s.options.speed with
    | withheld =>
      rw [if_neg fun entered => entered.2 rfl]
      exact opened
    | value speed =>
      rw [if_pos ⟨fits, by simp⟩]
      exact closed_windowRun s speed _ opened
  · rw [if_pos (Nat.not_le.1 fits)] at fault
    rw [fault, if_neg fun entered => fits entered.1]
    exact opened

variable {take : String → Given String} {storage : Storage} {toolkit : Toolkit} {args : List String}
  {o : Options} {level : LogLevel} {rom : List UInt8}

theorem run_calls (random : Nat → UInt8) (script : List (List KeyEvent))
    (accepted : Options.read take args = .ok o) (logged : o.logLevel = .value level)
    (window : o.headless = none) (found : storage.readRom o.rom = .ok rom)
    (opened : toolkit.opens (windowSize o.scale) = true) :
    if rom.length ≤ programCapacity ∧ o.speed ≠ .withheld
    then WindowCall.Closed (run take storage toolkit random script args).calls
    else WindowCall.LeftOpen (run take storage toolkit random script args).calls := by
  have same : (run take storage toolkit random script args).calls =
      (windowOpened ⟨o, level, storage, toolkit, random, script⟩ rom).calls := by
    simp only [run, accepted, logged, filterLog, runWith, found, window, after, windowed, opened,
      if_true]
  rw [same]
  exact windowOpened_calls ⟨o, level, storage, toolkit, random, script⟩ rom

/-- A session whose window was opened closes it by its last call, once, exactly if the program fits and
a speed was given. Otherwise the window is left open. -/
theorem window_closed_iff (random : Nat → UInt8) (script : List (List KeyEvent))
    (accepted : Options.read take args = .ok o) (logged : o.logLevel = .value level)
    (window : o.headless = none) (found : storage.readRom o.rom = .ok rom)
    (opened : toolkit.opens (windowSize o.scale) = true) :
    let calls := (run take storage toolkit random script args).calls
    (WindowCall.Closed calls ↔ rom.length ≤ programCapacity ∧ o.speed ≠ .withheld) ∧
      (¬ WindowCall.Closed calls → WindowCall.LeftOpen calls) := by
  have ended := run_calls random script accepted logged window found opened
  split at ended
  · rename_i entered
    exact ⟨⟨fun _ => entered, fun _ => ended⟩, fun left => absurd ended left⟩
  · rename_i refused
    exact ⟨⟨fun closed => absurd closed ended.not_closed, fun entered => absurd entered refused⟩,
      fun _ => ended⟩

theorem window_closed_without_dump :
    let storage : Storage := ⟨fun _ => .file [0x00, 0xEE], fun _ => some .noSuchFolder⟩
    let toolkit : Toolkit := .upTo 0x80000000
    let args := ["a.ch8", "--dump", "no/dump"]
    let o : Options := { Options.standard with rom := "a.ch8", dump := .value "no/dump" }
    Options.read .value args = .ok o ∧ o.logLevel = .value .info ∧ o.headless = none ∧
      storage.readRom o.rom = .ok [0x00, 0xEE] ∧ toolkit.opens (windowSize o.scale) = true ∧
      WindowCall.Closed (run .value storage toolkit (fun _ => 0) [] args).calls := by
  intro storage toolkit args o
  have accepted : Options.read .value args = .ok o :=
    Except.eq_ok_of_toOption_eq_some (by decide +kernel)
  have found : storage.readRom o.rom = .ok [0x00, 0xEE] := rfl
  have opened : toolkit.opens (windowSize o.scale) = true := by decide
  have closed := window_closed_iff (fun _ => 0) [] accepted rfl rfl found opened
  exact ⟨accepted, rfl, rfl, found, opened,
    closed.1.2 ⟨by decide, by simp [o, Options.standard]⟩⟩

theorem not_closed_too_large :
    let rom := List.replicate 3585 0
    let storage : Storage := ⟨fun _ => .file rom, fun _ => none⟩
    let toolkit : Toolkit := .upTo 0x80000000
    let o : Options := { Options.standard with rom := "a.ch8" }
    Options.read .value ["a.ch8"] = .ok o ∧ o.logLevel = .value .info ∧ o.headless = none ∧
      storage.readRom o.rom = .ok rom ∧ toolkit.opens (windowSize o.scale) = true ∧
      ¬ WindowCall.Closed (run .value storage toolkit (fun _ => 0) [] ["a.ch8"]).calls := by
  intro rom storage toolkit o
  have accepted : Options.read .value ["a.ch8"] = .ok o :=
    Except.eq_ok_of_toOption_eq_some (by decide +kernel)
  have found : storage.readRom o.rom = .ok rom := rfl
  have opened : toolkit.opens (windowSize o.scale) = true := by decide
  have large : ¬ rom.length ≤ programCapacity := by
    rw [List.length_replicate]
    decide
  -- What the program holds does not matter any more, and is too long to be computed with.
  clear_value rom
  have left := run_calls (fun _ => 0) [] accepted rfl rfl found opened
  rw [if_neg fun entered => large entered.1] at left
  exact ⟨accepted, rfl, rfl, found, opened, left.not_closed⟩

end Session

end ChipEight
