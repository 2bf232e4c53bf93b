import ChipEight.Proofs.Cycle
import ChipEight.Proofs.Simulation
import ChipEight.Display.Text
import ChipEight.Display.Window

set_option autoImplicit false

/-!
# A reset forgets the past

What outlives a reset is counted, not read: the words that were skipped, the random bytes that were
drawn, the log, and on the display whatever is no part of the picture. A machine that was reset
therefore goes through the states of a new machine, with its past put behind each of them. The new
machine draws the random bytes that the old one had still to come.
-/
namespace ChipEight

def Core.behind (past c : Core) : Core :=
  { c with
    skipped := past.skipped + c.skipped
    randomDraws := past.randomDraws + c.randomDraws }

namespace Machine

variable {δ : Type}

def upcoming (m : Machine δ) : Nat → UInt8 := fun j => m.random (m.core.randomDraws + j)

/-- A machine with the past of another one behind it. What the display has of that past is put on by
`retain`. -/
def behind (past : Machine δ) (retain : δ → δ) (m : Machine δ) : Machine δ where
  settings := m.settings
  random := past.random
  core := past.core.behind m.core
  display := retain m.display
  log := past.log ++ m.log

end Machine

namespace Core

theorem aside_behind (past : Core) : Aside past.behind := ⟨fun _ => rfl, fun _ => rfl, fun _ _ _ => rfl⟩

theorem execute_behind (past c : Core) (s : Settings) (random : Nat → UInt8) (hit : Bool)
    (i : Instruction) :
    (past.behind c).execute s random hit i =
      (c.execute s (fun j => random (past.randomDraws + j)) hit i).map past.behind := by
  cases i with
  | call target => exact (aside_behind past).call c target
  | ret => exact (aside_behind past).ret c
  | _ => rfl

theorem endWait_behind (past c : Core) (key : Fin 16) :
    (past.behind c).endWait key = past.behind (c.endWait key) := by
  cases waits : c.wait with
  | none => simp only [endWait, behind, waits]
  | some x => simp only [endWait, behind, waits]

theorem setKey_behind (past c : Core) (key : Fin 16) (pressed : Bool) :
    (past.behind c).setKey key pressed = past.behind (c.setKey key pressed) := by
  cases pressed with
  | false => rfl
  | true => exact endWait_behind past { c with keys := c.keys.write key true } key

end Core

namespace Machine

variable {δ : Type} {retain : δ → δ} (past m : Machine δ)

theorem note_behind (e : LogEntry) :
    (past.behind retain m).note e = past.behind retain (m.note e) := by
  simp only [behind, note, Array.push_append]

theorem skipWord_behind (w : Word) :
    (past.behind retain m).skipWord w = past.behind retain (m.skipWord w) := by
  have same : (past.behind retain m).settings = m.settings := rfl
  simp only [skipWord, same]
  split
  · exact note_behind past { m with core := m.core.skipWord } (.wordSkipped w m.core.pc)
  · rfl

theorem load_behind (program : List Int) :
    (past.behind retain m).load program = (m.load program).map (past.behind retain) := by
  unfold load
  by_cases large : programCapacity < program.length
  · rw [if_pos large, if_pos large]
    rfl
  · rw [if_neg large, if_neg large]
    cases (program.dropWhile isByte).head? with
    | some value => rfl
    | none =>
      let bytes := (program.takeWhile isByte).map fun value => UInt8.ofNat value.toNat
      let stored := { m with
        core := { m.core with memory := m.core.memory.store programStart bytes } }
      exact congrArg Outcome.done (note_behind past stored (.programLoaded program.length))

theorem setKey_behind (key : Int) (pressed : Bool) :
    (past.behind retain m).setKey key pressed =
      (m.setKey key pressed).map (past.behind retain) := by
  unfold setKey
  by_cases known : 0 ≤ key ∧ key < 16
  · rw [dif_pos known, dif_pos known]
    simp only [behind, Core.setKey_behind, Outcome.map, Outcome.done]
  · rw [dif_neg known, dif_neg known]
    rfl

variable [Display δ]

abbrev Retains (retain : δ → δ) : Prop := Simulates fun d e => d = retain e

theorem reset_behind (retains : Retains retain) :
    (past.behind retain m).reset = past.behind retain m.reset := by
  unfold reset
  rw [← note_behind]
  simp only [behind, retains.clear _ m.display rfl]
  rfl

variable {past m}

theorem execute_behind (retains : Retains retain) (follows : m.random = past.upcoming)
    (i : Instruction) :
    (past.behind retain m).execute i = (m.execute i).map (past.behind retain) := by
  obtain ⟨display, hit, missing⟩ := retains.paint m.core (d := retain m.display) rfl i
  have painted : (past.core.behind m.core).paint (retain m.display) i =
      m.core.paint (retain m.display) i := rfl
  -- The byte drawn next is the one that the past had still to come, whatever its number is here.
  have executed := Core.execute_behind past.core m.core m.settings past.random
    (m.core.paint m.display i).hit i
  change _ = (m.core.execute m.settings past.upcoming _ i).map _ at executed
  rw [← follows] at executed
  simp only [execute, behind, painted, display, hit, missing]
  cases (m.core.paint m.display i).missing with
  | some cell => rfl
  | none =>
    rw [executed]
    cases m.core.execute m.settings m.random (m.core.paint m.display i).hit i with
    | error f => rfl
    | ok c => rfl

theorem cycle_behind (retains : Retains retain) (follows : m.random = past.upcoming) :
    (past.behind retain m).cycle = m.cycle.map (past.behind retain) := by
  have waits : (past.behind retain m).core.wait = m.core.wait := rfl
  have fetched : (past.behind retain m).core.fetch = m.core.fetch := rfl
  unfold cycle
  rw [waits, fetched]
  cases m.core.wait with
  | some x => rfl
  | none =>
    cases Instruction.decode m.core.fetch with
    | none => exact congrArg Outcome.done (skipWord_behind past m m.core.fetch)
    | some i => exact execute_behind retains follows i

theorem perform_behind (retains : Retains retain) (follows : m.random = past.upcoming)
    (c : Command) :
    (past.behind retain m).perform c = (m.perform c).map (past.behind retain) := by
  cases c with
  | cycle => exact cycle_behind retains follows
  | tick => rfl
  | key key pressed => exact setKey_behind past m key pressed
  | releaseKeys => rfl
  | load program => exact load_behind past m program
  | reset => exact congrArg Outcome.done (reset_behind past m retains)

theorem performAll_behind (retains : Retains retain) (cs : List Command)
    (follows : m.random = past.upcoming) :
    (past.behind retain m).performAll cs =
      (m.performAll cs).map (Outcome.map (past.behind retain)) := by
  induction cs generalizing m with
  | nil => rfl
  | cons c rest ih =>
    have first := perform_behind retains follows c
    have still : (m.perform c).state.random = past.upcoming := (random_perform m c).trans follows
    rw [performAll, performAll, List.map_cons, first]
    exact congrArg (List.cons _) (ih still)

theorem reset_eq_behind (m : Machine δ) {d : δ}
    (dark : Display.clear m.display = retain (Display.clear d)) :
    m.reset = m.behind retain (create m.settings m.upcoming d) := by
  unfold create reset
  rw [← note_behind]
  simp only [behind, Array.append_empty, dark]
  rfl

/-- The machine that was reset does what a new one does on the display `d`. The states differ by the
past alone: by the counts of skipped words and drawn bytes, by the log, and by what the display
retains. A second reset changes nothing but the log. -/
def ForgetsPast (m : Machine δ) (retain : δ → δ) (d : δ) : Prop :=
  let fresh := create m.settings m.upcoming d
  m.reset = m.behind retain fresh ∧ m.reset.reset = m.reset.note .machineReset ∧
    ∀ cs : List Command,
      m.reset.performAll cs = (fresh.performAll cs).map (Outcome.map (m.behind retain))

theorem forgetsPast (m : Machine δ) {d : δ} (retains : Retains retain)
    (dark : Display.clear m.display = retain (Display.clear d))
    (twice : Display.clear (Display.clear m.display) = Display.clear m.display) :
    m.ForgetsPast retain d := by
  have start : m.reset = m.behind retain (create m.settings m.upcoming d) :=
    reset_eq_behind m dark
  refine ⟨start, ?_, ?_⟩
  · simp only [reset, note, twice]
    rfl
  · intro cs
    rw [start]
    exact performAll_behind retains cs rfl

end Machine

def TextScreen.retain {width height : Nat} (past s : TextScreen width height) :
    TextScreen width height :=
  { s with renders := past.renders + s.renders, output := past.output }

def WindowScreen.retain {toolkit : Toolkit} {width height : Int} {scale : Option Int}
    (past s : WindowScreen toolkit width height scale) : WindowScreen toolkit width height scale :=
  { s with renders := past.renders + s.renders, calls := past.calls }

theorem TextScreen.retains_retain {width height : Nat} (past : TextScreen width height) :
    Machine.Retains (retain past) where
  clear := by
    rintro _ s rfl
    rfl
  look := by
    rintro _ s c _ rfl
    change Option.Rel _ ((s.isLit c).map _) ((s.isLit c).map _)
    cases s.isLit c with
    | none => exact .none
    | some lit => exact .some ⟨rfl, rfl⟩
  flip := by
    rintro _ s c _ rfl
    change Option.Rel _ ((place width height c).map _) ((place width height c).map _)
    cases place width height c with
    | none => exact .none
    | some p => exact .some rfl

theorem WindowScreen.retains_retain {toolkit : Toolkit} {width height : Int} {scale : Option Int}
    (past : WindowScreen toolkit width height scale) : Machine.Retains (retain past) where
  clear := by
    rintro _ s rfl
    rfl
  look := by
    rintro _ s c _ rfl
    change Option.Rel _ ((s.isLit c).map _) ((s.isLit c).map _)
    cases s.isLit c with
    | none => exact .none
    | some lit => exact .some ⟨rfl, rfl⟩
  flip := by
    rintro _ s c _ rfl
    change Option.Rel _ ((place width height c).map _) ((place width height c).map _)
    cases place width height c with
    | none => exact .none
    | some k => exact .some rfl

namespace Machine

/-- Whatever a machine went through, on either screen. -/
theorem reset_forgets_past :
    (∀ {width height : Nat} (m : Machine (TextScreen width height)) (withOutput : Bool),
      m.ForgetsPast m.display.retain (TextScreen.create width height withOutput)) ∧
    ∀ {toolkit : Toolkit} {width height : Int} {scale : Option Int}
      (m : Machine (WindowScreen toolkit width height scale)) (calls : Array WindowCall), m.ForgetsPast m.display.retain (WindowScreen.fresh calls) := by
  constructor
  · intro width height m withOutput
    exact forgetsPast m m.display.retains_retain rfl rfl
  · intro toolkit width height scale m calls
    exact forgetsPast m m.display.retains_retain rfl rfl

end Machine

end ChipEight
