import ChipEight.Host.Termination
import ChipEight.Proofs.StackFaults

set_option autoImplicit false

/-!
# What a host does, act by act

A frame is a poll, the frame's share of cycles, a tick, a presentation and a pause. Any of these acts
may fail, and then nothing follows. The frames of a host are told here as one list of acts, with what
each act counts, so that what a run has done when it ends, or when it fails, is a prefix of that list.
-/
namespace ChipEight

namespace Outcome

variable {σ : Type}

theorem andThen_assoc (o : Outcome σ) (next last : σ → Outcome σ) :
    (o.andThen next).andThen last = o.andThen fun s => (next s).andThen last := by
  obtain ⟨s, _ | f⟩ := o <;> rfl

theorem andThen_eq_done {o : Outcome σ} {next : σ → Outcome σ} {t : σ}
    (h : o.andThen next = .done t) : ∃ s, o = .done s ∧ next s = .done t := by
  obtain ⟨s, _ | f⟩ := o
  · exact ⟨s, rfl, h⟩
  · simp [andThen, failed, done] at h

theorem map_eq_done {τ : Type} {o : Outcome σ} {g : σ → τ} {t : τ} (h : o.map g = .done t) :
    ∃ s, o = .done s ∧ t = g s := by
  obtain ⟨s, fault⟩ := o
  obtain ⟨rfl, rfl⟩ := Outcome.mk.inj h
  exact ⟨s, rfl, rfl⟩

theorem fault_andThen_done (o : Outcome σ) (g : σ → σ) :
    (o.andThen fun s => .done (g s)).fault = o.fault := by
  obtain ⟨s, _ | f⟩ := o <;> rfl

end Outcome

namespace Host

inductive Act
  | poll
  | cycle
  | tick
  | present
  | pace
  deriving DecidableEq

variable {δ : Type} [Display δ]

def cycle (h : Host δ) : Outcome (Host δ) :=
  (h.machine.cycle.map fun m => { h with machine := m }).andThen fun h =>
    .done { h with instructions := h.instructions + 1 }

def act (h : Host δ) : Act → Outcome (Host δ)
  | .poll => h.poll
  | .cycle => h.cycle
  | .tick => .done h.tick
  | .present => h.present.andThen fun h => .done { h with frames := h.frames + 1 }
  | .pace => .done h.rest

theorem fault_cycle (h : Host δ) : (h.act .cycle).fault = h.machine.cycle.fault :=
  Outcome.fault_andThen_done _ _

theorem fault_present (h : Host δ) : (h.act .present).fault =
    if h.machine.core.drawFlag then (Display.present h.machine.display).fault else none := by
  rw [act, Outcome.fault_andThen_done, present]
  split
  · exact Outcome.fault_andThen_done _ _
  · rfl

def actAll : List Act → Host δ → Outcome (Host δ)
  | [], h => .done h
  | a :: rest, h => (h.act a).andThen (actAll rest)

def Reaches (h : Host δ) (acts : List Act) (g : Host δ) : Prop := actAll acts h = .done g

def frameActs (share : Nat) : List Act :=
  .poll :: (List.replicate share .cycle ++ [.tick, .present, .pace])

def schedule (frames share : Nat) : List Act := (List.replicate frames (frameActs share)).flatten

theorem schedule_succ (n share : Nat) : schedule (n + 1) share = frameActs share ++ schedule n share := by
  rw [schedule, List.replicate_succ, List.flatten_cons, schedule]

theorem schedule_add (m n share : Nat) :
    schedule (m + n) share = schedule m share ++ schedule n share := by
  rw [schedule, List.replicate_add, List.flatten_append, schedule, schedule]

theorem count_schedule (n share : Nat) (a : Act) :
    (schedule n share).count a = n * if a = .cycle then share else 1 := by
  have once : (frameActs share).count a = if a = .cycle then share else 1 := by
    cases a <;> simp [frameActs, List.count_replicate]
  induction n with
  | zero => simp [schedule]
  | succ n ih => rw [schedule_succ, List.count_append, ih, once, Nat.succ_mul, Nat.add_comm]

structure Tally (acts : List Act) (polls cycles ticks presents paces : Nat) : Prop where
  polls : acts.count .poll = polls
  cycles : acts.count .cycle = cycles
  ticks : acts.count .tick = ticks
  presents : acts.count .present = presents
  paces : acts.count .pace = paces

theorem tally_schedule (n share : Nat) : Tally (schedule n share) n (n * share) n n n := by
  constructor <;> simp [count_schedule]

theorem tally_begun (m j share : Nat) :
    Tally (schedule m share ++ .poll :: List.replicate j .cycle) (m + 1) (m * share + j) m m m := by
  constructor <;> simp [count_schedule, List.count_replicate]

theorem exists_schedule_eq {m n j share : Nat} (frame : m < n) (cycle : j < share) : ∃ later,
    schedule n share = (schedule m share ++ .poll :: List.replicate j .cycle) ++ .cycle :: later := by
  obtain ⟨rest, rfl⟩ := Nat.exists_eq_add_of_lt frame
  obtain ⟨more, rfl⟩ := Nat.exists_eq_add_of_lt cycle
  refine ⟨List.replicate more .cycle ++ [.tick, .present, .pace] ++ schedule rest (j + more + 1), ?_⟩
  have cycles : List.replicate (j + more + 1) Act.cycle =
      List.replicate j .cycle ++ .cycle :: List.replicate more .cycle := by
    rw [Nat.add_assoc, List.replicate_add, List.replicate_succ]
  rw [Nat.add_assoc, Nat.add_comm rest 1, schedule_add, schedule_add]
  simp only [schedule, List.replicate_one, List.flatten_cons, List.flatten_nil, frameActs, cycles,
    List.append_assoc, List.cons_append, List.nil_append]

theorem actAll_append (earlier later : List Act) (h : Host δ) :
    actAll (earlier ++ later) h = (actAll earlier h).andThen (actAll later) := by
  induction earlier generalizing h with
  | nil => rfl
  | cons a rest ih =>
    have tails : actAll (rest ++ later) = fun g => (actAll rest g).andThen (actAll later) := funext ih
    rw [List.cons_append, actAll, tails, actAll, Outcome.andThen_assoc]

theorem actAll_replicate_cycle (n completed : Nat) (h : Host δ) :
    actAll (List.replicate n .cycle) { h with instructions := h.instructions + completed } =
      (Machine.cyclesFrom completed n h.machine).outcome.map fun m =>
        { h with
          machine := m
          instructions := h.instructions +
            (Machine.cyclesFrom completed n h.machine).completed } := by
  induction n generalizing completed h with
  | zero => rfl
  | succ n ih =>
    rw [List.replicate_succ, actAll, act, cycle, Machine.cyclesFrom]
    cases cycled : h.machine.cycle with
    | mk m fault =>
      cases fault with
      | none => exact ih (completed + 1) { h with machine := m }
      | some f => rfl

theorem actAll_batch (h : Host δ) :
    actAll (List.replicate h.instructionsPerFrame .cycle) h = h.batch :=
  actAll_replicate_cycle h.instructionsPerFrame 0 h

theorem actAll_closeFrame (h : Host δ) :
    actAll [.tick, .present, .pace] h = h.closeFrame.andThen fun g => .done g.rest := by
  unfold closeFrame
  rw [Outcome.andThen_assoc]
  simp only [actAll, act, Outcome.andThen_done, Outcome.andThen_assoc]

omit [Display δ] in
theorem state_setKey (h : Host δ) (key : Int) (pressed : Bool) :
    ∃ core, core.drawFlag = h.machine.core.drawFlag ∧
      (h.setKey key pressed).state = { h with machine := { h.machine with core := core } } := by
  unfold setKey Machine.setKey
  split
  · refine ⟨_, ?_, rfl⟩
    unfold Core.setKey Core.endWait
    dsimp only
    split
    · split <;> rfl
    · rfl
  · exact ⟨_, rfl, rfl⟩

omit [Display δ] in
theorem state_handle (h : Host δ) (e : KeyEvent) :
    ∃ core keypad, core.drawFlag = h.machine.core.drawFlag ∧
      (h.handle e).state = { h with machine := { h.machine with core := core }, keypad := keypad } := by
  unfold handle
  split
  · exact ⟨_, _, rfl, rfl⟩
  · split
    · exact ⟨_, _, rfl, rfl⟩
    · rename_i key _
      obtain ⟨core, flag, left⟩ := state_setKey h key true
      exact ⟨core, h.keypad, flag, left⟩
  · split
    · exact ⟨_, _, rfl, rfl⟩
    · rename_i key _
      obtain ⟨core, flag, left⟩ := state_setKey h key false
      exact ⟨core, h.keypad, flag, left⟩
  · exact ⟨_, _, rfl, rfl⟩
  · exact ⟨_, _, rfl, rfl⟩

omit [Display δ] in
theorem state_handleAll (events : List KeyEvent) (h : Host δ) :
    ∃ core keypad, core.drawFlag = h.machine.core.drawFlag ∧ (handleAll events h).state =
      { h with machine := { h.machine with core := core }, keypad := keypad } := by
  induction events generalizing h with
  | nil => exact ⟨_, _, rfl, rfl⟩
  | cons e rest ih =>
    obtain ⟨core, keypad, flag, first⟩ := state_handle h e
    unfold handleAll Outcome.andThen
    split
    · rw [first]
      obtain ⟨core', keypad', flag', later⟩ :=
        ih { h with machine := { h.machine with core := core }, keypad := keypad }
      exact ⟨core', keypad', flag'.trans flag, later⟩
    · exact ⟨core, keypad, flag, first⟩

omit [Display δ] in
theorem state_poll (h : Host δ) : ∃ core keypad script, core.drawFlag = h.machine.core.drawFlag ∧
    h.poll.state = { h with
      machine := { h.machine with core := core }
      keypad := keypad
      script := script } := by
  unfold poll
  split
  · exact ⟨_, _, _, rfl, rfl⟩
  · split
    · obtain ⟨core, keypad, flag, closed⟩ := state_handleAll [.quit] h
      exact ⟨core, keypad, h.script, flag, closed⟩
    · rename_i rest scripted
      obtain ⟨core, keypad, flag, polled⟩ := state_handleAll _ { h with script := rest }
      exact ⟨core, keypad, rest, flag, polled⟩

/-- A frame and the pause after it are the acts of a frame. -/
theorem actAll_frameActs (h : Host δ) :
    actAll (frameActs h.instructionsPerFrame) h = h.frame.andThen fun g => .done g.rest := by
  -- The poll keeps the share, so the batch after it has the cycles that were planned before.
  obtain ⟨_, _, _, _, polled⟩ := h.state_poll
  have share : h.poll.state.instructionsPerFrame = h.instructionsPerFrame := by rw [polled]
  rw [frameActs, actAll, act, frame, Outcome.andThen_assoc, Outcome.andThen_assoc]
  unfold Outcome.andThen
  split
  · rw [← share, actAll_append, actAll_batch, funext actAll_closeFrame]
    rfl
  · rfl

theorem state_present (h : Host δ) : ∃ machine, h.present.state = { h with machine := machine } := by
  unfold present showPicture Outcome.andThen Outcome.map
  split
  · dsimp only
    split <;> exact ⟨_, rfl⟩
  · exact ⟨_, rfl⟩

theorem act_eq_done {h g : Host δ} {a : Act} (other : a ≠ .poll) (acted : h.act a = .done g) :
    ∃ machine, g = { h with
      machine := machine
      instructions := h.instructions + [a].count .cycle
      frames := h.frames + [a].count .present } := by
  cases a with
  | poll => exact absurd rfl other
  | tick | pace =>
    obtain rfl := congrArg Outcome.state acted
    exact ⟨_, rfl⟩
  | cycle =>
    rw [act, cycle] at acted
    obtain ⟨_, cycled, counted⟩ := Outcome.andThen_eq_done acted
    obtain rfl := congrArg Outcome.state cycled
    obtain rfl := congrArg Outcome.state counted
    exact ⟨_, rfl⟩
  | present =>
    rw [act] at acted
    obtain ⟨_, presented, counted⟩ := Outcome.andThen_eq_done acted
    obtain ⟨machine, shown⟩ := state_present h
    rw [presented, Outcome.done] at shown
    obtain rfl := shown
    obtain rfl := congrArg Outcome.state counted
    exact ⟨machine, rfl⟩

structure Took (h : Host δ) (acts : List Act) (g : Host δ) : Prop where
  share : g.instructionsPerFrame = h.instructionsPerFrame
  instructions : g.instructions = h.instructions + acts.count .cycle
  frames : g.frames = h.frames + acts.count .present

theorem took_act {h g : Host δ} {a : Act} (acted : h.act a = .done g) : h.Took [a] g := by
  by_cases polls : a = .poll
  · subst polls
    obtain ⟨_, _, _, _, polled⟩ := state_poll h
    have left : h.poll.state = g := congrArg Outcome.state acted
    rw [← left, polled]
    exact ⟨rfl, rfl, rfl⟩
  · obtain ⟨_, rfl⟩ := act_eq_done polls acted
    exact ⟨rfl, rfl, rfl⟩

theorem took_of_reaches {h g : Host δ} {acts : List Act} (reached : h.Reaches acts g) :
    h.Took acts g := by
  induction acts generalizing h with
  | nil =>
    obtain rfl := congrArg Outcome.state reached
    exact ⟨rfl, rfl, rfl⟩
  | cons a rest ih =>
    obtain ⟨next, acted, further⟩ := Outcome.andThen_eq_done reached
    obtain ⟨share, instructions, frames⟩ := took_act acted
    obtain ⟨share', instructions', frames'⟩ := ih further
    refine ⟨share'.trans share, ?_, ?_⟩
    · rw [instructions', instructions, List.count_cons, List.count_cons, List.count_nil]
      omega
    · rw [frames', frames, List.count_cons, List.count_cons, List.count_nil]
      omega

theorem actAll_of_failed {h g k : Host δ} {earlier : List Act} (reached : h.Reaches earlier g) {a : Act}
    {f : Fault} (failed : g.act a = .failed f k) (later : List Act) :
    actAll (earlier ++ a :: later) h = .failed f k := by
  rw [actAll_append, reached, Outcome.andThen_done, actAll, failed, Outcome.andThen_failed]

def firstFault : List Act → Host δ → Option (Act × Fault)
  | [], _ => none
  | a :: rest, h =>
    match h.act a with
    | ⟨g, none⟩ => firstFault rest g
    | ⟨_, some f⟩ => some (a, f)

theorem exists_of_firstFault {acts : List Act} {h : Host δ} {a : Act} {f : Fault}
    (first : firstFault acts h = some (a, f)) : ∃ earlier later g k,
      acts = earlier ++ a :: later ∧ h.Reaches earlier g ∧ g.act a = .failed f k := by
  induction acts generalizing h with
  | nil => simp [firstFault] at first
  | cons b rest ih =>
    unfold firstFault at first
    split at first
    · rename_i next acted
      obtain ⟨earlier, later, g, k, rfl, reached, failed⟩ := ih first
      refine ⟨b :: earlier, later, g, k, rfl, ?_, failed⟩
      rw [Reaches, actAll, acted]
      exact reached
    · rename_i next e acted
      obtain ⟨rfl, rfl⟩ := Prod.mk.inj (Option.some.inj first)
      exact ⟨[], rest, h, next, rfl, rfl, acted⟩

theorem reaches_of_firstFault {acts : List Act} {h : Host δ} (fine : firstFault acts h = none) :
    ∃ g, h.Reaches acts g := by
  induction acts generalizing h with
  | nil => exact ⟨h, rfl⟩
  | cons a rest ih =>
    unfold firstFault at fine
    split at fine
    · rename_i next acted
      obtain ⟨g, reached⟩ := ih fine
      refine ⟨g, ?_⟩
      rw [Reaches, actAll, acted]
      exact reached
    · simp at fine

end Host

end ChipEight
