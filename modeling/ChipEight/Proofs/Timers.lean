import ChipEight.Proofs.Cycle
import ChipEight.Proofs.DisplayCalls
import ChipEight.Proofs.KeyWait

set_option autoImplicit false

namespace ChipEight

open Machine (Command)

inductive Timer
  | delay | sound
  deriving DecidableEq

namespace Timer

def read (c : Core) : Timer → UInt8
  | delay => c.delay
  | sound => c.sound

def source : Timer → Instruction → Option (Fin 16)
  | delay, .setDelay x => some x
  | sound, .setSound x => some x
  | _, _ => none

def shown (hidden : Bool) (value : UInt8) : UInt8 := if hidden then 0 else value

@[simp]
theorem shown_shown (hidden : Bool) (value : UInt8) :
    shown hidden (shown hidden value) = shown hidden value := by
  cases hidden <;> rfl

end Timer

def Instruction.reads (hidden : List Timer) : Instruction → Bool
  | .readDelay _ => hidden.contains .delay
  | _ => false

namespace Core

def without (hidden : List Timer) (c : Core) : Core :=
  { c with
    delay := Timer.shown (hidden.contains .delay) c.delay
    sound := Timer.shown (hidden.contains .sound) c.sound }

variable (hidden : List Timer)

theorem without_without (c : Core) : (c.without hidden).without hidden = c.without hidden := by
  simp [without]

theorem aside_without : Aside (without hidden) := ⟨fun _ => rfl, fun _ => rfl, fun _ _ _ => rfl⟩

theorem map_without (o : Except Fault Core) :
    (o.map (without hidden)).map (without hidden) = o.map (without hidden) := by
  cases o with
  | error f => rfl
  | ok c => exact congrArg Except.ok (without_without hidden c)

theorem execute_without (c : Core) (s : Settings) (random : Nat → UInt8) (hit : Bool)
    {i : Instruction} (blind : i.reads hidden = false) :
    ((c.without hidden).execute s random hit i).map (without hidden) =
      (c.execute s random hit i).map (without hidden) := by
  cases i with
  | call target =>
    rw [execute, execute, (aside_without hidden).call, map_without]
  | ret =>
    rw [execute, execute, (aside_without hidden).ret, map_without]
  | readDelay x =>
    have shown : hidden.contains .delay = false := blind
    unfold without
    rw [shown]
    cases hidden.contains .sound <;> rfl
  | _ =>
    unfold without
    cases hidden.contains .delay <;> cases hidden.contains .sound <;> rfl

theorem setKey_without (c : Core) (key : Fin 16) (pressed : Bool) :
    ((c.without hidden).setKey key pressed).without hidden =
      (c.setKey key pressed).without hidden := by
  cases waits : c.wait <;> cases pressed <;> simp [setKey, endWait, without, waits]

theorem tick_without (c : Core) : (c.without hidden).tick.without hidden = c.tick.without hidden := by
  unfold without tick
  cases hidden.contains .delay <;> cases hidden.contains .sound <;> rfl

end Core

namespace Machine

namespace Command

def withoutTicks (cs : List Command) : List Command := cs.filter fun c => !c.isTick

theorem withoutTicks_cons {c : Command} (other : c.isTick = false) (rest : List Command) :
    withoutTicks (c :: rest) = c :: withoutTicks rest := by
  simp [withoutTicks, other]

theorem eq_tick_of_isTick {c : Command} (h : c.isTick = true) : c = tick := by
  cases c <;> simp only [isTick, Bool.false_eq_true] at h
  rfl

end Command

variable {δ : Type}

def without (hidden : List Timer) (m : Machine δ) : Machine δ :=
  { m with core := m.core.without hidden }

section Steps

variable (hidden : List Timer) (m : Machine δ)

theorem without_without : (m.without hidden).without hidden = m.without hidden := by
  simp [without, Core.without_without]

theorem skipWord_without (w : Word) :
    ((m.without hidden).skipWord w).without hidden = (m.skipWord w).without hidden := by
  have same : (m.without hidden).settings = m.settings := rfl
  simp only [skipWord, same]
  split <;> simp [without, note, Core.skipWord, Core.without]

theorem load_without (program : List Int) :
    ((m.without hidden).load program).map (without hidden) =
      (m.load program).map (without hidden) := by
  unfold load
  split
  · exact congrArg (Outcome.failed _) (without_without hidden m)
  · cases (program.dropWhile isByte).head? <;>
      simp [Outcome.map, Outcome.failed, Outcome.done, note, without, Core.without]

theorem setKey_without (key : Int) (pressed : Bool) :
    ((m.without hidden).setKey key pressed).map (without hidden) =
      (m.setKey key pressed).map (without hidden) := by
  unfold setKey
  split
  · simp [Outcome.map, Outcome.done, without, Core.setKey_without]
  · exact congrArg (Outcome.failed _) (without_without hidden m)

theorem executes_without (c : Command) : (m.without hidden).executes c = m.executes c := by
  cases c <;> rfl

variable [Display δ]

theorem execute_without {i : Instruction} (blind : i.reads hidden = false) :
    ((m.without hidden).execute i).map (without hidden) =
      (m.execute i).map (without hidden) := by
  have painted : (m.core.without hidden).paint m.display i = m.core.paint m.display i := by
    cases i <;> rfl
  have executed := Core.execute_without hidden m.core m.settings m.random
    (m.core.paint m.display i).hit blind
  simp only [execute, without, painted]
  cases (m.core.paint m.display i).missing with
  | some cell => simp [Outcome.map, Outcome.failed, without, Core.without_without]
  | none =>
    generalize (m.core.without hidden).execute m.settings m.random (m.core.paint m.display i).hit i =
      after at executed ⊢
    generalize m.core.execute m.settings m.random (m.core.paint m.display i).hit i =
      after' at executed ⊢
    cases after <;> cases after' <;> simp only [Except.map, reduceCtorEq] at executed
    case error.error f g =>
      cases executed
      simp [Outcome.map, Outcome.failed, without, Core.without_without]
    case ok.ok c d =>
      have same : c.without hidden = d.without hidden := Except.ok.inj executed
      simp [Outcome.map, Outcome.done, without, same]

theorem cycle_without (blind : ∀ i ∈ m.executes .cycle, i.reads hidden = false) :
    (m.without hidden).cycle.map (without hidden) = m.cycle.map (without hidden) := by
  have waits : (m.without hidden).core.wait = m.core.wait := rfl
  have fetched : (m.without hidden).core.fetch = m.core.fetch := rfl
  unfold cycle
  rw [waits, fetched]
  unfold executes at blind
  cases wait : m.core.wait with
  | some x => exact congrArg Outcome.done (without_without hidden m)
  | none =>
    cases read : Instruction.decode m.core.fetch with
    | none => exact congrArg Outcome.done (skipWord_without hidden m m.core.fetch)
    | some i => exact execute_without hidden m (blind i (by simp [wait, read]))

theorem perform_without (c : Command) (blind : ∀ i ∈ m.executes c, i.reads hidden = false) :
    ((m.without hidden).perform c).map (without hidden) =
      (m.perform c).map (without hidden) := by
  cases c with
  | cycle => exact cycle_without hidden m blind
  | tick => simp [perform, Outcome.map, Outcome.done, tick, without, Core.tick_without]
  | key key pressed => exact setKey_without hidden m key pressed
  | releaseKeys => simp [perform, Outcome.map, Outcome.done, releaseKeys, Core.releaseKeys, without,
      Core.without]
  | load program => exact load_without hidden m program
  | reset => rfl

end Steps

section Runs

variable [Display δ] {hidden : List Timer} {m n : Machine δ}

def Blind (hidden : List Timer) (m : Machine δ) (cs : List Command) : Prop :=
  ∀ i ∈ m.executed cs, i.reads hidden = false

theorem blind_cons {c : Command} {rest : List Command} : m.Blind hidden (c :: rest) ↔
    (∀ i ∈ m.executes c, i.reads hidden = false) ∧ (m.perform c).state.Blind hidden rest := by
  simp only [Blind, executed, List.mem_append, Option.mem_toList, Option.mem_def, or_imp,
    forall_and]

omit [Display δ] in
theorem executes_apart (same : m.without hidden = n.without hidden) (c : Command) :
    m.executes c = n.executes c := by
  rw [← executes_without hidden m, same, executes_without]

theorem perform_apart (same : m.without hidden = n.without hidden) (c : Command)
    (blind : ∀ i ∈ m.executes c, i.reads hidden = false) :
    (m.perform c).map (without hidden) = (n.perform c).map (without hidden) := by
  rw [← perform_without hidden m c blind, same]
  exact perform_without hidden n c (executes_apart same c ▸ blind)

theorem state_apart (same : m.without hidden = n.without hidden) (c : Command)
    (blind : ∀ i ∈ m.executes c, i.reads hidden = false) :
    (m.perform c).state.without hidden = (n.perform c).state.without hidden :=
  congrArg Outcome.state (perform_apart same c blind)

theorem executed_apart (same : m.without hidden = n.without hidden) (cs : List Command)
    (blind : m.Blind hidden cs) : m.executed cs = n.executed cs := by
  induction cs generalizing m n with
  | nil => rfl
  | cons c rest ih =>
    obtain ⟨here, later⟩ := blind_cons.1 blind
    rw [executed, executed, executes_apart same c, ih (state_apart same c here) later]

theorem Blind.apart {cs : List Command} (blind : m.Blind hidden cs)
    (same : m.without hidden = n.without hidden) : n.Blind hidden cs := by
  intro i hi
  rw [← executed_apart same cs blind] at hi
  exact blind i hi

theorem after_apart (same : m.without hidden = n.without hidden) (cs : List Command)
    (blind : m.Blind hidden cs) : (m.after cs).without hidden = (n.after cs).without hidden := by
  induction cs generalizing m n with
  | nil => exact same
  | cons c rest ih =>
    obtain ⟨here, later⟩ := blind_cons.1 blind
    exact ih (state_apart same c here) later

theorem performAll_apart (same : m.without hidden = n.without hidden) (cs : List Command)
    (blind : m.Blind hidden cs) :
    (m.performAll cs).map (Outcome.map (without hidden)) =
      (n.performAll cs).map (Outcome.map (without hidden)) := by
  induction cs generalizing m n with
  | nil => rfl
  | cons c rest ih =>
    obtain ⟨here, later⟩ := blind_cons.1 blind
    rw [performAll, performAll, List.map_cons, List.map_cons, perform_apart same c here,
      ih (state_apart same c here) later]

def untimed (m : Machine δ) (cs : List Command) : List (Outcome (Machine δ)) :=
  ((cs.zip (m.performAll cs)).filter fun p => !p.1.isTick).map Prod.snd

theorem untimed_cons {c : Command} (other : c.isTick = false) (rest : List Command) :
    m.untimed (c :: rest) = m.perform c :: (m.perform c).state.untimed rest := by
  simp [untimed, performAll, other]

omit [Display δ] in
theorem tick_apart (m : Machine δ) : m.tick.without [.delay, .sound] = m.without [.delay, .sound] :=
  rfl

theorem ticks_unseen (cs : List Command) (blind : m.Blind [.delay, .sound] cs) :
    m.Blind [.delay, .sound] (Command.withoutTicks cs) ∧
      (m.untimed cs).map (Outcome.map (without [.delay, .sound])) =
        (m.performAll (Command.withoutTicks cs)).map (Outcome.map (without [.delay, .sound])) ∧
      (m.after cs).without [.delay, .sound] =
        (m.after (Command.withoutTicks cs)).without [.delay, .sound] := by
  induction cs generalizing m with
  | nil => exact ⟨blind, rfl, rfl⟩
  | cons c rest ih =>
    obtain ⟨here, later⟩ := blind_cons.1 blind
    obtain ⟨unseen, outcomes, final⟩ := ih later
    cases ticks : c.isTick with
    | true =>
      -- The tick changes hidden timers only, so what follows goes on as from `m` itself.
      obtain rfl := Command.eq_tick_of_isTick ticks
      have same : m.tick.without [.delay, .sound] = m.without [.delay, .sound] := tick_apart m
      refine ⟨?_, ?_, ?_⟩
      · exact unseen.apart same
      · exact outcomes.trans (performAll_apart same _ unseen)
      · exact final.trans (after_apart same _ unseen)
    | false =>
      rw [Command.withoutTicks_cons ticks]
      refine ⟨blind_cons.2 ⟨here, unseen⟩, ?_, final⟩
      rw [untimed_cons ticks, performAll, List.map_cons, List.map_cons, outcomes]

/-- What two runs agree in that differ in their ticks and in the timers alone: for each command that
is no tick the fault and the state that it left, but for the timers, and what was asked of the
display up to then; and the last state, but for the timers. -/
structure Untimed (m n : Machine δ) (cs ds : List Command) : Prop where
  outcomes : (m.untimed cs).map (Outcome.map (without [.delay, .sound])) =
    (n.untimed ds).map (Outcome.map (without [.delay, .sound]))
  calls : (m.watched.untimed cs).map (fun o => o.state.display.calls) =
    (n.watched.untimed ds).map fun o => o.state.display.calls
  final : (m.after cs).without [.delay, .sound] = (n.after ds).without [.delay, .sound]

theorem untimed_apart {m n : Machine δ}
    (same : m.without [.delay, .sound] = n.without [.delay, .sound]) {cs ds : List Command}
    (commands : Command.withoutTicks cs = Command.withoutTicks ds)
    (blind : m.Blind [.delay, .sound] cs) (blind' : n.Blind [.delay, .sound] ds) :
    (m.untimed cs).map (Outcome.map (without [.delay, .sound])) =
        (n.untimed ds).map (Outcome.map (without [.delay, .sound])) ∧
      (m.after cs).without [.delay, .sound] = (n.after ds).without [.delay, .sound] := by
  obtain ⟨unseen, outcomes, final⟩ := ticks_unseen cs blind
  obtain ⟨_, outcomes', final'⟩ := ticks_unseen ds blind'
  rw [← commands] at outcomes' final'
  constructor
  · rw [outcomes, outcomes', performAll_apart same _ unseen]
  · rw [final, final', after_apart same _ unseen]

theorem executed_watched (m : Machine δ) (cs : List Command) :
    m.watched.executed cs = m.executed cs :=
  Watched.simulates.executed m.watched_alike cs

theorem untimed_of_blind {m n : Machine δ}
    (same : m.without [.delay, .sound] = n.without [.delay, .sound]) {cs ds : List Command}
    (commands : Command.withoutTicks cs = Command.withoutTicks ds)
    (blind : m.Blind [.delay, .sound] cs) (blind' : n.Blind [.delay, .sound] ds) :
    m.Untimed n cs ds := by
  have watched : m.watched.without [.delay, .sound] = n.watched.without [.delay, .sound] :=
    congrArg Machine.watched same
  have unread : m.watched.Blind [.delay, .sound] cs := by
    rw [Blind, executed_watched]
    exact blind
  have unread' : n.watched.Blind [.delay, .sound] ds := by
    rw [Blind, executed_watched]
    exact blind'
  obtain ⟨outcomes, final⟩ := untimed_apart same commands blind blind'
  obtain ⟨seen, _⟩ := untimed_apart watched commands unread unread'
  refine ⟨outcomes, ?_, final⟩
  have calls := congrArg (List.map fun o => o.state.display.calls) seen
  rw [List.map_map, List.map_map] at calls
  exact calls

theorem blind_of_not_mem {cs : List Command} (unread : ∀ x, .readDelay x ∉ m.executed cs) :
    m.Blind hidden cs := by
  intro i executed
  cases i with
  | readDelay x => exact absurd executed (unread x)
  | _ => rfl

end Runs

end Machine

namespace Timer

variable {t : Timer} {c d : Core} {s : Settings} {random : Nat → UInt8} {hit : Bool} {i : Instruction}

theorem read_of_execute (executed : c.execute s random hit i = .ok d) :
    t.read d = ((t.source i).map c.v.read).getD (t.read c) := by
  cases i with
  | call target =>
    obtain ⟨_, _, _, rfl⟩ := Core.call_eq_ok_iff.1 executed
    cases t <;> rfl
  | ret =>
    obtain ⟨_, _, _, rfl⟩ := Core.ret_eq_ok_iff.1 executed
    cases t <;> rfl
  | _ =>
    obtain rfl := Except.ok.inj executed
    cases t <;> rfl

theorem source_of_error {f : Fault} (refused : c.execute s random hit i = .error f) :
    t.source i = none := by
  cases i with
  | setDelay x | setSound x => simp [Core.execute] at refused
  | _ => cases t <;> rfl

variable {δ : Type} [Display δ]

def receives (t : Timer) (m : Machine δ) : Command → Option UInt8
  | .reset => some 0
  | c => (m.executes c).bind fun i => (t.source i).map m.core.v.read

def receipts (t : Timer) (m : Machine δ) : List Command → List UInt8
  | [] => []
  | c :: rest => (t.receives m c).toList ++ receipts t (m.perform c).state rest

/-- The value that the timer has when a run ends: that of the start, or what the last command has
given to it. -/
inductive Given (t : Timer) (m : Machine δ) : List Command → UInt8 → Prop
  | initially : Given t m [] (t.read m.core)
  | received {before : List Command} {c : Command} {d : UInt8}
      (h : t.receives (m.after before) c = some d) : Given t m (before ++ [c]) d

omit [Display δ] in
theorem read_setKey (t : Timer) (c : Core) (key : Fin 16) (pressed : Bool) :
    t.read (c.setKey key pressed) = t.read c := by
  cases t <;> cases pressed <;> cases waits : c.wait <;> simp [read, Core.setKey, Core.endWait, waits]

theorem read_cycle (t : Timer) (m : Machine δ) :
    t.read m.cycle.state.core = (t.receives m .cycle).getD (t.read m.core) := by
  have ended := m.cycled
  generalize m.cycle = o at ended
  cases ended with
  | waits wait => simp [receives, Machine.executes, wait, Outcome.done]
  | skips awake unread =>
    rw [Outcome.done, Machine.core_skipWord]
    simp only [receives, Machine.executes, awake, unread, Option.isSome_none, Bool.false_eq_true,
      if_false, Option.bind_none, Option.getD_none]
    cases t <;> rfl
  | misses awake fetched =>
    simp only [receives, Machine.executes_of_fetch awake fetched, Option.bind_some]
    cases t <;> rfl
  | refuses awake fetched refused =>
    simp only [receives, Machine.executes_of_fetch awake fetched, Option.bind_some,
      source_of_error refused, Option.map_none, Option.getD_none, Outcome.failed]
  | executes awake fetched executed =>
    simp only [receives, Machine.executes_of_fetch awake fetched, Option.bind_some, Outcome.done,
      read_of_execute executed]

theorem read_perform (t : Timer) (m : Machine δ) (c : Command) :
    t.read (m.perform c).state.core =
      (t.receives m c).getD (Core.countdown (if c.isTick then 1 else 0) (t.read m.core)) := by
  cases c with
  | cycle => exact (read_cycle t m).trans (congrArg _ (Core.countdown_zero _).symm)
  | tick =>
    have counted : t.read m.core.tick = Core.countdown 1 (t.read m.core) := by
      rw [Core.tick_eq]
      cases t <;> rfl
    exact counted
  | key key pressed =>
    have kept : t.read (m.setKey key pressed).state.core = t.read m.core := by
      unfold Machine.setKey
      split
      · exact read_setKey t m.core _ pressed
      · rfl
    exact kept.trans (Core.countdown_zero _).symm
  | releaseKeys =>
    have kept : t.read m.core.releaseKeys = t.read m.core := by cases t <;> rfl
    exact kept.trans (Core.countdown_zero _).symm
  | load program =>
    have kept : t.read (m.load program).state.core = t.read m.core := by
      obtain ⟨memory, loaded⟩ := m.core_load program
      rw [loaded]
      cases t <;> rfl
    exact kept.trans (Core.countdown_zero _).symm
  | reset => cases t <;> rfl

theorem counts_down (t : Timer) (m : Machine δ) (cs : List Command) :
    ∃ earlier later d, cs = earlier ++ later ∧ t.Given m earlier d ∧
      t.receipts (m.after earlier) later = [] ∧
      (t.read (m.after cs).core).toNat = d.toNat - later.countP Command.isTick := by
  induction cs generalizing m with
  | nil => exact ⟨[], [], t.read m.core, rfl, .initially, rfl, rfl⟩
  | cons c rest ih =>
    obtain ⟨earlier, later, d, rfl, given, since, value⟩ := ih (m.perform c).state
    cases given with
    | @received before e _ h =>
      have given : t.Given m ((c :: before) ++ [e]) d := .received h
      exact ⟨(c :: before) ++ [e], later, d, rfl, given, since, value⟩
    | initially =>
      -- Nothing was received behind `c`: either `c` itself gave the value, or the account goes back
      -- to the start.
      have first := read_perform t m c
      cases received : t.receives m c with
      | some d =>
        rw [received, Option.getD_some] at first
        rw [first] at value
        have given : t.Given m ([] ++ [c]) d := .received received
        exact ⟨[c], later, d, rfl, given, since, value⟩
      | none =>
        rw [received, Option.getD_none] at first
        rw [first, Core.toNat_countdown] at value
        refine ⟨[], c :: later, t.read m.core, rfl, .initially, ?_, ?_⟩
        · rw [Machine.after, receipts, received]
          exact since
        · rw [List.countP_cons, Nat.add_comm, ← Nat.sub_sub]
          exact value

end Timer

namespace Machine

variable {δ : Type} [Display δ]

/-- What the timers have to do with the rest of a machine. The runs that look at no timer do not
depend on ticks, no run depends on the sound timer, and every run leaves in each timer what it
received last, counted down since. -/
theorem timers_stand_apart (m n : Machine δ) :
    (∀ cs ds : List Command, m.without [.delay, .sound] = n.without [.delay, .sound] →
      Command.withoutTicks cs = Command.withoutTicks ds →
      (∀ x, .readDelay x ∉ m.executed cs) → (∀ x, .readDelay x ∉ n.executed ds) →
      m.Untimed n cs ds) ∧
    (∀ cs : List Command, m.without [.sound] = n.without [.sound] →
      (m.performAll cs).map (Outcome.map (without [.sound])) =
        (n.performAll cs).map (Outcome.map (without [.sound]))) ∧
    ∀ (t : Timer) (cs : List Command), ∃ earlier later d, cs = earlier ++ later ∧
      t.Given m earlier d ∧ t.receipts (m.after earlier) later = [] ∧
      (t.read (m.after cs).core).toNat = d.toNat - later.countP Command.isTick := by
  refine ⟨?_, ?_, fun t cs => t.counts_down m cs⟩
  · intro cs ds same commands unread unread'
    exact untimed_of_blind same commands (blind_of_not_mem unread) (blind_of_not_mem unread')
  · intro cs same
    have blind : m.Blind [.sound] cs := by
      intro i _
      cases i <;> rfl
    exact performAll_apart same cs blind

theorem timers_stand_apart_waiting :
    let program : List Command := [.load [0x60, 0x09, 0xF0, 0x15, 0xF1, 0x0A, 0xF0, 0x18, 0x00, 0xEE]]
    let start : Machine Plane := create .modern (fun _ => 0) .empty
    let m := start.after program
    let n : Machine Plane := { m with core := { m.core with delay := 40, sound := 7 } }
    let silent : Machine Plane := { m with core := { m.core with sound := 7 } }
    let cs : List Command := [.cycle, .cycle, .tick, .cycle, .tick, .cycle, .key 16 true, .key 3 true,
      .cycle, .cycle]
    let ds : List Command := [.tick, .cycle, .cycle, .cycle, .cycle, .key 16 true, .key 3 true,
      .cycle, .tick, .cycle, .tick]
    m.without [.delay, .sound] = n.without [.delay, .sound] ∧
      Command.withoutTicks cs = Command.withoutTicks ds ∧
      (∀ x, .readDelay x ∉ m.executed cs) ∧ (∀ x, .readDelay x ∉ n.executed ds) ∧
      m.without [.sound] = silent.without [.sound] ∧
      m.Untimed n cs ds ∧
      (m.performAll cs).map (Outcome.map (without [.sound])) =
        (silent.performAll cs).map (Outcome.map (without [.sound])) := by
  intro program start m n silent cs ds
  have same : m.without [.delay, .sound] = n.without [.delay, .sound] := rfl
  have commands : Command.withoutTicks cs = Command.withoutTicks ds := rfl
  have same' : m.without [.sound] = silent.without [.sound] := rfl
  have met : m.executed cs = [.setByte 0 9, .setDelay 0, .awaitKey 1, .setSound 0, .ret] ∧
      n.executed ds = [.setByte 0 9, .setDelay 0, .awaitKey 1, .setSound 0, .ret] := by
    decide +kernel
  have unread : ∀ x, .readDelay x ∉ m.executed cs := by simp [met.1]
  have unread' : ∀ x, .readDelay x ∉ n.executed ds := by simp [met.2]
  exact ⟨same, commands, unread, unread', same',
    (timers_stand_apart m n).1 cs ds same commands unread unread',
    (timers_stand_apart m silent).2.1 cs same'⟩

end Machine

end ChipEight
