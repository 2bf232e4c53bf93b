import ChipEight.Proofs.PlainView
import ChipEight.Proofs.Interchange

set_option autoImplicit false

namespace ChipEight

namespace Core

theorem toNat_countedDown (t : UInt8) :
    ((if t = 0 then 0 else t - 1 : UInt8).toNat : Int) =
      if 0 < (t.toNat : Int) then (t.toNat : Int) - 1 else t.toNat := by
  rw [← countdown_one, toNat_countdown]
  split <;> omega

theorem plain_tick (c : Core) (s : Settings) (drawn : Int) (hit : Bool) :
    c.tick.plain = c.plain.perform s drawn hit .tick := by
  simp only [plain, tick, toNat_countedDown, Plain.perform]
  rfl

theorem read_write_keys (keys : Bank Bool) (k : Fin 16) (pressed : Bool) :
    (keys.write k pressed).read =
      fun j => if (j.val : Int) = k.val then pressed else keys.read j := by
  funext j
  have same : k = j ↔ (j.val : Int) = k.val := by omega
  simp only [Bank.read_write, same]

theorem plain_setKey (c : Core) (k : Fin 16) (pressed : Bool) :
    (c.setKey k pressed).plain = c.plain.setKey k.val pressed := by
  have named : ((UInt8.ofNat k.val).toNat : Int) = k.val := by
    rw [UInt8.toNat_ofNat']
    omega
  cases waits : c.wait with
  | none =>
    cases pressed <;> simp [setKey, endWait, waits, plain, Plain.setKey, read_write_keys]
  | some x =>
    cases pressed with
    | false => simp [setKey, waits, plain, Plain.setKey, read_write_keys]
    | true =>
      have resumed : c.setKey k true = { c with
          keys := c.keys.write k true
          v := c.v.write x (UInt8.ofNat k)
          wait := none
          pc := c.pc + 2 } := by
        simp [setKey, endWait, waits]
      rw [resumed]
      simp only [plain, Plain.setKey, waits, Option.map_some, Option.isSome_some, Bool.and_self,
        if_true, read_write_keys, Cells.ofRegisters_write, named]
      rfl

theorem decode_plain (c : Core) :
    Instruction.decode (UInt16.ofNat c.plain.fetch.toNat) = Instruction.decode c.fetch := by
  rw [fetch_plain, Int.toNat_natCast, UInt16.ofNat_toNat]

theorem cycle_plain_of_fetch {c : Core} {i : Instruction} (awake : c.wait = none)
    (fetched : c.fetch = i.encode) (s : Settings) (drawn : Int) (hit : Bool) :
    c.plain.cycle s drawn hit = (c.plain.execute s drawn hit i).getD c.plain := by
  have idle : ¬ c.plain.waiting = true := by simp [plain, awake]
  rw [Plain.cycle, if_neg idle, decode_plain, fetched, Instruction.decode_encode]

theorem cycle_plain_of_unread {c : Core} (awake : c.wait = none)
    (unread : Instruction.decode c.fetch = none) (s : Settings) (drawn : Int) (hit : Bool) :
    c.plain.cycle s drawn hit = c.skipWord.plain := by
  have idle : ¬ c.plain.waiting = true := by simp [plain, awake]
  rw [Plain.cycle, if_neg idle, decode_plain, unread]
  rfl

/-- If the core waits, it stands at the word that made it wait. -/
def AtWait (c : Core) : Prop := ∀ x, c.wait = some x → c.fetch = Word.ofByte 0xF x 0x0A

theorem atWait_of_awake {c : Core} (awake : c.wait = none) : c.AtWait := by
  intro x waits
  rw [awake] at waits
  simp at waits

theorem wait_execute {s : Settings} {random : Nat → UInt8} {hit : Bool} {c d : Core}
    {i : Instruction} (executed : c.execute s random hit i = .ok d) :
    (∃ x, i = .awaitKey x ∧ d = { c with wait := some x }) ∨ d.wait = c.wait := by
  cases i with
  | awaitKey x => exact .inl ⟨x, rfl, (Except.ok.inj executed).symm⟩
  | call =>
    obtain ⟨_, _, _, rfl⟩ := call_eq_ok_iff.1 executed
    exact .inr rfl
  | ret =>
    obtain ⟨_, _, _, rfl⟩ := ret_eq_ok_iff.1 executed
    exact .inr rfl
  | _ =>
    obtain rfl := Except.ok.inj executed
    exact .inr rfl

theorem atWait_execute {s : Settings} {random : Nat → UInt8} {hit : Bool} {c d : Core}
    {i : Instruction} (awake : c.wait = none) (fetched : c.fetch = i.encode)
    (executed : c.execute s random hit i = .ok d) : d.AtWait := by
  rcases wait_execute executed with ⟨x, rfl, rfl⟩ | same
  · intro y waits
    obtain rfl := Option.some.inj waits
    exact fetched
  · exact atWait_of_awake (same.trans awake)

theorem AtWait.setKey {c : Core} (h : c.AtWait) (k : Fin 16) (pressed : Bool) :
    (c.setKey k pressed).AtWait := by
  cases pressed with
  | false => exact h
  | true =>
    apply atWait_of_awake
    simp only [Core.setKey, if_true, endWait]
    split
    · assumption
    · rfl

end Core

namespace Machine

variable {δ : Type}

theorem toNat_bytes (program : List Int) :
    ((program.takeWhile isByte).map fun value => ((UInt8.ofNat value.toNat).toNat : Int)) =
      program.takeWhile isByte := by
  refine (List.map_congr_left fun value hv => ?_).trans (List.map_id _)
  have byte := List.all_eq_true.1 List.all_takeWhile value hv
  simp only [isByte, Bool.and_eq_true, decide_eq_true_eq] at byte
  rw [UInt8.toNat_ofNat', id]
  omega

theorem plain_load (m : Machine δ) (program : List Int) (drawn : Int) (hit : Bool) :
    (m.load program).state.core.plain =
      m.core.plain.perform m.settings drawn hit (.load program) := by
  have stored := Cells.ofMemory_store
    ((program.takeWhile isByte).map fun value => UInt8.ofNat value.toNat) m.core.memory programStart
  rw [List.map_map] at stored
  have loaded := stored.trans (congrArg (Cells.pokeAll _ _) (toNat_bytes program))
  unfold load
  rw [Plain.perform]
  split
  · rfl
  · have shown : Core.plain { m.core with
          memory := m.core.memory.store programStart
            ((program.takeWhile isByte).map fun value => UInt8.ofNat value.toNat) } =
        { m.core.plain with
          memory := m.core.plain.memory.pokeAll programStart (program.takeWhile isByte) } := by
      rw [Core.plain, loaded]
      rfl
    dsimp only
    split <;> exact shown

variable [Display δ] {lit : δ → Cell → Bool}

theorem plain_cycle (shows : ShowsPicture δ lit) (m : Machine δ) :
    ∃ hit, m.cycle.state.core.plain =
      m.core.plain.cycle m.settings (m.random m.core.randomDraws).toNat hit := by
  have ended := m.cycled
  generalize m.cycle = o at ended
  cases ended with
  | waits waits =>
    have pending : m.core.plain.waiting = true := by simp [Core.plain, waits]
    refine ⟨false, ?_⟩
    rw [Plain.cycle, if_pos pending]
    rfl
  | skips awake unread =>
    refine ⟨false, ?_⟩
    rw [Core.cycle_plain_of_unread awake unread, Outcome.done, core_skipWord]
  | misses awake fetched missing => simp [Core.missing_paint shows] at missing
  | @refuses i f awake fetched refused =>
    refine ⟨false, ?_⟩
    rw [Core.cycle_plain_of_fetch awake fetched, Core.plain_execute, refused]
    rfl
  | @executes i hit c d awake fetched executed =>
    refine ⟨hit, ?_⟩
    rw [Core.cycle_plain_of_fetch awake fetched, Core.plain_execute, executed]
    rfl

theorem plain_perform (shows : ShowsPicture δ lit) (m : Machine δ) (c : Command) :
    ∃ hit, (m.perform c).state.core.plain =
      m.core.plain.perform m.settings (m.random m.core.randomDraws).toNat hit c := by
  cases c with
  | cycle => exact plain_cycle shows m
  | tick => exact ⟨false, m.core.plain_tick ..⟩
  | key key pressed =>
    refine ⟨false, ?_⟩
    simp only [perform, setKey, Plain.perform]
    split
    · rename_i known
      rw [Outcome.done, Core.plain_setKey, Int.toNat_of_nonneg known.1]
    · rfl
  | releaseKeys =>
    refine ⟨false, ?_⟩
    have up : Core.noKeys.read = fun _ => false := funext Core.read_noKeys
    simp only [perform, Outcome.done, releaseKeys, Core.releaseKeys, Core.plain, up, Plain.perform]
  | load program => exact ⟨false, m.plain_load program ..⟩
  | reset => exact ⟨false, Core.plain_powerOn⟩

theorem plain_after (shows : ShowsPicture δ lit) (cs : List Command) {told : List Command}
    {m : Machine δ} (h : Plain.Reached m.settings told m.core.plain) :
    Plain.Reached m.settings (told ++ cs) (m.after cs).core.plain := by
  induction cs generalizing told m with
  | nil =>
    rw [List.append_nil]
    exact h
  | cons c rest ih =>
    obtain ⟨hit, next⟩ := plain_perform shows m c
    have byte := (m.random m.core.randomDraws).toNat_lt
    have first : Plain.Reached m.settings (told ++ [c]) (m.perform c).state.core.plain :=
      next ▸ h.step (by omega) (by omega) c
    rw [← settings_perform m c] at first
    have whole := ih first
    rw [settings_perform, List.append_assoc] at whole
    exact whole

theorem atWait_perform {c : Command} (kept : ∀ program, c ≠ .load program) {m : Machine δ}
    (h : m.core.AtWait) : (m.perform c).state.core.AtWait := by
  cases c with
  | cycle =>
    have ended := m.cycled
    simp only [perform]
    generalize m.cycle = o at ended
    cases ended with
    | waits | misses | refuses => exact h
    | skips awake =>
      rw [Outcome.done, core_skipWord]
      exact Core.atWait_of_awake awake
    | executes awake fetched executed => exact Core.atWait_execute awake fetched executed
  | tick | releaseKeys => exact h
  | reset => exact Core.atWait_of_awake rfl
  | load program => exact absurd rfl (kept program)
  | key key pressed =>
    simp only [perform, setKey]
    split
    · exact h.setKey _ pressed
    · exact h

/-- The numbers of every reachable machine are those that unbounded arithmetic gives, each in the
range of its cell, and a machine that waits for a key stands at the word that made it wait, unless a
program was loaded in the meantime. -/
theorem representation_kept (shows : ShowsPicture δ lit) (settings : Settings)
    (random : Nat → UInt8) (d : δ) (cs : List Command) :
    let start := create settings random d
    let m := start.after cs
    Plain.Reached settings cs m.core.plain ∧ m.core.plain.InRange ∧
      ∀ earlier later, cs = earlier ++ later → (start.after earlier).core.wait = none →
        (∀ program, .load program ∉ later) →
          ∀ x, m.core.wait = some x → m.core.fetch = Word.ofByte 0xF x 0x0A := by
  intro start m
  have powered : Plain.Reached settings [] start.core.plain := by
    have rest : start.core.plain = .powerOn := Core.plain_powerOn
    exact rest ▸ .powerOn
  have reached : Plain.Reached settings cs m.core.plain := plain_after shows cs (m := start) powered
  refine ⟨reached, reached.inRange, ?_⟩
  intro earlier later split awake kept
  have apart : m = (start.after earlier).after later := by
    rw [← after_append, ← split]
  rw [apart]
  exact after_keeps (P := fun n => n.core.AtWait) later
    (fun c hc n => atWait_perform fun program loads => kept program (loads ▸ hc)) _
    (Core.atWait_of_awake awake)

/-- A program that is refused halfway still makes the machine wait. -/
theorem representation_kept_refused :
    let start := create .modern (fun _ => 0) Plane.empty
    let earlier : List Command := [.load [0xF3, 0x0A, 256], .tick]
    let later : List Command := [.cycle, .key 99 true, .key 3 false, .cycle]
    (start.perform (.load [0xF3, 0x0A, 256])).fault = some (.notAByte 256) ∧
      Plain.Reached .modern (earlier ++ later) (start.after (earlier ++ later)).core.plain ∧
      (start.after (earlier ++ later)).core.plain.InRange ∧
      (start.after earlier).core.wait = none ∧ (∀ program, .load program ∉ later) ∧
      (start.after (earlier ++ later)).core.wait = some 3 ∧
      (start.after (earlier ++ later)).core.fetch = Word.ofByte 0xF 3 0x0A := by
  intro start earlier later
  have refused : (start.perform (.load [0xF3, 0x0A, 256])).fault = some (.notAByte 256) := by
    decide +kernel
  have awake : (start.after earlier).core.wait = none := by decide +kernel
  have kept : ∀ program, Command.load program ∉ later := by simp [later]
  have waits : (start.after (earlier ++ later)).core.wait = some 3 := by decide +kernel
  have powered : start = create .modern (fun _ => 0) Plane.empty := rfl
  have all :=
    representation_kept Plane.showsPicture .modern (fun _ => 0) Plane.empty (earlier ++ later)
  rw [← powered] at all
  obtain ⟨numbers, inRange, stands⟩ := all
  exact ⟨refused, numbers, inRange, awake, kept, waits, stands earlier later rfl awake kept 3 waits⟩

example :
    let start := create .modern (fun _ => 0) Plane.empty
    let m := start.after [.load [0xF3, 0x0A], .cycle, .load [0x00, 0xE0]]
    m.core.wait = some 3 ∧ m.core.fetch = 0x00E0 := by
  decide +kernel

end Machine

end ChipEight
