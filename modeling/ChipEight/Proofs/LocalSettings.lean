import ChipEight.Proofs.InstructionForms
import ChipEight.Proofs.Simulation

set_option autoImplicit false

namespace ChipEight

/-- The word is executed alike under both settings. A shift of a register into itself is. -/
def Settings.AgreeOn (s t : Settings) (w : Word) : Prop :=
  (w.HasAny ["8xy1", "8xy2", "8xy3"] → s.clearFlag = t.clearFlag) ∧
  (w.HasAny ["8xy6", "8xyE"] → w.x ≠ w.y → s.shiftSecond = t.shiftSecond) ∧
  (w.HasAny ["Fx55", "Fx65"] → s.advanceIndex = t.advanceIndex)

instance decidableAgreeOn (s t : Settings) (w : Word) : Decidable (s.AgreeOn t w) :=
  inferInstanceAs (Decidable ((_ → _) ∧ (_ → _ → _) ∧ (_ → _)))

theorem Settings.agreeOn_reportSkipped (s : Settings) (report : Bool) (w : Word) :
    s.AgreeOn { s with reportSkipped := report } w :=
  ⟨fun _ => rfl, fun _ _ => rfl, fun _ => rfl⟩

variable {s t : Settings}

namespace Arithmetic

theorem shifted_congr {a b : UInt8} (h : a ≠ b → s.shiftSecond = t.shiftSecond) :
    shifted s a b = shifted t a b := by
  unfold shifted
  by_cases same : a = b
  · rw [same, ite_self, ite_self]
  · rw [h same]

theorem apply_congr {op : Arithmetic} {x y : Fin 16} {v : Registers}
    (agree : s.AgreeOn t (Instruction.combine op x y).encode) :
    op.apply s x y v = op.apply t x y v := by
  obtain ⟨clears, shifts, _⟩ := agree
  cases op with
  | or | and | xor =>
    have same := clears (Instruction.hasAny_encode (by simp [Instruction.form]))
    simp only [apply, result, flag, same]
  | shiftRight | shiftLeft =>
    have same : shifted s (v.read x) (v.read y) = shifted t (v.read x) (v.read y) := by
      refine shifted_congr fun differ => shifts ?_ ?_
      · exact Instruction.hasAny_encode (by simp [Instruction.form])
      · rw [Instruction.encode, Word.x_ofDigits (by decide), Word.y_ofDigits (by decide)]
        exact fun one => differ (congrArg v.read one)
    simp only [apply, result, flag, same]
  | _ => rfl

end Arithmetic

theorem Core.skipped_setKey (c : Core) (key : Fin 16) (pressed : Bool) :
    (c.setKey key pressed).skipped = c.skipped := by
  cases pressed with
  | false => rfl
  | true =>
    simp only [setKey, endWait, if_true]
    split <;> rfl

theorem Core.execute_congr {random : Nat → UInt8} {hit : Bool} {c : Core} {i : Instruction}
    (agree : s.AgreeOn t i.encode) : c.execute s random hit i = c.execute t random hit i := by
  cases i with
  | combine => simp only [execute, Arithmetic.apply_congr agree]
  | save | restore =>
    have same := agree.2.2 (Instruction.hasAny_encode (by simp [Instruction.form]))
    simp only [execute, indexPast, same]
  | _ => rfl

namespace Machine

variable {δ : Type}

def routine (m : Machine δ) : List LogEntry := m.log.toList.filter (·.level ≠ .warning)

def warnings (m : Machine δ) : List LogEntry := m.log.toList.filter (·.level = .warning)

/-- The machines differ in nothing but their settings and the warnings in their logs. -/
structure AlikeButSettings (m n : Machine δ) : Prop where
  random : m.random = n.random
  core : m.core = n.core
  display : m.display = n.display
  routine : m.routine = n.routine

theorem routine_note (m : Machine δ) (e : LogEntry) :
    (m.note e).routine = m.routine ++ [e].filter (·.level ≠ .warning) := by
  simp only [routine, note, Array.toList_push, List.filter_append]

theorem warnings_note (m : Machine δ) (e : LogEntry) :
    (m.note e).warnings = m.warnings ++ [e].filter (·.level = .warning) := by
  simp only [warnings, note, Array.toList_push, List.filter_append]

theorem warnings_note_of_ne {e : LogEntry} (h : e.level ≠ .warning) (m : Machine δ) :
    (m.note e).warnings = m.warnings := by
  rw [warnings_note, List.filter_cons_of_neg (by simpa using h), List.filter_nil, List.append_nil]

theorem routine_skipWord (m : Machine δ) (w : Word) : (m.skipWord w).routine = m.routine := by
  unfold skipWord
  dsimp only
  split
  · rw [routine_note, List.filter_cons_of_neg (by simp [LogEntry.level]), List.filter_nil,
      List.append_nil]
    rfl
  · rfl

theorem warnings_skipWord (m : Machine δ) (w : Word) : (m.skipWord w).warnings =
    m.warnings ++ if m.settings.reportSkipped then [.wordSkipped w m.core.pc] else [] := by
  unfold skipWord
  dsimp only
  split
  · rw [warnings_note, List.filter_cons_of_pos (by simp [LogEntry.level]), List.filter_nil]
    rfl
  · rw [List.append_nil]
    rfl

namespace AlikeButSettings

variable {m n : Machine δ}

theorem note (h : AlikeButSettings m n) (e : LogEntry) :
    AlikeButSettings (m.note e) (n.note e) :=
  ⟨h.random, h.core, h.display, by rw [routine_note, routine_note, h.routine]⟩

theorem skipWord (h : AlikeButSettings m n) (w : Word) :
    AlikeButSettings (m.skipWord w) (n.skipWord w) := by
  refine ⟨?_, ?_, ?_, ?_⟩
  · rw [skipWord_eq, skipWord_eq]
    exact h.random
  · rw [core_skipWord, core_skipWord, h.core]
  · rw [skipWord_eq, skipWord_eq]
    exact h.display
  · rw [routine_skipWord, routine_skipWord, h.routine]

theorem load (h : AlikeButSettings m n) (program : List Int) :
    Outcome.Alike AlikeButSettings (m.load program) (n.load program) := by
  obtain ⟨settings, random, core, display, log⟩ := m
  obtain ⟨settings', _, _, _, log'⟩ := n
  obtain ⟨rfl, rfl, rfl, routine⟩ := h
  have stored : ∀ c : Core, AlikeButSettings ⟨settings, random, c, display, log⟩
      ⟨settings', random, c, display, log'⟩ := fun _ => ⟨rfl, rfl, rfl, routine⟩
  simp only [Machine.load]
  split
  · exact ⟨rfl, stored core⟩
  · split
    · exact ⟨rfl, stored _⟩
    · exact ⟨rfl, (stored _).note _⟩

theorem setKey (h : AlikeButSettings m n) (key : Int) (pressed : Bool) :
    Outcome.Alike AlikeButSettings (m.setKey key pressed) (n.setKey key pressed) := by
  obtain ⟨settings, random, core, display, log⟩ := m
  obtain ⟨settings', _, _, _, log'⟩ := n
  obtain ⟨rfl, rfl, rfl, routine⟩ := h
  simp only [Machine.setKey]
  split <;> exact ⟨rfl, rfl, rfl, rfl, routine⟩

variable [Display δ]

theorem reset (h : AlikeButSettings m n) : AlikeButSettings m.reset n.reset := by
  obtain ⟨settings, random, core, display, log⟩ := m
  obtain ⟨settings', _, _, _, log'⟩ := n
  obtain ⟨rfl, rfl, rfl, routine⟩ := h
  have cleared : AlikeButSettings ⟨settings, random, core.reset, Display.clear display, log⟩
      ⟨settings', random, core.reset, Display.clear display, log'⟩ := ⟨rfl, rfl, rfl, routine⟩
  exact cleared.note _

theorem execute (h : AlikeButSettings m n) {i : Instruction}
    (agree : m.settings.AgreeOn n.settings i.encode) :
    Outcome.Alike AlikeButSettings (m.execute i) (n.execute i) := by
  obtain ⟨settings, random, core, display, log⟩ := m
  obtain ⟨settings', _, _, _, log'⟩ := n
  obtain ⟨rfl, rfl, rfl, routine⟩ := h
  simp only [Machine.execute, ← Core.execute_congr agree]
  split
  · exact ⟨rfl, rfl, rfl, rfl, routine⟩
  · split <;> exact ⟨rfl, rfl, rfl, rfl, routine⟩

theorem cycle (h : AlikeButSettings m n)
    (agree : ∀ i ∈ m.executes .cycle, m.settings.AgreeOn n.settings i.encode) :
    Outcome.Alike AlikeButSettings m.cycle n.cycle := by
  unfold Machine.cycle
  unfold executes at agree
  rw [← h.core]
  split
  · exact ⟨rfl, h⟩
  · rename_i awake
    rw [if_neg awake] at agree
    split
    · exact ⟨rfl, h.skipWord _⟩
    · rename_i i read
      exact h.execute (agree i read)

theorem perform (h : AlikeButSettings m n) {c : Command}
    (agree : ∀ i ∈ m.executes c, m.settings.AgreeOn n.settings i.encode) :
    Outcome.Alike AlikeButSettings (m.perform c) (n.perform c) := by
  cases c with
  | cycle => exact h.cycle agree
  | tick => exact ⟨rfl, h.random, congrArg Core.tick h.core, h.display, h.routine⟩
  | key key pressed => exact h.setKey key pressed
  | releaseKeys => exact ⟨rfl, h.random, congrArg Core.releaseKeys h.core, h.display, h.routine⟩
  | load program => exact h.load program
  | reset => exact ⟨rfl, h.reset⟩

theorem performAll (h : AlikeButSettings m n) (cs : List Command)
    (agree : ∀ i ∈ m.executed cs, m.settings.AgreeOn n.settings i.encode) :
    List.Forall₂ (Outcome.Alike AlikeButSettings) (m.performAll cs) (n.performAll cs) := by
  induction cs generalizing m n with
  | nil => exact .nil
  | cons c rest ih =>
    have here : ∀ i ∈ m.executes c, m.settings.AgreeOn n.settings i.encode := fun i executed =>
      agree i (List.mem_append_left _ (Option.mem_toList.2 executed))
    have first := h.perform here
    refine .cons first (ih first.state fun i executed => ?_)
    rw [settings_perform, settings_perform]
    exact agree i (List.mem_append_right _ executed)

end AlikeButSettings

variable [Display δ]

/-- The words that a run counts as skipped, each with the address from which it was fetched. -/
def skips (m : Machine δ) : List Command → List (Word × Nat)
  | [] => []
  | c :: rest =>
    let n := (m.perform c).state
    (if n.core.skipped = m.core.skipped then [] else [(m.core.fetch, m.core.pc)]) ++ skips n rest

theorem skipped_perform (m : Machine δ) (c : Command) :
    (m.perform c).state.core.skipped = m.core.skipped ∧
      (m.perform c).state.warnings = m.warnings ∨
    (m.perform c).state.core.skipped = m.core.skipped + 1 ∧
      (m.perform c).state.warnings = m.warnings ++
        if m.settings.reportSkipped then [.wordSkipped m.core.fetch m.core.pc] else [] := by
  cases c with
  | cycle =>
    have ended := m.cycled
    simp only [perform]
    generalize m.cycle = o at ended ⊢
    cases ended with
    | waits | misses | refuses => exact .inl ⟨rfl, rfl⟩
    | skips =>
      refine .inr ⟨?_, m.warnings_skipWord _⟩
      rw [Outcome.done, core_skipWord]
      rfl
    | executes _ _ executed => exact .inl ⟨Core.skipped_execute executed, rfl⟩
  | tick | releaseKeys => exact .inl ⟨rfl, rfl⟩
  | key key pressed =>
    simp only [perform, setKey]
    split
    · exact .inl ⟨Core.skipped_setKey m.core _ pressed, rfl⟩
    · exact .inl ⟨rfl, rfl⟩
  | load program =>
    simp only [perform, load]
    split
    · exact .inl ⟨rfl, rfl⟩
    · split
      · exact .inl ⟨rfl, rfl⟩
      · exact .inl ⟨rfl, warnings_note_of_ne (by simp [LogEntry.level]) _⟩
  | reset => exact .inl ⟨rfl, warnings_note_of_ne (by simp [LogEntry.level]) _⟩

theorem warnings_after (m : Machine δ) (cs : List Command) :
    (m.after cs).core.skipped = m.core.skipped + (m.skips cs).length ∧
    (m.after cs).warnings = m.warnings ++
      if m.settings.reportSkipped then (m.skips cs).map fun (w, pc) => .wordSkipped w pc else [] := by
  induction cs generalizing m with
  | nil => simp [after, skips]
  | cons c rest ih =>
    obtain ⟨counted, warned⟩ := ih (m.perform c).state
    rw [settings_perform] at warned
    rw [after_cons, counted, warned, skips]
    rcases m.skipped_perform c with ⟨same, silent⟩ | ⟨more, warns⟩
    · rw [same, silent, if_pos rfl, List.nil_append]
      exact ⟨rfl, rfl⟩
    · have grown : (m.perform c).state.core.skipped ≠ m.core.skipped := by omega
      rw [if_neg grown, more, warns, List.cons_append, List.nil_append, List.length_cons]
      refine ⟨by omega, ?_⟩
      cases m.settings.reportSkipped <;> simp

/-- Machines in the same state that differ in their settings go through the same states and meet the
same faults, if no instruction of the run reads a setting in which they differ. Whether skipped words
are reported is read by none, and decides only whether each of them is logged once, with the address
from which it was fetched. -/
theorem settings_are_local (m : Machine δ) (cs : List Command) :
    (∀ t : Settings, (∀ i ∈ m.executed cs, m.settings.AgreeOn t i.encode) →
      List.Forall₂ (Outcome.Alike AlikeButSettings) (m.performAll cs)
        ({ m with settings := t }.performAll cs)) ∧
    (∀ report : Bool, List.Forall₂ (Outcome.Alike AlikeButSettings) (m.performAll cs)
      ({ m with settings := { m.settings with reportSkipped := report } }.performAll cs)) ∧
    (m.after cs).core.skipped = m.core.skipped + (m.skips cs).length ∧
    (m.after cs).warnings = m.warnings ++
      if m.settings.reportSkipped then (m.skips cs).map fun (w, pc) => .wordSkipped w pc else [] := by
  have alike : ∀ t : Settings, AlikeButSettings m { m with settings := t } :=
    fun _ => ⟨rfl, rfl, rfl, rfl⟩
  refine ⟨fun t agree => (alike t).performAll cs agree, fun report => ?_, m.warnings_after cs⟩
  exact (alike _).performAll cs fun i _ => m.settings.agreeOn_reportSkipped report i.encode

theorem settings_are_local_turned :
    let m := create .modern (fun _ => 0) Plane.empty
    let n := { m with settings := ⟨true, true, true, true⟩ }
    let cs : List Command := [
      .load [0x5A, 0xB1, 0x8A, 0xA6, 0x8A, 0xB4, 0x00, 0xEE], .cycle, .key 99 true, .cycle, .tick,
      .cycle, .cycle]
    (m.performAll cs).map Outcome.fault = [none, none, some (.invalidKey 99), none, none, none,
      some (.stackUnderflow 0x206)] ∧
    List.Forall₂ (Outcome.Alike AlikeButSettings) (m.performAll cs) (n.performAll cs) ∧
    (n.after cs).core.skipped = 1 ∧ (n.after cs).warnings = [.wordSkipped 0x5AB1 0x200] := by
  intro m n cs
  have agree : ∀ i ∈ m.executed cs, m.settings.AgreeOn n.settings i.encode := by decide +kernel
  obtain ⟨_, _, counted, warned⟩ := settings_are_local n cs
  have skipped : n.skips cs = [(0x5AB1, 0x200)] := by decide +kernel
  rw [skipped] at counted warned
  exact ⟨by decide +kernel, (settings_are_local m cs).1 _ agree, counted, warned⟩

end Machine

end ChipEight
