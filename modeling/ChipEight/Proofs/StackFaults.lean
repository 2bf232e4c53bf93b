import ChipEight.Proofs.Cycle
import ChipEight.Proofs.Interchange

set_option autoImplicit false

namespace ChipEight

namespace Core

def Refuses (c : Core) : Fault → Prop
  | .stackUnderflow pc => c.fetch = 0x00EE ∧ c.stack.depth = 0 ∧ pc = c.pc
  | .stackOverflow target pc => c.fetch = .ofAddress 0x2 target ∧ c.stack.depth = 16 ∧ pc = c.pc
  | .returnTooWide pc =>
    (∃ target, c.fetch = .ofAddress 0x2 target) ∧ c.stack.depth ≠ 16 ∧ 0xFFFF < c.pc ∧ pc = c.pc
  | _ => False

variable {s : Settings} {random : Nat → UInt8} {hit : Bool} {c : Core} {f : Fault}

theorem refuses_of_error {i : Instruction} (fetched : c.fetch = i.encode)
    (h : c.execute s random hit i = .error f) : c.Refuses f := by
  rcases execute_eq_error h with ⟨target, rfl, failed⟩ | ⟨rfl, failed⟩
  · rcases call_eq_error_iff.1 failed with ⟨full, rfl⟩ | ⟨room, wide, rfl⟩
    · exact ⟨fetched, full, rfl⟩
    · exact ⟨⟨target, fetched⟩, room, wide, rfl⟩
  · obtain ⟨bare, rfl⟩ := ret_eq_error_iff.1 failed
    exact ⟨fetched, bare, rfl⟩

theorem error_of_refuses (h : c.Refuses f) :
    ∃ i : Instruction, c.fetch = i.encode ∧ c.execute s random hit i = .error f := by
  cases f with
  | stackUnderflow pc =>
    obtain ⟨fetched, bare, rfl⟩ := h
    exact ⟨.ret, fetched, ret_eq_error_iff.2 ⟨bare, rfl⟩⟩
  | stackOverflow target pc =>
    obtain ⟨fetched, full, rfl⟩ := h
    exact ⟨.call target, fetched, call_eq_error_iff.2 (.inl ⟨full, rfl⟩)⟩
  | returnTooWide pc =>
    obtain ⟨⟨target, fetched⟩, room, wide, rfl⟩ := h
    exact ⟨.call target, fetched, call_eq_error_iff.2 (.inr ⟨room, wide, rfl⟩)⟩
  | _ => exact h.elim

end Core

namespace Machine

variable {δ : Type} [Display δ] {m : Machine δ} {f : Fault}

theorem cycle_of_refuses (awake : m.core.wait = none) (h : m.core.Refuses f) :
    m.cycle = .failed f m := by
  obtain ⟨i, fetched, refused⟩ : ∃ i : Instruction, m.core.fetch = i.encode ∧
      m.core.execute m.settings m.random false i = .error f := Core.error_of_refuses h
  rw [cycle_of_fetch awake fetched]
  unfold execute
  simp only [paint_of_error refused, refused]

theorem cycle_failed (h : m.cycle.fault = some f) :
    m.core.wait = none ∧
      (m.core.Refuses f ∧ m.cycle.state = m ∨
        ∃ cell x y rows, f = .outsideDisplay cell ∧ m.core.fetch = .ofDigits 0xD x y rows ∧
          m.cycle.state = { m with display := m.cycle.state.display }) := by
  have ended := m.cycled
  generalize m.cycle = o at ended h ⊢
  cases ended with
  | waits | skips | executes => simp [Outcome.done] at h
  | @misses x y rows awake fetched cell d missing =>
    obtain rfl : Fault.outsideDisplay cell = f := Option.some.inj h
    exact ⟨awake, .inr ⟨cell, x, y, rows, rfl, fetched, rfl⟩⟩
  | refuses awake fetched refused =>
    obtain rfl := Option.some.inj h
    exact ⟨awake, .inl ⟨Core.refuses_of_error fetched refused, rfl⟩⟩

theorem performAll_replicate_of_failed (h : m.cycle = .failed f m) (n : Nat) :
    m.performAll (List.replicate n .cycle) = List.replicate n (.failed f m) := by
  induction n with
  | zero => rfl
  | succ n ih =>
    have again : m.perform .cycle = .failed f m := h
    simp only [List.replicate_succ, performAll, again, Outcome.failed] at ih ⊢
    rw [ih]

variable {lit : δ → Cell → Bool}

/-- On a display that shows the picture, a cycle fails exactly if the core refuses the word, it
leaves everything as it was, and so do all further cycles, with the same fault. On any other display
a drawing instruction may also fail, and then nothing but the display has changed. -/
theorem cycle_fault_iff (shows : ShowsPicture δ lit) :
    (∀ (m : Machine δ) (f : Fault),
      m.cycle.fault = some f ↔ m.core.wait = none ∧ m.core.Refuses f) ∧
    (∀ (m : Machine δ) (f : Fault), m.cycle.fault = some f →
      m.cycle.state = m ∧
        ∀ n, m.performAll (List.replicate n .cycle) = List.replicate n (.failed f m)) ∧
    ∀ (ε : Type) [Display ε] (m : Machine ε) (f : Fault), m.cycle.fault = some f →
      m.core.Refuses f ∧ m.cycle.state = m ∨
        ∃ cell x y rows, f = .outsideDisplay cell ∧ m.core.fetch = .ofDigits 0xD x y rows ∧
          m.cycle.state = { m with display := m.cycle.state.display } := by
  have refused : ∀ (m : Machine δ) (f : Fault), m.cycle.fault = some f →
      m.core.wait = none ∧ m.core.Refuses f := by
    intro m f failed
    obtain ⟨awake, ⟨refuses, _⟩ | ⟨cell, _, _, _, rfl, _⟩⟩ := cycle_failed failed
    · exact ⟨awake, refuses⟩
    · exact absurd failed (perform_ne_outside shows m .cycle cell)
  refine ⟨fun m f => ⟨refused m f, fun ⟨awake, refuses⟩ => ?_⟩, fun m f failed => ?_,
    fun ε _ m f failed => (cycle_failed failed).2⟩
  · rw [cycle_of_refuses awake refuses]
    rfl
  · obtain ⟨awake, refuses⟩ := refused m f failed
    have again := cycle_of_refuses awake refuses
    exact ⟨by rw [again]; rfl, performAll_replicate_of_failed again⟩

/-- A call at an address beyond sixteen bits, with a full stack; and a glyph drawn over the right
side of a small text screen. -/
theorem cycle_fault_of_full_stack :
    let full : CallStack := ⟨Vector.replicate 16 0x2FE, 16⟩
    let m := poised { Core.powerOn with pc := 0x10000, stack := full } (Word.ofAddress 0x2 0x345)
    let corner := { Core.powerOn with v := Vector.replicate 16 12, index := 0x50 }
    let t : Machine (TextScreen 14 13) :=
      ⟨.modern, fun _ => 0, corner.withWord (Word.ofDigits 0xD 0 0 1), .create 14 13 false, #[]⟩
    m.cycle.fault = some (.stackOverflow 0x345 0x10000) ∧ m.cycle.state = m ∧
      m.performAll (List.replicate 3 .cycle) =
        List.replicate 3 (.failed (.stackOverflow 0x345 0x10000) m) ∧
      t.cycle.fault = some (.outsideDisplay ⟨14, 12⟩) ∧
      t.cycle.state = { t with display := t.cycle.state.display } := by
  intro full m corner t
  obtain ⟨characterised, kept, elsewhere⟩ := cycle_fault_iff Plane.showsPicture
  have fetched : m.core.fetch = .ofAddress 0x2 0x345 := Core.fetch_withWord _ _
  have failed : m.cycle.fault = some (.stackOverflow 0x345 0x10000) :=
    (characterised m _).2 ⟨rfl, fetched, rfl, rfl⟩
  obtain ⟨same, again⟩ := kept m _ failed
  have drawing : t.core.fetch = (Instruction.draw 0 0 1).encode := Core.fetch_withWord _ _
  have cells : (t.core.sprite 0 0 1).cells = [⟨12, 12⟩, ⟨13, 12⟩, ⟨14, 12⟩, ⟨15, 12⟩] := by
    decide +kernel
  have missed : t.cycle.fault = some (.outsideDisplay ⟨14, 12⟩) := by
    rw [cycle_of_fetch rfl drawing]
    unfold execute
    simp only [Core.paint, cells]
    rfl
  rcases elsewhere _ t _ missed with ⟨refused, _⟩ | ⟨_, _, _, _, _, _, left⟩
  · exact refused.elim
  · exact ⟨failed, same, again 3, missed, left⟩

end Machine

end ChipEight
