import ChipEight.Proofs.MemoryStores
import ChipEight.Proofs.Representation

set_option autoImplicit false

namespace ChipEight

namespace Memory

/-- A memory that became `after` when a program was put there: a byte for each of its numbers, from
the start of programs on, and no other byte changed. -/
structure Copied (m : Memory) (program : List Int) (after : Memory) : Prop where
  holds : ∀ i z, program[i]? = some z → ((after.read (programStart + i)).toNat : Int) = z
  kept : ∀ a < memorySize, a < programStart ∨ programStart + program.length ≤ a →
    after.read a = m.read a

theorem copied_store (m : Memory) (bytes : List UInt8) (fits : bytes.length ≤ programCapacity) :
    m.Copied (bytes.map fun b => (b.toNat : Int)) (m.store programStart bytes) where
  holds i z found := by
    rw [List.getElem?_map, Option.map_eq_some_iff] at found
    obtain ⟨b, found, rfl⟩ := found
    have few : bytes.length ≤ i + 4096 := by
      simp only [programCapacity, memorySize, programStart] at fits
      omega
    rw [(m.filled_store programStart bytes).copied i b found few]
  kept a inside outside := by
    rw [List.length_map] at outside
    apply read_store_of_ne
    intro p hp
    simp only [programCapacity, memorySize, programStart] at *
    omega

theorem copied_nil (m : Memory) : m.Copied [] m where
  holds i z found := by simp at found
  kept _ _ _ := rfl

theorem Copied.read {m after : Memory} {program : List Int} (h : m.Copied program after) {k : Nat}
    (inside : k < programCapacity) : ((after.read (programStart + k)).toNat : Int) =
      program[k]?.getD (m.read (programStart + k)).toNat := by
  cases found : program[k]? with
  | some z => exact h.holds k z found
  | none =>
    have short : program.length ≤ k := List.getElem?_eq_none_iff.1 found
    have present : programStart + k < memorySize := by
      simp only [programCapacity, memorySize, programStart] at *
      omega
    rw [h.kept _ present (.inr (by omega)), Option.getD_none]

end Memory

namespace Machine

theorem isByte_iff {z : Int} : isByte z = true ↔ 0 ≤ z ∧ z ≤ 255 := by
  simp [isByte]

/-- What the loader takes of a program. -/
def accepted (program : List Int) : List Int :=
  if programCapacity < program.length then [] else program.takeWhile isByte

theorem split_at_first {program : List Int} {j : Nat} {z : Int} (found : program[j]? = some z)
    (stops : isByte z = false) (bytes : ∀ i < j, ∀ b, program[i]? = some b → isByte b = true) :
    program.takeWhile isByte = program.take j ∧ (program.dropWhile isByte).head? = some z := by
  obtain ⟨inside, rfl⟩ := List.getElem?_eq_some_iff.1 found
  have before : ∀ b ∈ program.take j, isByte b = true := by
    intro b hb
    obtain ⟨i, hi, rfl⟩ := List.mem_take_iff_getElem.1 hb
    exact bytes i (by omega) _ (List.getElem?_eq_getElem (by omega))
  have parts : program = program.take j ++ program[j] :: program.drop (j + 1) := by
    rw [← List.drop_eq_getElem_cons inside, List.take_append_drop]
  have stopsHere : ¬ isByte program[j] = true := by simp [stops]
  constructor
  · conv_lhs => rw [parts]
    rw [List.takeWhile_append_of_pos before, List.takeWhile_cons_of_neg stopsHere, List.append_nil]
  · conv_lhs => rw [parts]
    rw [List.dropWhile_append_of_pos before, List.dropWhile_cons_of_neg stopsHere, List.head?_cons]

variable {δ : Type}

theorem load_of_large (m : Machine δ) {program : List Int}
    (large : programCapacity < program.length) :
    m.load program = .failed (.programTooLarge program.length) m := by
  rw [load, if_pos large]

theorem load_of_fits (m : Machine δ) {program : List Int}
    (fits : program.length ≤ programCapacity) :
    ∃ memory, m.core.memory.Copied (program.takeWhile isByte) memory ∧
      m.load program = match (program.dropWhile isByte).head? with
        | some z => .failed (.notAByte z) { m with core := { m.core with memory } }
        | none => .done ({ m with core := { m.core with memory } }.note
            (.programLoaded program.length)) := by
  have taken := (List.takeWhile_prefix isByte (l := program)).length_le
  have copied := m.core.memory.copied_store
    ((program.takeWhile isByte).map fun value => UInt8.ofNat value.toNat)
    (by rw [List.length_map]; omega)
  rw [List.map_map] at copied
  have numbers := toNat_bytes program
  refine ⟨_, numbers ▸ copied, ?_⟩
  unfold load
  split
  · omega
  · cases (program.dropWhile isByte).head? <;> rfl

theorem copied_load (m : Machine δ) (program : List Int) :
    m.core.memory.Copied (accepted program) (m.load program).state.core.memory := by
  unfold accepted
  split
  · rename_i large
    rw [m.load_of_large large]
    exact m.core.memory.copied_nil
  · rename_i fits
    obtain ⟨memory, copied, loaded⟩ := m.load_of_fits (Nat.le_of_not_lt fits)
    rw [loaded]
    split <;> exact copied

theorem accepted_of_done {m : Machine δ} {program : List Int}
    (done : (m.load program).fault = none) : accepted program = program := by
  unfold accepted
  split
  · rename_i large
    rw [m.load_of_large large] at done
    simp [Outcome.failed] at done
  · rename_i fits
    obtain ⟨memory, copied, loaded⟩ := m.load_of_fits (Nat.le_of_not_lt fits)
    rw [loaded] at done
    split at done
    · simp [Outcome.failed] at done
    · rename_i nothingLeft
      rw [List.head?_eq_none_iff, List.dropWhile_eq_nil_iff] at nothingLeft
      exact List.takeWhile_eq_self_iff.2 nothingLeft

variable [Display δ]

/-- After any loads, refused ones among them, a cell holds what the latest of those that reached so
far put there. -/
theorem read_after_loads (programs : List (List Int)) (m : Machine δ) {k : Nat}
    (inside : k < programCapacity) :
    (((m.after (programs.map .load)).core.memory.read (programStart + k)).toNat : Int) =
      ((programs.map accepted).reverse.findSome? fun p => p[k]?).getD
        (m.core.memory.read (programStart + k)).toNat := by
  induction programs generalizing m with
  | nil => rfl
  | cons p rest ih =>
    -- What the first load leaves is the old value for the others, seen where none of them reaches.
    have first := (m.copied_load p).read inside
    rw [List.map_cons, after_cons, perform, ih, first, List.map_cons, List.reverse_cons,
      List.findSome?_append, List.findSome?_singleton, Option.getD_or]

/-- What loading a program does, for every program, and what stands in memory after some programs
were loaded one after the other. -/
theorem programs_reach_memory (m : Machine δ) (program : List Int) (programs : List (List Int)) :
    (programCapacity < program.length →
      m.load program = .failed (.programTooLarge program.length) m) ∧
    (program.length ≤ programCapacity → ∀ j z, program[j]? = some z → ¬ (0 ≤ z ∧ z ≤ 255) →
      (∀ i < j, ∀ b, program[i]? = some b → 0 ≤ b ∧ b ≤ 255) →
      ∃ memory, m.core.memory.Copied (program.take j) memory ∧
        m.load program = .failed (.notAByte z) { m with core := { m.core with memory } }) ∧
    (program.length ≤ programCapacity → (∀ z ∈ program, 0 ≤ z ∧ z ≤ 255) →
      ∃ memory, m.core.memory.Copied program memory ∧
        m.load program = .done ({ m with core := { m.core with memory } }.note
          (.programLoaded program.length))) ∧
    ((∀ o ∈ m.performAll (programs.map .load), o.fault = none) → ∀ k < programCapacity,
      (((m.after (programs.map .load)).core.memory.read (programStart + k)).toNat : Int) =
        (programs.reverse.findSome? fun p => p[k]?).getD
          (m.core.memory.read (programStart + k)).toNat) := by
  refine ⟨m.load_of_large, fun fits j z found wrong first => ?_, fun fits bytes => ?_,
    fun done k inside => ?_⟩
  · have stops : isByte z = false := by
      rw [← Bool.not_eq_true, isByte_iff]
      exact wrong
    obtain ⟨taken, head⟩ := split_at_first found stops fun i hi b hb =>
      isByte_iff.2 (first i hi b hb)
    obtain ⟨memory, copied, loaded⟩ := m.load_of_fits fits
    rw [taken] at copied
    rw [head] at loaded
    exact ⟨memory, copied, loaded⟩
  · have all : ∀ z ∈ program, isByte z = true := fun z hz => isByte_iff.2 (bytes z hz)
    obtain ⟨memory, copied, loaded⟩ := m.load_of_fits fits
    rw [List.takeWhile_eq_self_iff.2 all] at copied
    rw [List.dropWhile_eq_nil_iff.2 all] at loaded
    exact ⟨memory, copied, loaded⟩
  · have whole : ∀ p ∈ programs, accepted p = p := by
      intro p hp
      obtain ⟨earlier, later, rfl⟩ := List.append_of_mem hp
      apply accepted_of_done (m := m.after (earlier.map .load))
      apply done
      exact mem_performAll.2 ⟨earlier.map .load, .load p, later.map .load, by simp, rfl⟩
    rw [read_after_loads programs m inside, List.map_congr_left whole, List.map_id']

/-- A program that is one number too long, one that fills memory to its end, one that stops at a
number, and four programs of which the later ones are shorter. -/
theorem programs_reach_memory_overlapping :
    let m := create .modern (fun _ => 0) Plane.empty
    let programs : List (List Int) := [[1, 2, 3], [], [4, 255], [5]]
    let n := m.after (programs.map .load)
    m.load (List.replicate 3585 0) = .failed (.programTooLarge 3585) m ∧
      (∃ memory, m.load (List.replicate 3584 0xAB) =
          .done ({ m with core := { m.core with memory } }.note (.programLoaded 3584)) ∧
        ((memory.read 0xFFF).toNat : Int) = 0xAB ∧ memory.read 0x1FF = 0) ∧
      (∃ memory, m.load [0x60, 7, 256, 0xEE] =
          .failed (.notAByte 256) { m with core := { m.core with memory } } ∧
        ((memory.read 0x201).toNat : Int) = 7 ∧ memory.read 0x203 = 0) ∧
      (∀ o ∈ m.performAll (programs.map .load), o.fault = none) ∧
      ((n.core.memory.read 0x200).toNat : Int) = 5 ∧
      ((n.core.memory.read 0x201).toNat : Int) = 255 ∧
      ((n.core.memory.read 0x202).toNat : Int) = 3 ∧
      ((n.core.memory.read 0x203).toNat : Int) = 0 := by
  intro m programs n
  have rest : ∀ a ∈ [0x1FF, 0x203], m.core.memory.read a = 0 := by decide +kernel
  obtain ⟨large, -⟩ := programs_reach_memory m (List.replicate 3585 0) []
  obtain ⟨-, -, full, -⟩ := programs_reach_memory m (List.replicate 3584 0xAB) []
  obtain ⟨-, stops, -, last⟩ := programs_reach_memory m [0x60, 7, 256, 0xEE] programs
  simp only [List.length_replicate] at large full
  obtain ⟨filled, copied, loaded⟩ := full (by decide) fun z hz => by
    rw [List.eq_of_mem_replicate hz]
    decide
  obtain ⟨part, copied', stopped⟩ := stops (by decide) 2 256 rfl (by decide) (by decide)
  have done : ∀ o ∈ m.performAll (programs.map .load), o.fault = none := by decide +kernel
  have cells := last done
  refine ⟨large (by decide), ⟨filled, loaded, ?_, ?_⟩, ⟨part, stopped, ?_, ?_⟩, done, cells 0 ?_,
    cells 1 ?_, cells 2 ?_, ?_⟩
  · exact copied.holds 3583 0xAB (List.getElem?_replicate_of_lt (by decide))
  · exact (copied.kept 0x1FF (by decide) (.inl (by decide))).trans (rest _ (by decide))
  · exact copied'.holds 1 7 rfl
  · exact (copied'.kept 0x203 (by decide) (.inr (by decide))).trans (rest _ (by decide))
  · decide
  · decide
  · decide
  · have blank : m.core.memory.read (programStart + 3) = 0 := rest 0x203 (by decide)
    have unwritten := cells 3 (by decide)
    rw [blank] at unwritten
    exact unwritten

end Machine

end ChipEight
