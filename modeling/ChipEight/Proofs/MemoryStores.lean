import ChipEight.Proofs.WriteSets

set_option autoImplicit false

namespace ChipEight

namespace Memory

/-- A memory that became `after` when the bytes were stored from `a` on, one after the other and
around the end of memory. Of more than 4096 bytes the last ones are there. -/
structure Filled (m : Memory) (a : Nat) (bs : List UInt8) (after : Memory) : Prop where
  copied : ∀ p b, bs[p]? = some b → bs.length ≤ p + 4096 → after.read (a + p) = b
  kept : ∀ c, (∀ p < bs.length, (a + p) % 4096 ≠ c % 4096) → after.read c = m.read c

theorem store_append (m : Memory) (a : Nat) (bs cs : List UInt8) :
    m.store a (bs ++ cs) = (m.store a bs).store (a + bs.length) cs := by
  induction bs generalizing m a with
  | nil => rfl
  | cons b rest ih =>
    rw [List.cons_append, store_cons, ih, store_cons, List.length_cons, Nat.add_assoc,
      Nat.add_comm 1]

theorem read_store_of_ne (bs : List UInt8) (m : Memory) (a c : Nat)
    (outside : ∀ p < bs.length, (a + p) % 4096 ≠ c % 4096) : (m.store a bs).read c = m.read c := by
  induction bs generalizing m a with
  | nil => rfl
  | cons b rest ih =>
    have here : a % 4096 ≠ c % 4096 := outside 0 (by simp)
    rw [store_cons, ih, read_write, if_neg here]
    intro p hp
    have later := outside (p + 1) (by simpa using hp)
    rwa [Nat.add_assoc, Nat.add_comm 1]

theorem filled_store (m : Memory) (a : Nat) (bs : List UInt8) : m.Filled a bs (m.store a bs) where
  copied p b found last := by
    -- Only the last 4096 bytes count, and among them no address comes twice.
    have short : (bs.drop (bs.length - 4096)).length ≤ 4096 := by
      rw [List.length_drop]
      omega
    have inside : p < bs.length := (List.getElem?_eq_some_iff.1 found).1
    have start : (bs.take (bs.length - 4096)).length = bs.length - 4096 := by
      rw [List.length_take]
      omega
    have place : a + p = a + (bs.length - 4096) + (p - (bs.length - 4096)) := by omega
    have position : bs.length - 4096 + (p - (bs.length - 4096)) = p := by omega
    rw [← List.take_append_drop (bs.length - 4096) bs, store_append, start,
      read_store _ _ _ _ short, place, distance_add (by omega), List.getElem?_drop, position, found]
    rfl
  kept c outside := read_store_of_ne bs m a c outside

end Memory

def Bank.upTo {α : Type} (b : Bank α) (x : Fin 16) : List α :=
  (List.range (x + 1)).map fun k => b.read (Fin.ofNat 16 k)

theorem Bank.length_upTo {α : Type} (b : Bank α) (x : Fin 16) : (b.upTo x).length = x + 1 := by
  simp [upTo]

theorem Bank.getElem?_upTo {α : Type} (b : Bank α) {x k : Fin 16} (h : k ≤ x) :
    (b.upTo x)[k.val]? = some (b.read k) := by
  have bound := k.isLt
  have covered : k.val < x.val + 1 := by omega
  have same : Fin.ofNat 16 k.val = k := Fin.ext (Nat.mod_eq_of_lt bound)
  rw [upTo, List.getElem?_map, List.getElem?_range covered, Option.map_some, same]

namespace Core

theorem block_eq (c : Core) (x : Fin 16) : c.block x = c.v.upTo x := by
  have bound := x.isLt
  apply List.ext_getElem
  · rw [Bank.length_upTo, block, List.length_take, Vector.length_toList]
    omega
  · intro k hk _
    have low : k < 16 := by
      rw [block, List.length_take, Vector.length_toList] at hk
      omega
    simp [block, Bank.upTo, Bank.read, Nat.mod_eq_of_lt low]

theorem toNat_indexPast (s : Settings) (c : Core) (x : Fin 16) : (c.indexPast s x).toNat =
    if s.advanceIndex then (c.index.toNat + x + 1) % 65536 else c.index.toNat := by
  unfold indexPast
  split
  · rw [UInt16.toNat_add, UInt16.toNat_ofNat']
    omega
  · rfl

theorem exists_decimalDigits (b : UInt8) : ∃ d₀ d₁ d₂ : UInt8, decimalDigits b = [d₀, d₁, d₂] ∧
    d₀ ≤ 9 ∧ d₁ ≤ 9 ∧ d₂ ≤ 9 ∧ 100 * d₀.toNat + 10 * d₁.toNat + d₂.toNat = b.toNat := by
  have bound := b.toNat_lt
  have hundreds : (b / 100).toNat = b.toNat / 100 := UInt8.toNat_div ..
  have tens : (b / 10 % 10).toNat = b.toNat / 10 % 10 := UInt8.toNat_mod ..
  have ones : (b % 10).toNat = b.toNat % 10 := UInt8.toNat_mod ..
  have nine : (9 : UInt8).toNat = 9 := rfl
  simp only [UInt8.le_iff_toNat_le]
  exact ⟨_, _, _, rfl, by omega, by omega, by omega, by omega⟩

theorem memory_setKey (c : Core) (key : Fin 16) (pressed : Bool) :
    (c.setKey key pressed).memory = c.memory := by
  cases pressed with
  | false => rfl
  | true =>
    simp only [setKey, endWait, if_true]
    split <;> rfl

theorem read_font {k : Nat} {b : UInt8} (glyph : Font.bytes[k]? = some b) :
    powerOn.memory.read (Font.start + k) = b := by
  have few : Font.bytes.length ≤ k + 4096 := by
    rw [Font.length_bytes]
    omega
  exact (Memory.filled_store _ _ _).copied k b glyph few

def StoresTo (c : Core) (a : Nat) : Prop :=
  let w := c.fetch
  w.HasForm "Fx33" ∧ (∃ k < 3, (c.index.toNat + k) % 4096 = a) ∨
    w.HasForm "Fx55" ∧ ∃ k ≤ w.x.val, (c.index.toNat + k) % 4096 = a

end Core

namespace Instruction

theorem eq_decimal_of_form {i : Instruction} (h : i.form = "Fx33") : ∃ x, i = decimal x := by
  cases i with
  | decimal x => exact ⟨x, rfl⟩
  | combine op => cases op <;> simp [form] at h
  | _ => simp [form] at h

theorem eq_save_of_form {i : Instruction} (h : i.form = "Fx55") : ∃ x, i = save x := by
  cases i with
  | save x => exact ⟨x, rfl⟩
  | combine op => cases op <;> simp [form] at h
  | _ => simp [form] at h

theorem eq_encode_decimal {w : Word} (has : w.HasForm "Fx33") : w = (decimal w.x).encode := by
  obtain ⟨i, rfl, form⟩ := exists_of_hasForm (by simp [forms]) has
  obtain ⟨x, rfl⟩ := eq_decimal_of_form form
  simp only [encode, Word.x_ofByte, Nat.reduceLT]

theorem eq_encode_save {w : Word} (has : w.HasForm "Fx55") : w = (save w.x).encode := by
  obtain ⟨i, rfl, form⟩ := exists_of_hasForm (by simp [forms]) has
  obtain ⟨x, rfl⟩ := eq_save_of_form form
  simp only [encode, Word.x_ofByte, Nat.reduceLT]

end Instruction

namespace Machine

variable {δ : Type}

theorem memory_load (m : Machine δ) (program : List Int) : ∃ bytes : List UInt8,
    bytes.length ≤ programCapacity ∧
      (m.load program).state.core.memory = m.core.memory.store programStart bytes := by
  unfold load
  split
  · exact ⟨[], Nat.zero_le _, rfl⟩
  · rename_i fits
    have accepted := (List.takeWhile_prefix isByte (l := program)).length_le
    refine ⟨(program.takeWhile isByte).map fun value => UInt8.ofNat value.toNat, ?_, ?_⟩
    · rw [List.length_map]
      omega
    · dsimp only
      split <;> rfl

theorem read_load (m : Machine δ) (program : List Int) {a : Nat} (low : a < programStart) :
    (m.load program).state.core.memory.read a = m.core.memory.read a := by
  obtain ⟨bytes, short, stored⟩ := m.memory_load program
  simp only [programCapacity, memorySize, programStart] at short low
  rw [stored]
  apply Memory.read_store_of_ne
  intro p hp
  simp only [programStart]
  omega

variable [Display δ]

theorem memory_cycle_of_waits {m : Machine δ} (waits : m.core.wait ≠ none) :
    m.cycle.state.core.memory = m.core.memory := by
  obtain ⟨x, waits⟩ := Option.ne_none_iff_exists'.1 waits
  rw [cycle, waits]
  rfl

theorem memory_cycle_of_other {m : Machine δ} (other : ¬ m.core.fetch.HasAny ["Fx33", "Fx55"]) :
    m.cycle.state.core.memory = m.core.memory :=
  (m.same_cycle .memory).resolve_right other

theorem cycle_decimal {m : Machine δ} (awake : m.core.wait = none)
    (has : m.core.fetch.HasForm "Fx33") : m.cycle = .done { m with
      core := { m.core with
        memory := m.core.memory.store m.core.index.toNat
          (Core.decimalDigits (m.core.v.read m.core.fetch.x))
        pc := m.core.pc + 2 } } :=
  cycle_of_execute awake (Instruction.eq_encode_decimal has) rfl rfl

theorem cycle_save {m : Machine δ} (awake : m.core.wait = none)
    (has : m.core.fetch.HasForm "Fx55") : m.cycle = .done { m with
      core := { m.core with
        memory := m.core.memory.store m.core.index.toNat (m.core.block m.core.fetch.x)
        index := m.core.indexPast m.settings m.core.fetch.x
        pc := m.core.pc + 2 } } :=
  cycle_of_execute awake (Instruction.eq_encode_save has) rfl rfl

theorem read_cycle_of_spared {m : Machine δ} {a : Nat}
    (spared : m.core.wait = none → ¬ m.core.StoresTo (a % 4096)) :
    m.cycle.state.core.memory.read a = m.core.memory.read a := by
  by_cases awake : m.core.wait = none
  · simp only [Core.StoresTo, not_or, not_and, not_exists] at spared
    obtain ⟨digits, block⟩ := spared awake
    by_cases decimal : m.core.fetch.HasForm "Fx33"
    · rw [cycle_decimal awake decimal]
      exact Memory.read_store_of_ne _ _ _ _ (digits decimal)
    · by_cases save : m.core.fetch.HasForm "Fx55"
      · rw [cycle_save awake save]
        apply Memory.read_store_of_ne
        intro p hp
        rw [Core.block_eq, Bank.length_upTo] at hp
        exact block save p (by omega)
      · rw [memory_cycle_of_other]
        simp [Word.HasAny, decimal, save]
  · rw [memory_cycle_of_waits awake]

theorem read_perform_of_spared {m : Machine δ} {c : Command} {k : Nat} {b : UInt8}
    (glyph : Font.bytes[k]? = some b) (stands : m.core.memory.read (Font.start + k) = b)
    (spared : c = .cycle → m.core.wait = none → ¬ m.core.StoresTo (Font.start + k)) :
    (m.perform c).state.core.memory.read (Font.start + k) = b := by
  have few : k < 80 := (List.getElem?_eq_some_iff.1 glyph).1
  have low : Font.start + k < programStart := by
    simp only [Font.start, programStart]
    omega
  cases c with
  | cycle =>
    have here : (Font.start + k) % 4096 = Font.start + k :=
      Nat.mod_eq_of_lt (Nat.lt_trans low (by decide))
    have kept := read_cycle_of_spared (a := Font.start + k) (here.symm ▸ spared rfl)
    exact kept.trans stands
  | tick | releaseKeys => exact stands
  | key key pressed =>
    simp only [perform, setKey]
    split
    · rw [Outcome.done, Core.memory_setKey]
      exact stands
    · exact stands
  | load program => exact (m.read_load program low).trans stands
  | reset => exact Core.read_font glyph

theorem read_after {k : Nat} {b : UInt8} (glyph : Font.bytes[k]? = some b) (cs : List Command)
    {m : Machine δ} (stands : m.core.memory.read (Font.start + k) = b) :
    (m.after cs).core.memory.read (Font.start + k) = b ∨
      ∃ earlier later, cs = earlier ++ .cycle :: later ∧ (m.after earlier).core.wait = none ∧
        (m.after earlier).core.StoresTo (Font.start + k) := by
  induction cs generalizing m with
  | nil => exact .inl stands
  | cons c rest ih =>
    by_cases stored : c = .cycle ∧ m.core.wait = none ∧ m.core.StoresTo (Font.start + k)
    · obtain ⟨rfl, awake, here⟩ := stored
      exact .inr ⟨[], rest, rfl, awake, here⟩
    · have spared : c = .cycle → m.core.wait = none → ¬ m.core.StoresTo (Font.start + k) :=
        fun same awake here => stored ⟨same, awake, here⟩
      have next := read_perform_of_spared glyph stands spared
      rcases ih next with whole | ⟨earlier, later, split, hit⟩
      · exact .inl whole
      · exact .inr ⟨c :: earlier, later, by rw [split, List.cons_append], hit⟩

/-- What a cycle writes to memory, and what of the font stands after any run from power-on. -/
theorem two_words_write_memory (m : Machine δ) (settings : Settings) (random : Nat → UInt8) (d : δ)
    (cs : List Command) :
    let w := m.core.fetch
    let i := m.core.index.toNat
    let n := m.cycle.state.core
    let start := create settings random d
    (m.core.wait = none → w.HasForm "Fx33" → m.cycle.fault = none ∧ n.index.toNat = i ∧
      ∃ d₀ d₁ d₂ : UInt8, d₀ ≤ 9 ∧ d₁ ≤ 9 ∧ d₂ ≤ 9 ∧
        100 * d₀.toNat + 10 * d₁.toNat + d₂.toNat = (m.core.v.read w.x).toNat ∧
        m.core.memory.Filled i [d₀, d₁, d₂] n.memory) ∧
    (m.core.wait = none → w.HasForm "Fx55" → m.cycle.fault = none ∧
      n.index.toNat = (if m.settings.advanceIndex then (i + w.x + 1) % 65536 else i) ∧
      m.core.memory.Filled i (m.core.v.upTo w.x) n.memory) ∧
    (m.core.wait ≠ none ∨ ¬ w.HasAny ["Fx33", "Fx55"] → n.memory = m.core.memory) ∧
    ∀ k b, Font.bytes[k]? = some b →
      (start.after cs).core.memory.read (Font.start + k) = b ∨
        ∃ earlier later, cs = earlier ++ .cycle :: later ∧
          (start.after earlier).core.wait = none ∧
          (start.after earlier).core.StoresTo (Font.start + k) := by
  intro w i n start
  refine ⟨fun awake has => ?_, fun awake has => ?_, ?_, fun k b glyph => ?_⟩
  · obtain ⟨d₀, d₁, d₂, digits, le₀, le₁, le₂, sum⟩ := Core.exists_decimalDigits (m.core.v.read w.x)
    simp only [n, cycle_decimal awake has]
    refine ⟨rfl, rfl, d₀, d₁, d₂, le₀, le₁, le₂, sum, ?_⟩
    rw [← digits]
    exact Memory.filled_store ..
  · simp only [n, cycle_save awake has]
    refine ⟨rfl, Core.toNat_indexPast .., ?_⟩
    rw [← Core.block_eq]
    exact Memory.filled_store ..
  · rintro (waits | other)
    · exact memory_cycle_of_waits waits
    · exact memory_cycle_of_other other
  · exact read_after glyph cs (Core.read_font glyph)

/-- Digits and a block that go around the end of memory, and a program that stores zeros over the
end of the font. -/
theorem two_words_write_memory_around :
    let core := { Core.powerOn with v := Vector.replicate 16 123, index := 0xFFFF }
    let digits := poised core 0xF533
    let block := { poised core 0xFF55 with settings := ⟨false, true, false, false⟩ }
    let start := create .modern (fun _ => 0) Plane.empty
    let cs : List Command := [.load [0xA0, 0x90, 0xFF, 0x55], .cycle, .tick, .cycle]
    digits.cycle.fault = none ∧
      (∃ d₀ d₁ d₂ : UInt8, 100 * d₀.toNat + 10 * d₁.toNat + d₂.toNat = 123 ∧
        digits.cycle.state.core.memory.read 0xFFF = d₀ ∧
        digits.cycle.state.core.memory.read 1 = d₂ ∧
        digits.cycle.state.core.memory.read 2 = 0) ∧
      block.cycle.state.core.index.toNat = 15 ∧ block.cycle.state.core.memory.read 14 = 123 ∧
      (start.after cs).core.memory.read (Font.start + 79) = 0 ∧
      ∃ earlier later, cs = earlier ++ .cycle :: later ∧ (start.after earlier).core.wait = none ∧
        (start.after earlier).core.StoresTo (Font.start + 79) := by
  intro core digits block start cs
  have first : digits.core.fetch = 0xF533 := Core.fetch_withWord _ _
  have second : block.core.fetch = 0xFF55 := Core.fetch_withWord _ _
  obtain ⟨writesDigits, _, _, font⟩ :=
    two_words_write_memory digits .modern (fun _ => 0) Plane.empty cs
  obtain ⟨_, writesBlock, _⟩ := two_words_write_memory block .modern (fun _ => 0) Plane.empty cs
  have powered : start = create .modern (fun _ => 0) Plane.empty := rfl
  rw [first] at writesDigits
  rw [second] at writesBlock
  rw [← powered] at font
  obtain ⟨done, _, d₀, d₁, d₂, _, _, _, sum, filled⟩ := writesDigits rfl (by decide)
  obtain ⟨_, index, stored⟩ := writesBlock rfl (by decide)
  have last : digits.core.index.toNat = 0xFFFF := rfl
  rw [last] at filled
  have apart : ∀ p < 3, (0xFFFF + p) % 4096 ≠ 2 % 4096 := by decide
  have erased : (start.after cs).core.memory.read (Font.start + 79) = 0 := by decide +kernel
  have lost : (start.after cs).core.memory.read (Font.start + 79) ≠ 0x80 := by
    rw [erased]
    decide
  have hit := (font 79 0x80 rfl).resolve_left lost
  refine ⟨done, ⟨d₀, d₁, d₂, sum, ?_, ?_, ?_⟩, index.trans (by decide +kernel), ?_, erased, hit⟩
  · exact (Memory.read_congr _ (by decide)).trans (filled.copied 0 d₀ rfl (by simp))
  · exact (Memory.read_congr _ (by decide)).trans (filled.copied 2 d₂ rfl (by simp))
  · exact (filled.kept 2 apart).trans (by decide +kernel)
  · exact (Memory.read_congr _ (by decide)).trans (stored.copied 15 123 rfl (by decide))

end Machine

end ChipEight
