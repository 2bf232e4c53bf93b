import ChipEight.Proofs.CounterWidth
import ChipEight.Proofs.KeyWait

set_option autoImplicit false

/-!
# A program that outruns sixteen bits

Words that are no instructions are passed over one by one, and at the end of memory execution comes
around to its start, while the program counter has grown by 4096. The built-in font would divert it:
its bytes read as a call and as jumps. So the program here writes zeros over the font, in every lap
anew, and sixteen laps take the program counter beyond sixteen bits. A key that is held down then
leads it to a call, for which no slot of the stack is wide enough.
-/
namespace ChipEight

open Machine (Command)

namespace Memory

def bytes (w : Word) : List UInt8 := [UInt8.ofNat (w.toNat / 256), UInt8.ofNat w.toNat]

def assemble (code : List Instruction) : List UInt8 := code.flatMap fun i => bytes i.encode

def Holds (m : Memory) (a : Nat) (code : List Instruction) : Prop :=
  ∀ k i, code[k]? = some i → m.word (a + 2 * k) = i.encode

theorem length_assemble (code : List Instruction) : (assemble code).length = 2 * code.length := by
  induction code with
  | nil => rfl
  | cons i rest ih =>
    rw [assemble, List.flatMap_cons, List.length_append, ← assemble, ih]
    simp only [bytes, List.length_cons, List.length_nil]
    omega

theorem getElem?_assemble {code : List Instruction} {k : Nat} {i : Instruction}
    (h : code[k]? = some i) :
    (assemble code)[2 * k]? = some (UInt8.ofNat (i.encode.toNat / 256)) ∧
      (assemble code)[2 * k + 1]? = some (UInt8.ofNat i.encode.toNat) := by
  induction code generalizing k with
  | nil => simp at h
  | cons j rest ih =>
    cases k with
    | zero =>
      obtain rfl : j = i := by simpa using h
      exact ⟨rfl, rfl⟩
    | succ k => exact ih h

theorem holds_store (m : Memory) (a : Nat) (code : List Instruction) (h : 2 * code.length ≤ 4096) :
    (m.store a (assemble code)).Holds a code := by
  intro k i found
  obtain ⟨high, low⟩ := getElem?_assemble found
  have short := (List.getElem?_eq_some_iff.1 found).1
  have fits : (assemble code).length ≤ 4096 := by rw [length_assemble]; exact h
  have bound := i.encode.toNat_lt
  apply UInt16.toNat.inj
  rw [toNat_word, Nat.add_assoc, read_store _ _ _ _ fits, read_store _ _ _ _ fits,
    distance_add (by omega), distance_add (by omega), high, low]
  simp only [Option.getD_some, UInt8.toNat_ofNat']
  omega

end Memory

namespace Core

/-- The font is overwritten in five blocks. As long as key zero is up, the call is skipped. -/
def circuit : List Instruction := [
  .setIndex 0x50, .save 15, .setIndex 0x60, .save 15, .setIndex 0x70, .save 15,
  .setIndex 0x80, .save 15, .setIndex 0x90, .save 15, .skipUnlessKey 0, .call 0x200]

theorem circuit_block : ∀ k < 5,
    circuit[2 * k]? = some (.setIndex (Fin.ofNat 4096 (0x50 + 16 * k))) ∧
      circuit[2 * k + 1]? = some (.save 15) := by
  decide

/-- What stays as it is from lap to lap. Bytes of the font are zero up to the address `erased`. -/
structure Circling (held : Bool) (erased : Nat) (c : Core) : Prop where
  awake : c.wait = none
  v : c.v = Vector.replicate 16 0
  key : c.keys.read 0 = held
  stack : c.stack = .empty
  program : c.memory.Holds programStart circuit
  blank : ∀ a, a < 4096 → a < erased ∨ 0xA0 ≤ a → a < 0x200 ∨ 0x218 ≤ a → c.memory.read a = 0

variable {held : Bool} {erased : Nat} {c : Core}

theorem Circling.fetch {k : Nat} {i : Instruction} (h : Circling held erased c)
    (found : circuit[k]? = some i) (pc : c.pc % 4096 = 0x200 + 2 * k) : c.fetch = i.encode := by
  rw [← h.program k i found]
  apply Memory.word_congr
  have short : k < 12 := (List.getElem?_eq_some_iff.1 found).1
  simp only [programStart]
  omega

theorem Circling.erase {k : Nat} (few : k < 5) (h : Circling held (0x50 + 16 * k) c)
    (index : UInt16) (pc : Nat) :
    Circling held (0x50 + 16 * (k + 1)) { c with
      memory := c.memory.store (0x50 + 16 * k) (List.replicate 16 0)
      index := index
      pc := pc } := by
  have kept : ∀ x, 16 ≤ Memory.distance (0x50 + 16 * k) x →
      (c.memory.store (0x50 + 16 * k) (List.replicate 16 0)).read x = c.memory.read x :=
    fun x behind => Memory.read_store_of_le _ _ _ _ (by decide) behind
  refine ⟨h.awake, h.v, h.key, h.stack, ?_, ?_⟩
  · intro j i found
    have short : j < 12 := (List.getElem?_eq_some_iff.1 found).1
    have high : 16 ≤ Memory.distance (0x50 + 16 * k) (programStart + 2 * j) := by
      simp only [Memory.distance, programStart]
      omega
    have low : 16 ≤ Memory.distance (0x50 + 16 * k) (programStart + 2 * j + 1) := by
      simp only [Memory.distance, programStart]
      omega
    rw [← h.program j i found, Memory.word, Memory.word, kept _ high, kept _ low]
  · intro a ha erased outside
    by_cases covered : Memory.distance (0x50 + 16 * k) a < 16
    · rw [Memory.read_store _ _ _ _ (by decide), List.getElem?_replicate, if_pos covered]
      rfl
    · rw [kept a (by omega)]
      refine h.blank a ha ?_ outside
      simp only [Memory.distance] at covered
      omega

theorem Circling.block (h : Circling held erased c) : c.block 15 = List.replicate 16 0 := by
  rw [Core.block, h.v]
  rfl

theorem Circling.word_eq_zero (h : Circling held 0xA0 c) {k : Nat} (pc : c.pc % 4096 = 0x218)
    (few : k < 2036) : c.memory.word (c.pc + 2 * k) = 0 := by
  have zero : ∀ x, x < 2 → c.memory.read (c.pc + 2 * k + x) = 0 := by
    intro x hx
    rw [← Memory.read_mod]
    apply h.blank <;> omega
  rw [Memory.word, zero 1 (by decide)]
  rw [← Nat.add_zero (c.pc + 2 * k), zero 0 (by decide)]
  rfl

end Core

namespace Machine

open ChipEight.Core (Circling circuit)

variable {δ : Type} [Display δ] {m : Machine δ} {held : Bool}

theorem after_replicate_add (m : Machine δ) (j k : Nat) :
    m.after (List.replicate (j + k) .cycle) =
      (m.after (List.replicate j .cycle)).after (List.replicate k .cycle) := by
  rw [List.replicate_add, after_append]

theorem after_replicate_around (m : Machine δ) (j k : Nat) :
    m.after (List.replicate (j + 1 + k) .cycle) =
      ((m.after (List.replicate j .cycle)).perform .cycle).state.after
        (List.replicate k .cycle) := by
  rw [after_replicate_add, List.replicate_succ', after_concat]

theorem core_after_zeros (n : Nat) (awake : m.core.wait = none)
    (zeros : ∀ k < n, m.core.memory.word (m.core.pc + 2 * k) = 0) :
    (m.after (List.replicate n .cycle)).core =
      { m.core with pc := m.core.pc + 2 * n, skipped := m.core.skipped + n } := by
  induction n generalizing m with
  | zero => rfl
  | succ n ih =>
    have unread : Instruction.decode m.core.fetch = none := by
      rw [Core.fetch, ← Nat.add_zero m.core.pc, zeros 0 (by omega)]
      rfl
    have first : (m.perform .cycle).state = m.skipWord m.core.fetch :=
      congrArg Outcome.state (cycle_of_unread awake unread)
    have core : (m.skipWord m.core.fetch).core = m.core.skipWord := core_skipWord _ _
    rw [List.replicate_succ, after_cons, first, ih]
    · rw [core]
      simp only [Core.skipWord, Core.mk.injEq, true_and, and_true]
      omega
    · rw [core]
      exact awake
    · intro k hk
      rw [core]
      have next := zeros (k + 1) (by omega)
      rwa [show m.core.pc + 2 * (k + 1) = m.core.pc + 2 + 2 * k by omega] at next

theorem core_perform_cycle {i : Instruction} {c : Core} (awake : m.core.wait = none)
    (fetched : m.core.fetch = i.encode)
    (painted : m.core.paint m.display i = ⟨m.display, false, none⟩)
    (executed : m.core.execute m.settings m.random false i = .ok c) :
    (m.perform .cycle).state.core = c := by
  rw [perform, cycle_of_execute awake fetched painted executed]
  rfl

theorem circling_erase {k : Nat} (few : k < 5) (h : Circling held (0x50 + 16 * k) m.core)
    (pc : m.core.pc % 4096 = 0x200 + 4 * k) :
    Circling held (0x50 + 16 * (k + 1)) (m.after (List.replicate 2 .cycle)).core ∧
      (m.after (List.replicate 2 .cycle)).core.pc = m.core.pc + 4 := by
  obtain ⟨first, second⟩ := Core.circuit_block k few
  have pointed := core_perform_cycle h.awake (h.fetch first (by omega)) rfl rfl
  have h' : Circling held (0x50 + 16 * k) (m.perform .cycle).state.core := by
    rw [pointed]
    exact ⟨h.awake, h.v, h.key, h.stack, h.program, h.blank⟩
  have pc' : (m.perform .cycle).state.core.pc = m.core.pc + 2 := by rw [pointed]
  have saved := core_perform_cycle h'.awake (h'.fetch second (by omega)) rfl rfl
  have index : (m.perform .cycle).state.core.index.toNat = 0x50 + 16 * k := by
    rw [pointed]
    simp only [UInt16.toNat_ofNat', Fin.ofNat]
    omega
  rw [h'.block, index] at saved
  have whole : (m.after (List.replicate 2 .cycle)).core =
      ((m.perform .cycle).state.perform .cycle).state.core := rfl
  rw [whole, saved]
  exact ⟨h'.erase few _ _, by dsimp only; omega⟩

theorem circling_erased (h : Circling held 0x50 m.core) (pc : m.core.pc % 4096 = 0x200) {k : Nat}
    (few : k ≤ 5) :
    Circling held (0x50 + 16 * k) (m.after (List.replicate (2 * k) .cycle)).core ∧
      (m.after (List.replicate (2 * k) .cycle)).core.pc = m.core.pc + 4 * k := by
  induction k with
  | zero => exact ⟨h, rfl⟩
  | succ k ih =>
    obtain ⟨h', pc'⟩ := ih (by omega)
    obtain ⟨h'', pc''⟩ := circling_erase (by omega) h' (by omega)
    rw [Nat.mul_succ 2 k, after_replicate_add]
    exact ⟨h'', by omega⟩

theorem circling_skip (h : Circling held 0xA0 m.core) (pc : m.core.pc % 4096 = 0x214) :
    Circling held 0xA0 (m.perform .cycle).state.core ∧
      (m.perform .cycle).state.core.pc = m.core.pc + if held then 2 else 4 := by
  have listed : circuit[10]? = some (.skipUnlessKey 0) := rfl
  have skipped := core_perform_cycle h.awake (h.fetch listed (by omega)) rfl rfl
  have down : m.core.keyDown 0 = held := by
    rw [Core.keyDown, h.v, Bank.read_replicate]
    exact h.key
  rw [skipped]
  refine ⟨⟨h.awake, h.v, h.key, h.stack, h.program, h.blank⟩, ?_⟩
  rw [Core.skipIf, down]
  cases held <;> rfl

theorem circling_pass (h : Circling held 0xA0 m.core) (pc : m.core.pc % 4096 = 0x218) {n : Nat}
    (few : n ≤ 2036) :
    Circling held 0xA0 (m.after (List.replicate n .cycle)).core ∧
      (m.after (List.replicate n .cycle)).core.pc = m.core.pc + 2 * n := by
  rw [core_after_zeros n h.awake fun k hk => h.word_eq_zero pc (by omega)]
  exact ⟨⟨h.awake, h.v, h.key, h.stack, h.program, h.blank⟩, rfl⟩

/-- The cycles of one lap: two for each block of the font, one for the skip, and one for each of the
words that are zero. -/
def lap : Nat := 2 * 5 + 1 + 2036

theorem circling_lap (h : Circling false 0x50 m.core) (pc : m.core.pc % 4096 = 0x200) :
    Circling false 0x50 (m.after (List.replicate lap .cycle)).core ∧
      (m.after (List.replicate lap .cycle)).core.pc = m.core.pc + 4096 := by
  obtain ⟨erased, pc₁⟩ := circling_erased h pc (Nat.le_refl 5)
  obtain ⟨skipped, pc₂⟩ := circling_skip erased (by omega)
  rw [if_neg (by decide)] at pc₂
  obtain ⟨passed, pc₃⟩ := circling_pass skipped (by omega) (Nat.le_refl 2036)
  rw [lap, after_replicate_around]
  -- The next lap erases the font anew, so nothing of it needs to be known.
  refine ⟨⟨passed.awake, passed.v, passed.key, passed.stack, passed.program, ?_⟩, by omega⟩
  intro a ha earlier outside
  exact passed.blank a ha (by omega) outside

theorem circling_laps (h : Circling false 0x50 m.core) (pc : m.core.pc % 4096 = 0x200) (n : Nat) :
    Circling false 0x50 (m.after (List.replicate (lap * n) .cycle)).core ∧
      (m.after (List.replicate (lap * n) .cycle)).core.pc = m.core.pc + 4096 * n := by
  induction n with
  | zero => exact ⟨h, rfl⟩
  | succ n ih =>
    obtain ⟨h', pc'⟩ := ih
    obtain ⟨h'', pc''⟩ := circling_lap h' (by rw [pc', Nat.add_mul_mod_self_left, pc])
    rw [Nat.mul_succ lap, after_replicate_add]
    exact ⟨h'', by rw [pc'', pc', Nat.mul_succ, Nat.add_assoc]⟩

theorem circling_loaded {m : Machine δ} {settings : Settings} {random : Nat → UInt8} {d : δ}
    (loaded : (create settings random d).load
      ((Memory.assemble circuit).map fun b => (b.toNat : Int)) = .done m) :
    Circling false 0x50 m.core ∧ m.core.pc = 0x200 := by
  rw [load_bytes _ _ (by decide)] at loaded
  obtain rfl := congrArg Outcome.state loaded
  refine ⟨⟨rfl, rfl, rfl, rfl, Memory.holds_store _ _ _ (by decide), ?_⟩, rfl⟩
  intro a ha font outside
  have program : (Memory.assemble circuit).length ≤ Memory.distance programStart a := by
    rw [Memory.length_assemble]
    simp only [circuit, List.length_cons, List.length_nil, Memory.distance, programStart]
    omega
  have glyphs : Font.bytes.length ≤ Memory.distance Font.start a := by
    simp only [Font.length_bytes, Font.start, Memory.distance]
    omega
  have here : (Core.powerOn.memory.store programStart (Memory.assemble circuit)).read a =
      Memory.blank.read a := by
    rw [Memory.read_store_of_le _ _ _ _ (by decide) program]
    exact Memory.read_store_of_le _ _ _ _ (by decide) glyphs
  exact here.trans (Memory.read_blank a)

theorem circling_press {erased : Nat} (h : Circling held erased m.core) :
    Circling true erased (m.perform (.key 0 true)).state.core ∧
      (m.perform (.key 0 true)).state.core.pc = m.core.pc := by
  have pressed : (m.perform (.key 0 true)).state.core =
      { m.core with keys := m.core.keys.write 0 true } :=
    congrArg (fun o => o.state.core) (setKey_of_awake h.awake 0)
  rw [pressed]
  refine ⟨⟨h.awake, h.v, ?_, h.stack, h.program, h.blank⟩, rfl⟩
  rw [Bank.read_write, if_pos rfl]

theorem circling_call (h : Circling true 0x50 m.core) (pc : m.core.pc % 4096 = 0x200) :
    let reached := m.after (List.replicate (2 * 5 + 1) .cycle)
    reached.core.wait = none ∧ reached.core.stack = .empty ∧
      reached.core.fetch = (Instruction.call 0x200).encode ∧
      reached.core.pc = m.core.pc + 0x16 := by
  intro reached
  obtain ⟨erased, pc₁⟩ := circling_erased h pc (Nat.le_refl 5)
  obtain ⟨there, pc₂⟩ := circling_skip erased (by omega)
  rw [if_pos rfl] at pc₂
  have same : reached = ((m.after (List.replicate (2 * 5) .cycle)).perform .cycle).state := by
    rw [← after_concat, ← List.replicate_succ']
  have listed : circuit[11]? = some (.call 0x200) := rfl
  rw [same]
  exact ⟨there.awake, there.stack, there.fetch listed (by omega), by omega⟩

/-- The program counter does leave sixteen bits, and then a call fails with an empty stack. -/
theorem not_sixteenBits :
    let loaded := (create .modern (fun _ => 0) (TextScreen.create 64 32 false)).load
      ((Memory.assemble circuit).map fun b => (b.toNat : Int))
    let cs : List Command :=
      List.replicate (lap * 16) .cycle ++ .key 0 true :: List.replicate 12 .cycle
    loaded.fault = none ∧ (∀ c ∈ cs, c.Ordinary) ∧
      (∃ o ∈ loaded.state.performAll cs,
        o.state.core.pc = 0x10216 ∧ o.fault = some (.returnTooWide 0x10216)) ∧
      ¬ SixteenBits loaded.state cs := by
  intro loaded cs
  have short : (Memory.assemble circuit).length ≤ programCapacity := by decide
  have accepted : loaded = .done loaded.state := by
    simp only [loaded, load_bytes _ _ short, Outcome.done]
  have ordinary : ∀ c ∈ cs, c.Ordinary := by
    intro c hc
    rcases List.mem_append.1 hc with laps | later
    · rw [List.eq_of_mem_replicate laps]
      trivial
    · rcases List.mem_cons.1 later with rfl | calls
      · exact ⟨by decide, by decide⟩
      · rw [List.eq_of_mem_replicate calls]
        trivial
  obtain ⟨start, pc₀⟩ := circling_loaded accepted
  obtain ⟨around, pc₁⟩ := circling_laps start (by rw [pc₀]) 16
  obtain ⟨pressed, pc₂⟩ := circling_press around
  rw [pc₁, pc₀] at pc₂
  obtain ⟨awake, free, fetched, pc₃⟩ := circling_call pressed (by rw [pc₂])
  rw [pc₂] at pc₃
  generalize before : loaded.state.after
    (List.replicate (lap * 16) .cycle ++ .key 0 true :: List.replicate (2 * 5 + 1) .cycle) = m
  rw [after_append, after_cons] at before
  rw [before] at awake free fetched pc₃
  have failed : m.cycle = .failed (.returnTooWide 0x10216) m := by
    apply cycle_of_refuses awake
    refine ⟨⟨_, fetched⟩, ?_, ?_, ?_⟩
    · rw [free]
      decide
    · rw [pc₃]
      decide
    · rw [pc₃]
  have performed : m.cycle ∈ loaded.state.performAll cs := by
    refine mem_performAll.2 ⟨List.replicate (lap * 16) .cycle ++
      .key 0 true :: List.replicate (2 * 5 + 1) .cycle, .cycle, [], ?_, ?_⟩
    · simp only [cs, List.append_assoc]
      rfl
    · rw [after_append, after_cons, before]
      rfl
  have out : ∃ o ∈ loaded.state.performAll cs,
      o.state.core.pc = 0x10216 ∧ o.fault = some (.returnTooWide 0x10216) :=
    ⟨m.cycle, performed, by rw [failed]; exact pc₃, by rw [failed]; rfl⟩
  refine ⟨congrArg Outcome.fault accepted, ordinary, out, fun narrow => ?_⟩
  obtain ⟨o, ho, wide, _⟩ := out
  have := (narrow o ho).1
  omega

end Machine

end ChipEight
