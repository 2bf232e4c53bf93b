import ChipEight.Proofs.MemoryStores

set_option autoImplicit false

namespace ChipEight

namespace Memory

theorem write_read (m : Memory) (a : Nat) : m.write a (m.read a) = m := by
  simp [write, read]

theorem store_of_read (bs : List UInt8) (m : Memory) (a : Nat)
    (there : ∀ p b, bs[p]? = some b → m.read (a + p) = b) : m.store a bs = m := by
  induction bs generalizing a with
  | nil => rfl
  | cons b rest ih =>
    have here : m.read a = b := there 0 b rfl
    rw [store_cons, ← here, write_read]
    apply ih
    intro p c found
    rw [Nat.add_assoc, Nat.add_comm 1]
    exact there (p + 1) c found

end Memory

namespace Core

variable {s : Settings} {random : Nat → UInt8} {hit : Bool}

theorem read_restored (c : Core) (x k : Fin 16) : (c.restored x).read k =
    if k ≤ x then c.memory.read (c.index.toNat + k) else c.v.read k := by
  simp only [Bank.read, restored, Fin.getElem_fin, Vector.getElem_mapFinIdx, Fin.le_def]

theorem read_store_upTo (m : Memory) (a : Nat) (v : Registers) {x k : Fin 16} (h : k ≤ x) :
    (m.store a (v.upTo x)).read (a + k) = v.read k := by
  have short : (v.upTo x).length ≤ k + 4096 := by
    rw [Bank.length_upTo]
    omega
  exact (m.filled_store a _).copied k _ (v.getElem?_upTo h) short

theorem store_restored (c : Core) (x : Fin 16) :
    c.memory.store c.index.toNat ((c.restored x).upTo x) = c.memory := by
  apply Memory.store_of_read
  intro p b found
  have low : p < x.val + 1 := by
    rw [← Bank.length_upTo]
    exact (List.getElem?_eq_some_iff.1 found).1
  have covered : (⟨p, by omega⟩ : Fin 16) ≤ x := Nat.le_of_lt_succ low
  have read := (c.restored x).getElem?_upTo covered
  rw [read_restored, if_pos covered] at read
  exact Option.some.inj (read.symm.trans found)

/-- Some blocks of registers are saved one after the other. Each comes with the registers as they
are when its turn comes, and with its last register. -/
def saveAll (s : Settings) (random : Nat → UInt8) (hit : Bool) :
    List (Registers × Fin 16) → Core → Except Fault Core
  | [], c => .ok c
  | (v, x) :: rest, c =>
    ({ c with v := v }.execute s random hit (.save x)).bind (saveAll s random hit rest)

theorem exists_saveAll (advances : s.advanceIndex = true) (blocks : List (Registers × Fin 16))
    (c : Core) : ∃ d, saveAll s random hit blocks c = .ok d ∧
      d.memory = c.memory.store c.index.toNat (blocks.flatMap fun b => b.1.upTo b.2) ∧
      d.index.toNat =
        (c.index.toNat + (blocks.flatMap fun b => b.1.upTo b.2).length) % 65536 := by
  induction blocks generalizing c with
  | nil =>
    have bound := c.index.toNat_lt
    exact ⟨c, rfl, rfl, (Nat.mod_eq_of_lt bound).symm⟩
  | cons block rest ih =>
    obtain ⟨v, x⟩ := block
    have past := toNat_indexPast s { c with v := v } x
    rw [if_pos advances] at past
    obtain ⟨d, saved, memory, index⟩ := ih { c with
      v := v
      memory := c.memory.store c.index.toNat ({ c with v := v }.block x)
      index := indexPast s { c with v := v } x
      pc := c.pc + 2 }
    have wraps : (c.index.toNat + x + 1) % 65536 % 4096 = (c.index.toNat + (x + 1)) % 4096 := by
      omega
    simp only [past, block_eq] at memory index
    refine ⟨d, saved, ?_, ?_⟩
    · rw [memory, Memory.store_congr _ wraps, List.flatMap_cons, Memory.store_append,
        Bank.length_upTo]
    · rw [index, List.flatMap_cons, List.length_append, Bank.length_upTo]
      dsimp only
      omega

/-- Saving and restoring a block undo each other, in both orders, and blocks that are saved with a
moving index fill memory one after the other. -/
theorem blocks_saved_and_restored (s : Settings) (random : Nat → UInt8) (hit : Bool) (c : Core)
    (x : Fin 16) (blocks : List (Registers × Fin 16)) :
    (∃ saved, c.execute s random hit (.save x) = .ok saved ∧
      (s.advanceIndex = true → saved.index.toNat = (c.index.toNat + x + 1) % 65536) ∧
      ∀ v : Registers, ∃ back,
        { saved with v := v, index := c.index }.execute s random hit (.restore x) = .ok back ∧
        ∀ k, back.v.read k = if k ≤ x then c.v.read k else v.read k) ∧
    (∃ restored, c.execute s random hit (.restore x) = .ok restored ∧
      (s.advanceIndex = true → restored.index.toNat = (c.index.toNat + x + 1) % 65536) ∧
      ∃ again, { restored with index := c.index }.execute s random hit (.save x) = .ok again ∧
        again.memory = c.memory) ∧
    (s.advanceIndex = true → ∃ filled, saveAll s random hit blocks c = .ok filled ∧
      c.memory.Filled c.index.toNat (blocks.flatMap fun b => b.1.upTo b.2) filled.memory ∧
      filled.index.toNat =
        (c.index.toNat + (blocks.flatMap fun b => b.1.upTo b.2).length) % 65536) := by
  have past : s.advanceIndex = true →
      (c.indexPast s x).toNat = (c.index.toNat + x + 1) % 65536 := by
    intro advances
    rw [toNat_indexPast, if_pos advances]
  refine ⟨⟨_, rfl, past, fun v => ⟨_, rfl, fun k => ?_⟩⟩, ⟨_, rfl, past, _, rfl, ?_⟩, ?_⟩
  · dsimp only
    rw [read_restored, block_eq]
    split
    · rename_i covered
      exact read_store_upTo _ _ _ covered
    · rfl
  · dsimp only
    rw [block_eq]
    exact c.store_restored x
  · intro advances
    obtain ⟨filled, saved, memory, index⟩ := exists_saveAll advances blocks c
    refine ⟨filled, saved, ?_, index⟩
    rw [memory]
    exact Memory.filled_store ..

theorem blocks_saved_and_restored_around :
    let s : Settings := ⟨false, true, false, false⟩
    let c := { powerOn with v := Vector.ofFn fun k => UInt8.ofNat (k.val + 1), index := 0xFFFA }
    let zeros : Registers := Vector.replicate 16 0
    let sevens : Registers := Vector.replicate 16 7
    (∃ saved back, c.execute s (fun _ => 0) false (.save 9) = .ok saved ∧
      saved.index.toNat = 4 ∧
      { saved with v := zeros, index := c.index }.execute s (fun _ => 0) false (.restore 9) =
        .ok back ∧
      back.v.read 9 = 10 ∧ back.v.read 10 = 0) ∧
    ∃ filled, saveAll s (fun _ => 0) false [(c.v, 9), (sevens, 3)] c = .ok filled ∧
      filled.memory.read 3 = 10 ∧ filled.memory.read 4 = 7 ∧ filled.memory.read 8 = 0 ∧
      filled.index.toNat = 8 := by
  intro s c zeros sevens
  obtain ⟨⟨saved, first, index, comesBack⟩, _, fills⟩ :=
    blocks_saved_and_restored s (fun _ => 0) false c 9 [(c.v, 9), (sevens, 3)]
  obtain ⟨back, second, restored⟩ := comesBack zeros
  obtain ⟨filled, run, stored, last⟩ := fills rfl
  have start : c.index.toNat = 0xFFFA := rfl
  rw [start] at index stored last
  have apart : ∀ p < 14, (0xFFFA + p) % 4096 ≠ 8 % 4096 := by decide
  refine ⟨⟨saved, back, first, index rfl, second, ?_, ?_⟩, filled, run, ?_, ?_, ?_,
    last.trans (by decide)⟩
  · exact restored 9
  · exact restored 10
  · exact (Memory.read_congr _ (by decide)).trans (stored.copied 9 10 rfl (by decide))
  · exact (Memory.read_congr _ (by decide)).trans (stored.copied 10 7 rfl (by decide))
  · exact (stored.kept 8 apart).trans (by decide +kernel)

end Core

end ChipEight
