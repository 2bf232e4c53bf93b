import ChipEight.Dump
import ChipEight.Proofs.HexNumbers

set_option autoImplicit false

namespace ChipEight.Core

open Hex (padded Stops)

theorem dumpField_append_inj {name : String} {width m n : Nat} {r s : List Char}
    (h : dumpField name width m ++ r = dumpField name width n ++ s) : m = n ∧ r = s := by
  simp only [dumpField, List.append_assoc] at h
  obtain ⟨same, rest⟩ := Hex.padded_append_inj (by decide) (by decide)
    (List.append_cancel_left (List.append_cancel_left h))
  exact ⟨same, (List.cons.inj rest).2⟩

theorem byte_append_inj {a b : UInt8} {r s : List Char}
    (h : padded 2 a.toNat ++ r = padded 2 b.toNat ++ s) : a = b ∧ r = s := by
  have length : ∀ x : UInt8, (padded 2 x.toNat).length = 2 := fun x => Hex.length_padded x.toNat_lt
  obtain ⟨same, rest⟩ := List.append_inj h (by rw [length, length])
  refine ⟨UInt8.toNat.inj ?_, rest⟩
  rw [← Hex.number_padded 2 a.toNat, same, Hex.number_padded]

theorem dumpRegister_append_inj {c d : Core} {k : Fin 16} {r s : List Char}
    (h : c.dumpRegister k ++ r = d.dumpRegister k ++ s) : c.v.read k = d.v.read k ∧ r = s := by
  simp only [dumpRegister, List.append_assoc, List.cons_append] at h
  obtain ⟨same, rest⟩ :=
    byte_append_inj (List.append_cancel_left (List.append_cancel_left (List.cons.inj h).2))
  exact ⟨same, (List.cons.inj rest).2⟩

theorem dumpRow_append_inj {c d : Core} {row : Nat} {r s : List Char}
    (h : c.dumpRow row ++ r = d.dumpRow row ++ s) :
    (∀ k ∈ List.range 32, c.memory.read (32 * row + k) = d.memory.read (32 * row + k)) ∧ r = s := by
  simp only [dumpRow, Memory.slice, List.flatMap_map, List.append_assoc, List.append_cancel_left_eq] at h
  obtain ⟨same, rest⟩ := List.flatMap_append_inj (fun k _ r s => byte_append_inj) h
  exact ⟨same, (List.cons.inj rest).2⟩

def dumpSites (sites : List UInt16) (r : List Char) : List Char :=
  (sites.flatMap fun site => ", ".toList ++ ("0x".toList ++ padded 3 site.toNat)) ++ ']' :: r

theorem exists_dumpSites_eq (sites : List UInt16) (r : List Char) :
    ∃ a rest, dumpSites sites r = a :: rest ∧ Stops a := by
  cases sites with
  | nil => exact ⟨']', r, rfl, by decide⟩
  | cons site sites => exact ⟨',', _, rfl, by decide⟩

theorem site_append_inj {x y : UInt16} {xs ys : List UInt16} {r s : List Char}
    (h : padded 3 x.toNat ++ dumpSites xs r = padded 3 y.toNat ++ dumpSites ys s) :
    x = y ∧ dumpSites xs r = dumpSites ys s := by
  obtain ⟨a, r', left, stops⟩ := exists_dumpSites_eq xs r
  obtain ⟨b, s', right, stops'⟩ := exists_dumpSites_eq ys s
  rw [left, right] at h ⊢
  obtain ⟨same, rest⟩ := Hex.padded_append_inj stops stops' h
  exact ⟨UInt16.toNat.inj same, rest⟩

theorem dumpSites_cons (x : UInt16) (xs : List UInt16) (r : List Char) :
    dumpSites (x :: xs) r = ", 0x".toList ++ (padded 3 x.toNat ++ dumpSites xs r) := by
  simp [dumpSites]

theorem dumpSites_inj {xs ys : List UInt16} {r s : List Char}
    (h : dumpSites xs r = dumpSites ys s) : xs = ys ∧ r = s := by
  induction xs generalizing ys with
  | nil =>
    cases ys with
    | nil => exact ⟨rfl, (List.cons.inj h).2⟩
    | cons y ys => exact absurd (List.cons.inj h).1 (by decide)
  | cons x xs ih =>
    cases ys with
    | nil => exact absurd (List.cons.inj h).1 (by decide)
    | cons y ys =>
      rw [dumpSites_cons, dumpSites_cons] at h
      obtain ⟨rfl, further⟩ := site_append_inj (List.append_cancel_left h)
      obtain ⟨rfl, rest⟩ := ih further
      exact ⟨rfl, rest⟩

theorem dumpStack_of_nil {c : Core} (none : c.stack.live = []) (r : List Char) :
    c.dumpStack ++ r = "stack: [".toList ++ ']' :: '\n' :: r := by
  unfold dumpStack
  simp [none]

theorem dumpStack_of_cons {c : Core} {x : UInt16} {xs : List UInt16} (open' : c.stack.live = x :: xs)
    (r : List Char) : c.dumpStack ++ r =
      "stack: [".toList ++ ("0x".toList ++ (padded 3 x.toNat ++ dumpSites xs ('\n' :: r))) := by
  unfold dumpStack
  rw [open', List.map_cons, List.intercalate_cons]
  simp [dumpSites, List.flatMap_map]

theorem dumpStack_append_inj {c d : Core} {r s : List Char}
    (h : c.dumpStack ++ r = d.dumpStack ++ s) : c.stack.live = d.stack.live ∧ r = s := by
  cases left : c.stack.live with
  | nil =>
    cases right : d.stack.live with
    | nil =>
      rw [dumpStack_of_nil left, dumpStack_of_nil right] at h
      have rest := (List.cons.inj (List.append_cancel_left h)).2
      exact ⟨rfl, (List.cons.inj rest).2⟩
    | cons y ys =>
      rw [dumpStack_of_nil left, dumpStack_of_cons right] at h
      exact absurd (List.cons.inj (List.append_cancel_left h)).1 (by decide)
  | cons x xs =>
    cases right : d.stack.live with
    | nil =>
      rw [dumpStack_of_cons left, dumpStack_of_nil right] at h
      exact absurd (List.cons.inj (List.append_cancel_left h)).1 (by decide)
    | cons y ys =>
      rw [dumpStack_of_cons left, dumpStack_of_cons right] at h
      obtain ⟨rfl, further⟩ :=
        site_append_inj (List.append_cancel_left (List.append_cancel_left h))
      obtain ⟨rfl, rest⟩ := dumpSites_inj further
      exact ⟨rfl, (List.cons.inj rest).2⟩

theorem dumpWait_append_inj {c d : Core} {r s : List Char}
    (h : c.dumpWait ++ '\n' :: r = d.dumpWait ++ '\n' :: s) : c.wait = d.wait ∧ r = s := by
  cases left : c.wait with
  | none =>
    cases right : d.wait with
    | none =>
      simp only [dumpWait, left, right, List.nil_append, List.cons.injEq, true_and] at h
      exact ⟨rfl, h⟩
    | some y =>
      simp [dumpWait, left, right] at h
  | some x =>
    cases right : d.wait with
    | none =>
      simp [dumpWait, left, right] at h
    | some y =>
      simp only [dumpWait, left, right, List.append_assoc] at h
      obtain ⟨same, rest⟩ := Hex.padded_append_inj (by decide) (by decide)
        (List.append_cancel_left h)
      exact ⟨congrArg some (Fin.ext same), by simpa using rest⟩

structure ToldAlike (c d : Core) : Prop where
  pc : c.pc = d.pc
  index : c.index = d.index
  registers : c.v = d.v
  delay : c.delay = d.delay
  sound : c.sound = d.sound
  depth : c.stack.depth = d.stack.depth
  live : c.stack.live = d.stack.live
  wait : c.wait = d.wait
  memory : c.memory = d.memory

theorem ToldAlike.dump_eq {c d : Core} (alike : ToldAlike c d) : c.dump = d.dump := by
  obtain ⟨pc, index, registers, delay, sound, _, live, wait, memory⟩ := alike
  have register : c.dumpRegister = d.dumpRegister := by
    funext k
    simp only [dumpRegister, registers]
  have row : c.dumpRow = d.dumpRow := by
    funext k
    simp only [dumpRow, memory]
  have stack : c.dumpStack = d.dumpStack := by
    unfold dumpStack
    rw [live]
  simp only [dump, dumpChars, fetch, dumpWait, pc, index, delay, sound, wait, memory, register, row,
    stack]

theorem memory_eq_of_rows {m n : Memory} (same : ∀ row ∈ List.range 128, ∀ k ∈ List.range 32,
    m.read (32 * row + k) = n.read (32 * row + k)) : m = n := by
  apply Vector.ext
  intro a bound
  have here := same (a / 32) (by simp; omega) (a % 32) (by simp; omega)
  rw [Nat.div_add_mod] at here
  simpa [Memory.read, Nat.mod_eq_of_lt bound] using here

theorem toldAlike_of_dump_eq {c d : Core} (h : c.dump = d.dump) : ToldAlike c d := by
  have chars : c.dumpChars ++ [] = d.dumpChars ++ [] := by
    rw [List.append_nil, List.append_nil]
    exact String.ofList_inj.1 h
  simp only [dumpChars, List.append_assoc] at chars
  obtain ⟨pc, rest⟩ := dumpField_append_inj chars
  obtain ⟨_, rest⟩ := dumpField_append_inj rest
  obtain ⟨index, rest⟩ := dumpField_append_inj rest
  obtain ⟨registers, rest⟩ := List.flatMap_append_inj (fun k _ _ _ => dumpRegister_append_inj) rest
  obtain ⟨delay, rest⟩ := dumpField_append_inj rest
  obtain ⟨sound, rest⟩ := dumpField_append_inj rest
  obtain ⟨live, rest⟩ := dumpStack_append_inj rest
  obtain ⟨wait, rest⟩ := dumpWait_append_inj rest
  obtain ⟨rows, _⟩ := List.flatMap_append_inj (fun row _ _ _ => dumpRow_append_inj)
    (List.append_cancel_left rest)
  refine ⟨pc, UInt16.toNat.inj index, Bank.ext fun k => registers k (List.mem_finRange k),
    UInt8.toNat.inj delay, UInt8.toNat.inj sound, ?_, live, wait, memory_eq_of_rows rows⟩
  apply Fin.ext
  rw [← CallStack.length_live, live, CallStack.length_live]

def rowLabel (row : Nat) : List Char :=
  "0x".toList ++ padded 3 (32 * row) ++ " - 0x".toList ++ padded 3 (32 * row + 31) ++ ":  ".toList

def rowLine (c : Core) (row : Nat) : List Char :=
  rowLabel row ++ (c.memory.slice (32 * row) 32).flatMap fun b => padded 2 b.toNat

def dumpFields (c : Core) : List Char :=
  dumpField "PC" 3 c.pc ++
  dumpField "Next instr." 4 c.fetch.toNat ++
  dumpField "I" 3 c.index.toNat ++
  (List.finRange 16).flatMap c.dumpRegister ++
  dumpField "delay register" 2 c.delay.toNat ++
  dumpField "sound register" 2 c.sound.toNat ++
  c.dumpStack ++
  c.dumpWait

theorem dumpChars_eq (c : Core) : c.dumpChars = c.dumpFields ++ "\n\nRAM:\n".toList ++
    ((List.range 128).map c.rowLine).flatMap fun text => text ++ ['\n'] := by
  rw [List.flatMap_map]
  rfl

theorem length_rowLabel {row : Nat} (h : row < 128) : (rowLabel row).length = 16 := by
  have first : (padded 3 (32 * row)).length = 3 := Hex.length_padded (by omega)
  have last : (padded 3 (32 * row + 31)).length = 3 := Hex.length_padded (by omega)
  simp [rowLabel, first, last]

theorem padded_byte (b : UInt8) :
    padded 2 b.toNat = [Hex.digit (b.toNat / 16), Hex.digit (b.toNat % 16)] :=
  Hex.padded_two b.toNat_lt

theorem getElem?_bytes (bytes : List UInt8) (k : Nat) :
    (bytes.flatMap fun b => padded 2 b.toNat)[2 * k]? =
        bytes[k]?.map (fun b => Hex.digit (b.toNat / 16)) ∧
      (bytes.flatMap fun b => padded 2 b.toNat)[2 * k + 1]? =
        bytes[k]?.map (fun b => Hex.digit (b.toNat % 16)) := by
  induction bytes generalizing k with
  | nil => simp
  | cons b rest ih =>
    cases k with
    | zero => simp [padded_byte]
    | succ k => simpa [padded_byte, Nat.mul_succ] using ih k

theorem length_bytes (bytes : List UInt8) :
    (bytes.flatMap fun b => padded 2 b.toNat).length = 2 * bytes.length := by
  induction bytes with
  | nil => rfl
  | cons b rest ih =>
    rw [List.flatMap_cons, List.length_append, ih, padded_byte, List.length_cons]
    simp
    omega

/-- The lines of the memory: 32 bytes each behind a label of 16 characters, and two characters for each
byte. -/
structure ListsMemory (m : Memory) (rows : List (List Char)) : Prop where
  length : rows.length = 128
  label : ∀ (row : Nat) (text : List Char), rows[row]? = some text →
    text.take 16 = rowLabel row ∧ text.length = 16 + 2 * 32 ∧ '\n' ∉ text
  byte : ∀ a < memorySize, ∃ text, rows[a / 32]? = some text ∧
    text[16 + 2 * (a % 32)]? = some (Hex.digit ((m.read a).toNat / 16)) ∧
    text[16 + 2 * (a % 32) + 1]? = some (Hex.digit ((m.read a).toNat % 16))

theorem newline_not_mem_rowLine (c : Core) (row : Nat) : '\n' ∉ c.rowLine row := by
  have stops : ∀ width n, '\n' ∉ padded width n :=
    Hex.Stops.not_mem_padded (c := '\n') (by decide)
  simp [rowLine, rowLabel, stops]

theorem listsMemory (c : Core) : ListsMemory c.memory ((List.range 128).map c.rowLine) where
  length := by rw [List.length_map, List.length_range]
  label row text here := by
    rw [List.getElem?_map, Option.map_eq_some_iff] at here
    obtain ⟨k, inRange, rfl⟩ := here
    obtain ⟨bound, rfl⟩ : row < 128 ∧ row = k := by
      simpa [List.getElem?_eq_some_iff] using inRange
    refine ⟨?_, ?_, newline_not_mem_rowLine c row⟩
    · rw [rowLine, List.take_left' (length_rowLabel bound)]
    · rw [rowLine, List.length_append, length_rowLabel bound, length_bytes, Memory.length_slice]
  byte a bound := by
    have row : a / 32 < 128 := by
      simp only [memorySize] at bound
      omega
    have here : (c.memory.slice (32 * (a / 32)) 32)[a % 32]? = some (c.memory.read a) := by
      have column : a % 32 < 32 := Nat.mod_lt a (by decide)
      simp [Memory.slice, column, Nat.div_add_mod]
    have behind : ∀ k, (c.rowLine (a / 32))[16 + k]? =
        ((c.memory.slice (32 * (a / 32)) 32).flatMap fun b => padded 2 b.toNat)[k]? := by
      intro k
      rw [rowLine, List.getElem?_append_right (by rw [length_rowLabel row]; omega),
        length_rowLabel row, Nat.add_sub_cancel_left]
    obtain ⟨high, low⟩ := getElem?_bytes (c.memory.slice (32 * (a / 32)) 32) (a % 32)
    refine ⟨c.rowLine (a / 32), by simp [row], ?_, ?_⟩
    · rw [behind, high, here]
      rfl
    · rw [Nat.add_assoc, behind, low, here]
      rfl

/-- Two cores have one dump if they agree on all that a dump tells, and only then. Behind its heading the
memory is listed in full, line by line and byte by byte. -/
theorem dump_loses_nothing :
    (∀ c d : Core, c.dump = d.dump ↔ ToldAlike c d) ∧
      ∀ c : Core, ∃ rows, c.dump.toList =
        c.dumpFields ++ "\n\nRAM:\n".toList ++ rows.flatMap (fun text => text ++ ['\n']) ∧
          ListsMemory c.memory rows := by
  refine ⟨fun c d => ⟨toldAlike_of_dump_eq, ToldAlike.dump_eq⟩, fun c => ?_⟩
  refine ⟨_, ?_, listsMemory c⟩
  rw [dump, String.toList_ofList, dumpChars_eq]

end ChipEight.Core
