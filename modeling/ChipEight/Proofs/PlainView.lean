import ChipEight.Proofs.PlainNumbers
import ChipEight.Proofs.Cycle

set_option autoImplicit false

namespace ChipEight

namespace Cells

def ofRegisters (v : Registers) : Cells 16 := fun k => (v.read k).toNat

def ofMemory (m : Memory) : Cells 4096 := fun a => (m.read a.val).toNat

def ofSlots (slots : Vector UInt16 16) : Cells 16 := fun k => (Bank.read slots k).toNat

theorem ofRegisters_write (v : Registers) (x : Fin 16) (b : UInt8) :
    ofRegisters (v.write x b) = (ofRegisters v).put x.val b.toNat := by
  funext k
  simp only [ofRegisters, put, Bank.read_write, Int.natCast_inj, Fin.val_inj, eq_comm (a := x)]
  split <;> rfl

theorem peek_ofMemory (m : Memory) (a : Nat) : (ofMemory m).peek a = (m.read a).toNat := by
  have wrapped : Memory.wrap (a : Int) = a % 4096 := by
    unfold Memory.wrap
    omega
  simp only [peek, ofMemory, wrapped, Fin.ofNat, Nat.mod_mod, Memory.read_mod]

theorem peek_ofMemory_add (m : Memory) (a k : Nat) :
    (ofMemory m).peek ((a : Int) + k) = (m.read (a + k)).toNat := by
  rw [← Int.natCast_add, peek_ofMemory]

theorem ofMemory_write (m : Memory) (a : Nat) (b : UInt8) :
    ofMemory (m.write a b) = (ofMemory m).poke a b.toNat := by
  funext c
  have := c.isLt
  have same : a % 4096 = c.val % 4096 ↔ (c.val : Int) = (a : Int) % 4096 := by omega
  simp only [ofMemory, poke, put, Memory.read_write, same]
  split <;> rfl

theorem ofMemory_store (bs : List UInt8) (m : Memory) (a : Nat) :
    ofMemory (m.store a bs) = (ofMemory m).pokeAll a (bs.map fun b => (b.toNat : Int)) := by
  induction bs generalizing m a with
  | nil => rfl
  | cons b rest ih =>
    rw [Memory.store_cons, ih, ofMemory_write]
    rfl

theorem ofSlots_set (slots : Vector UInt16 16) (k : Nat) (h : k < 16) (site : UInt16) :
    ofSlots (slots.set k site) = (ofSlots slots).put k site.toNat := by
  funext j
  have same : k = j.val ↔ (j.val : Int) = k := by omega
  simp only [ofSlots, Bank.read, put, Fin.getElem_fin, Vector.getElem_set, same]
  split <;> rfl

end Cells

namespace Arithmetic

variable {s : Settings}

theorem toNat_shifted (a b : UInt8) :
    ((shifted s a b).toNat : Int) = operand s a.toNat b.toNat := by
  unfold shifted operand
  split <;> rfl

theorem toNat_result (op : Arithmetic) (a b : UInt8) :
    ((op.result s a b).toNat : Int) = op.value s a.toNat b.toNat := by
  have := a.toNat_lt
  have := b.toNat_lt
  cases op with
  | copy => rfl
  | or => simp only [result, value, UInt8.toNat_or, Int.toNat_natCast]
  | and => simp only [result, value, UInt8.toNat_and, Int.toNat_natCast]
  | xor => simp only [result, value, UInt8.toNat_xor, Int.toNat_natCast]
  | add =>
    simp only [result, value, UInt8.toNat_add]
    omega
  | subtract | subtractFrom =>
    simp only [result, value, UInt8.toNat_sub]
    omega
  | shiftRight =>
    have half : (shifted s a b >>> 1).toNat = (shifted s a b).toNat / 2 := by
      simp [Nat.shiftRight_eq_div_pow]
    simp only [result, value, half, ← toNat_shifted]
    omega
  | shiftLeft =>
    have twice : (shifted s a b <<< 1).toNat = (shifted s a b).toNat * 2 % 256 := by
      simp [UInt8.toNat_shiftLeft, Nat.shiftLeft_eq]
    simp only [result, value, twice, ← toNat_shifted]
    omega

theorem toNat_flag (op : Arithmetic) (a b : UInt8) :
    (op.flag s a b).map (fun f => (f.toNat : Int)) = op.flagValue s a.toNat b.toNat := by
  cases op with
  | copy => rfl
  | or | and | xor =>
    simp only [flag, flagValue]
    split <;> rfl
  | add =>
    have carries : 255 < a.toNat + b.toNat ↔ (255 : Int) < a.toNat + b.toNat := by omega
    simp only [flag, flagValue, Option.map_some, carries]
    split <;> rfl
  | subtract =>
    simp only [flag, flagValue, Option.map_some, UInt8.le_iff_toNat_le, Int.ofNat_le]
    split <;> rfl
  | subtractFrom =>
    simp only [flag, flagValue, Option.map_some, UInt8.le_iff_toNat_le, Int.ofNat_le]
    split <;> rfl
  | shiftRight =>
    have lowest : (shifted s a b &&& 1).toNat = (shifted s a b).toNat % 2 := by simp
    simp only [flag, flagValue, Option.map_some, lowest, ← toNat_shifted]
    rfl
  | shiftLeft =>
    have := (shifted s a b).toNat_lt
    have highest : (shifted s a b >>> 7).toNat = (shifted s a b).toNat / 128 := by
      simp [Nat.shiftRight_eq_div_pow]
    simp only [flag, flagValue, Option.map_some, highest, ← toNat_shifted, Option.some.injEq]
    omega

end Arithmetic

theorem Cells.ofRegisters_apply (s : Settings) (op : Arithmetic) (x y : Fin 16) (v : Registers) :
    ofRegisters (op.apply s x y v) = Plain.combine s op x y (ofRegisters v) := by
  have stored := ofRegisters_write v x (op.result s (v.read x) (v.read y))
  rw [Arithmetic.toNat_result] at stored
  have flagged := Arithmetic.toNat_flag (s := s) op (v.read x) (v.read y)
  unfold Arithmetic.apply Plain.combine
  simp only [ofRegisters] at flagged ⊢
  rw [← flagged]
  cases op.flag s (v.read x) (v.read y) with
  | none => exact stored
  | some f => exact (ofRegisters_write _ flagRegister f).trans (congrArg (put · _ _) stored)

namespace Core

def plain (c : Core) : Plain where
  memory := .ofMemory c.memory
  v := .ofRegisters c.v
  index := c.index.toNat
  pc := c.pc
  slots := .ofSlots c.stack.slots
  depth := c.stack.depth.val
  delay := c.delay.toNat
  sound := c.sound.toNat
  keys := c.keys.read
  waiting := c.wait.isSome
  register := c.wait.map fun x => (x.val : Int)

theorem plain_powerOn : powerOn.plain = .powerOn := by
  have memory : Cells.ofMemory powerOn.memory = Plain.powerOn.memory := by
    have blank : Cells.ofMemory .blank = fun _ => 0 := by
      funext a
      rw [Cells.ofMemory, Memory.read_blank]
      rfl
    change Cells.ofMemory (Memory.store .blank Font.start Font.bytes) = _
    rw [Cells.ofMemory_store, blank, Plain.powerOn]
  have v : Cells.ofRegisters powerOn.v = Plain.powerOn.v := by
    funext k
    simp [Cells.ofRegisters, powerOn, Plain.powerOn]
  have slots : Cells.ofSlots powerOn.stack.slots = Plain.powerOn.slots := by
    funext k
    simp [Cells.ofSlots, powerOn, Plain.powerOn, CallStack.empty]
  have keys : powerOn.keys.read = Plain.powerOn.keys := by
    funext k
    simp [powerOn, Plain.powerOn]
  unfold plain
  rw [memory, v, slots, keys]
  rfl

theorem depth_plain (c : Core) : c.plain.depth = c.stack.depth.val := rfl

theorem fetch_plain (c : Core) : c.plain.fetch = c.fetch.toNat := by
  have here := Cells.peek_ofMemory c.memory c.pc
  have behind := Cells.peek_ofMemory_add c.memory c.pc 1
  rw [fetch, Memory.toNat_word, Int.natCast_add, Int.natCast_mul, ← here, ← behind]
  rfl

theorem plain_skipIf (c : Core) (condition : Bool) :
    (c.skipIf condition).plain = c.plain.skipIf condition := by
  cases condition <;> rfl

theorem beq_toNat (a b : UInt8) : ((a.toNat : Int) == b.toNat) = (a == b) := by
  rw [Bool.eq_iff_iff, beq_iff_eq, beq_iff_eq, Int.natCast_inj, UInt8.toNat_inj]

theorem keyDown_plain (c : Core) (x : Fin 16) : c.plain.keyDown x = c.keyDown x := by
  have low : (((c.v.read x).toNat : Int) % 16).toNat = (c.v.read x).toNat % 16 := by omega
  simp only [Plain.keyDown, keyDown, plain, Cells.ofRegisters, low, Fin.ofNat, Nat.mod_mod]

theorem plain_indexPast (s : Settings) (c : Core) (x : Fin 16) :
    ((c.indexPast s x).toNat : Int) = c.plain.indexPast s x := by
  unfold indexPast Plain.indexPast
  split
  · rw [UInt16.toNat_add, UInt16.toNat_ofNat']
    simp only [plain]
    omega
  · rfl

theorem plain_restored (c : Core) (x : Fin 16) :
    Cells.ofRegisters (c.restored x) = c.plain.restored x := by
  funext k
  have loaded := Cells.peek_ofMemory_add c.memory c.index.toNat k.val
  have read : (c.restored x).read k =
      if k ≤ x then c.memory.read (c.index.toNat + k) else c.v.read k := by
    simp only [Bank.read, restored, Fin.getElem_fin, Vector.getElem_mapFinIdx, Fin.le_def]
  simp only [Cells.ofRegisters, read, Plain.restored, plain, loaded]
  split <;> rfl

theorem plain_decimalDigits (b : UInt8) :
    (decimalDigits b).map (fun d => (d.toNat : Int)) = Plain.decimalDigits b.toNat := by
  simp [decimalDigits, Plain.decimalDigits]

theorem plain_block (c : Core) (x : Fin 16) :
    (c.block x).map (fun b => (b.toNat : Int)) = Plain.block (.ofRegisters c.v) x := by
  have listed : c.v.toList = (List.finRange 16).map c.v.read := by
    apply List.ext_getElem
    · simp
    · intro k _ _
      simp [Bank.read]
  rw [block, listed, Plain.block, ← List.map_take, List.map_map]
  rfl

theorem plain_ret (s : Settings) (drawn : Int) (hit : Bool) (c : Core) :
    c.plain.execute s drawn hit .ret = c.ret.toOption.map plain := by
  cases returned : c.ret with
  | error f =>
    obtain ⟨bare, _⟩ := ret_eq_error_iff.1 returned
    have empty : c.plain.depth = 0 := by
      rw [depth_plain, bare]
      rfl
    simp [Plain.execute, empty, Except.toOption]
  | ok d =>
    obtain ⟨site, stack, popped, rfl⟩ := ret_eq_ok_iff.1 returned
    unfold CallStack.pop at popped
    split at popped
    · rename_i used
      simp only [Option.some.injEq, Prod.mk.injEq] at popped
      obtain ⟨rfl, rfl⟩ := popped
      have held : c.plain.depth ≠ 0 := by
        rw [depth_plain]
        omega
      have top : c.plain.depth - 1 = ((c.stack.depth.val - 1 : Nat) : Int) := by
        rw [depth_plain]
        omega
      have slot : c.stack.depth.val - 1 < 16 := by omega
      have found : Fin.ofNat 16 (c.stack.depth.val - 1) = ⟨c.stack.depth.val - 1, slot⟩ :=
        Fin.ext (Nat.mod_eq_of_lt slot)
      simp only [Plain.execute, if_neg held, top, Int.toNat_natCast, found]
      rfl
    · simp at popped

theorem plain_call (s : Settings) (drawn : Int) (hit : Bool) (c : Core) (target : Address) :
    c.plain.execute s drawn hit (.call target) = (c.call target).toOption.map plain := by
  cases called : c.call target with
  | error f =>
    have refused : 16 ≤ c.plain.depth ∨ 0xFFFF < c.plain.pc := by
      rcases call_eq_error_iff.1 called with ⟨full, _⟩ | ⟨_, wide, _⟩
      · refine .inl ?_
        rw [depth_plain, full]
        decide
      · exact .inr (Int.ofNat_lt.2 wide)
    simp [Plain.execute, refused, Except.toOption]
  | ok d =>
    obtain ⟨narrow, stack, pushed, rfl⟩ := call_eq_ok_iff.1 called
    unfold CallStack.push at pushed
    split at pushed
    · rename_i room
      simp only [Option.some.injEq] at pushed
      subst pushed
      have accepted : ¬ (16 ≤ c.plain.depth ∨ 0xFFFF < c.plain.pc) := by
        simp only [plain]
        omega
      have site : (UInt16.ofNat c.pc).toNat = c.pc := by
        rw [UInt16.toNat_ofNat']
        omega
      have stored := Cells.ofSlots_set c.stack.slots c.stack.depth.val room (UInt16.ofNat c.pc)
      rw [site] at stored
      rw [Plain.execute, if_neg accepted]
      simp only [Except.toOption, Option.map_some, plain, stored, Int.natCast_add]
      rfl
    · simp at pushed

theorem plain_next {c : Core} {memory : Memory} {v : Registers} {index : UInt16}
    {cells : Cells 4096} {registers : Cells 16} {a : Int}
    (inMemory : Cells.ofMemory memory = cells) (inRegisters : Cells.ofRegisters v = registers)
    (inIndex : (index.toNat : Int) = a) :
    plain { c with memory := memory, v := v, index := index, pc := c.pc + 2 } =
      { c.plain with
        memory := cells
        v := registers
        index := a
        pc := c.plain.pc + 2 } := by
  subst inMemory inRegisters inIndex
  rfl

theorem plain_execute (s : Settings) (random : Nat → UInt8) (hit : Bool) (c : Core)
    (i : Instruction) :
    c.plain.execute s (random c.randomDraws).toNat hit i =
      (c.execute s random hit i).toOption.map plain := by
  have written {x : Fin 16} {b : UInt8} {a : Int} (h : (b.toNat : Int) = a) :
      Cells.ofRegisters (c.v.write x b) = (Cells.ofRegisters c.v).put x.val a :=
    h ▸ Cells.ofRegisters_write c.v x b
  cases i with
  | clear | jump | awaitKey | setDelay | setSound => rfl
  | ret => exact plain_ret ..
  | call target => exact plain_call ..
  | skipIfByte x byte =>
    have same : (c.plain.v x == byte.toNat) = (c.v.read x == byte) := beq_toNat _ _
    rw [Plain.execute, same, ← plain_skipIf]
    rfl
  | skipUnlessByte x byte =>
    have same : (c.plain.v x == byte.toNat) = (c.v.read x == byte) := beq_toNat _ _
    rw [Plain.execute, bne, same, ← plain_skipIf]
    rfl
  | skipIfSame x y =>
    have same : (c.plain.v x == c.plain.v y) = (c.v.read x == c.v.read y) := beq_toNat _ _
    rw [Plain.execute, same, ← plain_skipIf]
    rfl
  | skipUnlessSame x y =>
    have same : (c.plain.v x == c.plain.v y) = (c.v.read x == c.v.read y) := beq_toNat _ _
    rw [Plain.execute, bne, same, ← plain_skipIf]
    rfl
  | skipIfKey x =>
    rw [Plain.execute, keyDown_plain, ← plain_skipIf]
    rfl
  | skipUnlessKey x =>
    rw [Plain.execute, keyDown_plain, ← plain_skipIf]
    rfl
  | setByte x byte => exact congrArg some (plain_next rfl (written rfl) rfl).symm
  | addByte x byte =>
    have sum : ((c.v.read x + byte).toNat : Int) = ((c.v.read x).toNat + byte.toNat) % 256 := by
      rw [UInt8.toNat_add]
      omega
    exact congrArg some (plain_next rfl (written sum) rfl).symm
  | combine op x y => exact congrArg some (plain_next rfl (Cells.ofRegisters_apply s op x y c.v) rfl).symm
  | setIndex target =>
    have named : ((UInt16.ofNat target.val).toNat : Int) = target.val := by
      rw [UInt16.toNat_ofNat']
      omega
    exact congrArg some (plain_next rfl rfl named).symm
  | jumpOffset target => rfl
  | random x mask =>
    have masked : ((random c.randomDraws &&& mask).toNat : Int) =
        ((random c.randomDraws).toNat &&& mask.toNat : Nat) := by
      rw [UInt8.toNat_and]
    exact congrArg some (plain_next rfl (written masked) rfl).symm
  | draw x y rows =>
    have flag : (((if hit then 1 else 0 : UInt8)).toNat : Int) = if hit then 1 else 0 := by
      cases hit <;> rfl
    exact congrArg some (plain_next rfl (written flag) rfl).symm
  | readDelay x => exact congrArg some (plain_next rfl (written rfl) rfl).symm
  | addIndex x =>
    have sum : ((c.index + (c.v.read x).toUInt16).toNat : Int) =
        (c.index.toNat + (c.v.read x).toNat) % 65536 := by
      rw [UInt16.toNat_add, UInt8.toNat_toUInt16]
      omega
    exact congrArg some (plain_next rfl rfl sum).symm
  | glyph x =>
    have named : ((UInt16.ofNat (Font.glyph (c.v.read x))).toNat : Int) =
        Font.start + Font.glyphSize * ((c.v.read x).toNat % 16 : Int) := by
      rw [UInt16.toNat_ofNat']
      simp only [Font.glyph, Font.start, Font.glyphSize]
      omega
    exact congrArg some (plain_next rfl rfl named).symm
  | decimal x =>
    have stored := Cells.ofMemory_store (decimalDigits (c.v.read x)) c.memory c.index.toNat
    rw [plain_decimalDigits] at stored
    exact congrArg some (plain_next stored rfl rfl).symm
  | save x =>
    have stored := Cells.ofMemory_store (c.block x) c.memory c.index.toNat
    rw [plain_block] at stored
    exact congrArg some (plain_next stored rfl (plain_indexPast s c x)).symm
  | restore x =>
    exact congrArg some (plain_next rfl (plain_restored c x) (plain_indexPast s c x)).symm

end Core

end ChipEight
