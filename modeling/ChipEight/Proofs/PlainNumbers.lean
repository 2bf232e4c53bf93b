import ChipEight.Machine

set_option autoImplicit false

/-!
# The machine in plain numbers

A plain core holds integers of any size: its cells have no width, so nothing that is put into one is
cut off. The instructions compute with these integers, and a result is reduced where the instruction
says so and nowhere else. Whether a number stays in the range of its cell is then a question about
the instructions. It does: every command takes a core whose numbers are in range to such a core.

How sprites meet lit cells and which bytes a random source gives is left open here. Both come from
outside, and any answer will do.
-/
namespace ChipEight

namespace Arithmetic

def operand (s : Settings) (a b : Int) : Int := if s.shiftSecond then b else a

def value (s : Settings) (a b : Int) : Arithmetic → Int
  | copy => b
  | or => (a.toNat ||| b.toNat : Nat)
  | and => (a.toNat &&& b.toNat : Nat)
  | xor => (a.toNat ^^^ b.toNat : Nat)
  | add => (a + b) % 256
  | subtract => (a - b) % 256
  | shiftRight => operand s a b / 2
  | subtractFrom => (b - a) % 256
  | shiftLeft => operand s a b * 2 % 256

def flagValue (s : Settings) (a b : Int) : Arithmetic → Option Int
  | copy => none
  | or | and | xor => if s.clearFlag then some 0 else none
  | add => some (if 255 < a + b then 1 else 0)
  | subtract => some (if b ≤ a then 1 else 0)
  | shiftRight => some (operand s a b % 2)
  | subtractFrom => some (if a ≤ b then 1 else 0)
  | shiftLeft => some (operand s a b / 128 % 2)

end Arithmetic

/-- Cells that are numbered from zero, each with an integer. -/
abbrev Cells (n : Nat) := Fin n → Int

namespace Cells

variable {n : Nat}

def put (f : Cells n) (k b : Int) : Cells n := fun j => if (j.val : Int) = k then b else f j

def peek (f : Cells 4096) (a : Int) : Int := f (Fin.ofNat 4096 (Memory.wrap a))

def poke (f : Cells 4096) (a b : Int) : Cells 4096 := f.put (a % 4096) b

def pokeAll (f : Cells 4096) (a : Int) : List Int → Cells 4096
  | [] => f
  | b :: rest => pokeAll (f.poke a b) (a + 1) rest

def Within (top : Int) (f : Cells n) : Prop := ∀ k, 0 ≤ f k ∧ f k ≤ top

theorem Within.put {top k b : Int} {f : Cells n} (h : Within top f) (low : 0 ≤ b) (high : b ≤ top) :
    Within top (f.put k b) := by
  intro j
  unfold Cells.put
  split
  · exact ⟨low, high⟩
  · exact h j

theorem Within.pokeAll {top a : Int} {f : Cells 4096} (h : Within top f) (bs : List Int)
    (fits : ∀ b ∈ bs, 0 ≤ b ∧ b ≤ top) : Within top (f.pokeAll a bs) := by
  induction bs generalizing f a with
  | nil => exact h
  | cons b rest ih =>
    obtain ⟨low, high⟩ := fits b (by simp)
    exact ih (h.put low high) fun c hc => fits c (by simp [hc])

end Cells

structure Plain where
  memory : Cells 4096
  v : Cells 16
  index : Int
  pc : Int
  slots : Cells 16
  depth : Int
  delay : Int
  sound : Int
  keys : Fin 16 → Bool
  waiting : Bool
  register : Option Int

namespace Plain

def powerOn : Plain where
  memory := Cells.pokeAll (fun _ => 0) Font.start (Font.bytes.map fun b => (b.toNat : Int))
  v := fun _ => 0
  index := 0
  pc := programStart
  slots := fun _ => 0
  depth := 0
  delay := 0
  sound := 0
  keys := fun _ => false
  waiting := false
  register := none

def fetch (p : Plain) : Int := p.memory.peek p.pc * 256 + p.memory.peek (p.pc + 1)

def skipIf (p : Plain) (condition : Bool) : Plain :=
  { p with pc := if condition then p.pc + 2 + 2 else p.pc + 2 }

def indexPast (s : Settings) (p : Plain) (x : Fin 16) : Int :=
  if s.advanceIndex then (p.index + x.val + 1) % 65536 else p.index

def keyDown (p : Plain) (x : Fin 16) : Bool := p.keys (Fin.ofNat 16 (p.v x % 16).toNat)

def combine (s : Settings) (op : Arithmetic) (x y : Fin 16) (v : Cells 16) : Cells 16 :=
  let stored := v.put x (op.value s (v x) (v y))
  match op.flagValue s (v x) (v y) with
  | none => stored
  | some f => stored.put flagRegister f

def decimalDigits (b : Int) : List Int := [b / 100, b / 10 % 10, b % 10]

def block (v : Cells 16) (x : Fin 16) : List Int := ((List.finRange 16).take (x.val + 1)).map v

def restored (p : Plain) (x : Fin 16) : Cells 16 :=
  fun k => if k ≤ x then p.memory.peek (p.index + k.val) else p.v k

/-- What an instruction does, and nothing if it is refused. `drawn` is what the random source would
give, and `hit` tells whether a sprite met a lit pixel. -/
def execute (s : Settings) (drawn : Int) (hit : Bool) (p : Plain) : Instruction → Option Plain
  | .clear => some { p with pc := p.pc + 2 }
  | .ret =>
    if p.depth = 0 then none
    else some { p with
      depth := p.depth - 1
      pc := p.slots (Fin.ofNat 16 (p.depth - 1).toNat) + 2 }
  | .jump target => some { p with pc := target.val }
  | .call target =>
    if 16 ≤ p.depth ∨ 0xFFFF < p.pc then none
    else some { p with
      slots := p.slots.put p.depth p.pc
      depth := p.depth + 1
      pc := target.val }
  | .skipIfByte x byte => some (p.skipIf (p.v x == byte.toNat))
  | .skipUnlessByte x byte => some (p.skipIf (p.v x != byte.toNat))
  | .skipIfSame x y => some (p.skipIf (p.v x == p.v y))
  | .skipUnlessSame x y => some (p.skipIf (p.v x != p.v y))
  | .setByte x byte => some { p with v := p.v.put x byte.toNat, pc := p.pc + 2 }
  | .addByte x byte => some { p with v := p.v.put x ((p.v x + byte.toNat) % 256), pc := p.pc + 2 }
  | .combine op x y => some { p with v := combine s op x y p.v, pc := p.pc + 2 }
  | .setIndex target => some { p with index := target.val, pc := p.pc + 2 }
  | .jumpOffset target => some { p with pc := (target.val + p.v 0) % 4096 }
  | .random x mask =>
    some { p with v := p.v.put x (drawn.toNat &&& mask.toNat : Nat), pc := p.pc + 2 }
  | .draw _ _ _ => some { p with v := p.v.put flagRegister (if hit then 1 else 0), pc := p.pc + 2 }
  | .skipIfKey x => some (p.skipIf (p.keyDown x))
  | .skipUnlessKey x => some (p.skipIf (!p.keyDown x))
  | .readDelay x => some { p with v := p.v.put x p.delay, pc := p.pc + 2 }
  | .awaitKey x => some { p with waiting := true, register := some x.val }
  | .setDelay x => some { p with delay := p.v x, pc := p.pc + 2 }
  | .setSound x => some { p with sound := p.v x, pc := p.pc + 2 }
  | .addIndex x => some { p with index := (p.index + p.v x) % 65536, pc := p.pc + 2 }
  | .glyph x => some { p with index := Font.start + Font.glyphSize * (p.v x % 16), pc := p.pc + 2 }
  | .decimal x =>
    some { p with memory := p.memory.pokeAll p.index (decimalDigits (p.v x)), pc := p.pc + 2 }
  | .save x =>
    some { p with
      memory := p.memory.pokeAll p.index (block p.v x)
      index := p.indexPast s x
      pc := p.pc + 2 }
  | .restore x =>
    some { p with
      v := p.restored x
      index := p.indexPast s x
      pc := p.pc + 2 }

def cycle (s : Settings) (drawn : Int) (hit : Bool) (p : Plain) : Plain :=
  if p.waiting then p
  else
    match Instruction.decode (UInt16.ofNat p.fetch.toNat) with
    | none => { p with pc := p.pc + 2 }
    | some i => (p.execute s drawn hit i).getD p

def setKey (p : Plain) (key : Int) (pressed : Bool) : Plain :=
  let held := { p with keys := fun k => if (k.val : Int) = key then pressed else p.keys k }
  match p.register with
  | some x =>
    if pressed && p.waiting then
      { held with v := p.v.put x key, waiting := false, register := none, pc := p.pc + 2 }
    else held
  | none => held

def perform (s : Settings) (drawn : Int) (hit : Bool) (p : Plain) : Machine.Command → Plain
  | .cycle => p.cycle s drawn hit
  | .tick =>
    { p with
      delay := if 0 < p.delay then p.delay - 1 else p.delay
      sound := if 0 < p.sound then p.sound - 1 else p.sound }
  | .key key pressed => if 0 ≤ key ∧ key < 16 then p.setKey key pressed else p
  | .releaseKeys => { p with keys := fun _ => false }
  | .load program =>
    if programCapacity < program.length then p
    else { p with memory := p.memory.pokeAll programStart (program.takeWhile Machine.isByte) }
  | .reset => powerOn

/-- Every number is one that its cell can hold, and a register is named exactly while the core
waits. -/
structure InRange (p : Plain) : Prop where
  memory : p.memory.Within 255
  v : p.v.Within 255
  index : 0 ≤ p.index ∧ p.index ≤ 0xFFFF
  pc : 0 ≤ p.pc
  slots : p.slots.Within 0xFFFF
  depth : 0 ≤ p.depth ∧ p.depth ≤ 16
  delay : 0 ≤ p.delay ∧ p.delay ≤ 255
  sound : 0 ≤ p.sound ∧ p.sound ≤ 255
  waiting : p.waiting = true ↔ p.register ≠ none
  register : ∀ x, p.register = some x → 0 ≤ x ∧ x < 16

section

variable {s : Settings} {a b : Int}

theorem value_within (op : Arithmetic) (ha : 0 ≤ a ∧ a ≤ 255) (hb : 0 ≤ b ∧ b ≤ 255) :
    0 ≤ op.value s a b ∧ op.value s a b ≤ 255 := by
  have shifted : 0 ≤ Arithmetic.operand s a b ∧ Arithmetic.operand s a b ≤ 255 := by
    unfold Arithmetic.operand
    split
    · exact hb
    · exact ha
  cases op with
  | copy => exact hb
  | or =>
    have := Nat.or_lt_two_pow (x := a.toNat) (y := b.toNat) (n := 8) (by omega) (by omega)
    simp only [Arithmetic.value]
    omega
  | and =>
    have := Nat.and_lt_two_pow a.toNat (y := b.toNat) (n := 8) (by omega)
    simp only [Arithmetic.value]
    omega
  | xor =>
    have := Nat.xor_lt_two_pow (x := a.toNat) (y := b.toNat) (n := 8) (by omega) (by omega)
    simp only [Arithmetic.value]
    omega
  | _ =>
    simp only [Arithmetic.value]
    omega

theorem flagValue_within (op : Arithmetic) {f : Int} (h : op.flagValue s a b = some f) :
    0 ≤ f ∧ f ≤ 255 := by
  cases op with
  | copy => simp [Arithmetic.flagValue] at h
  | or | and | xor =>
    simp only [Arithmetic.flagValue, Option.ite_none_right_eq_some, Option.some.injEq] at h
    omega
  | add | subtract | subtractFrom =>
    simp only [Arithmetic.flagValue, Option.some.injEq] at h
    split at h <;> omega
  | shiftRight | shiftLeft =>
    simp only [Arithmetic.flagValue, Option.some.injEq] at h
    omega

end

theorem inRange_powerOn : powerOn.InRange where
  memory := by
    refine Cells.Within.pokeAll (fun k => by omega) _ fun b hb => ?_
    obtain ⟨byte, _, rfl⟩ := List.mem_map.1 hb
    have := byte.toNat_lt
    omega
  v k := by simp [powerOn]
  index := by simp [powerOn]
  pc := by simp [powerOn]
  slots k := by simp [powerOn]
  depth := by simp [powerOn]
  delay := by simp [powerOn]
  sound := by simp [powerOn]
  waiting := by simp [powerOn]
  register := by simp [powerOn]

namespace InRange

variable {s : Settings} {drawn : Int} {hit : Bool} {p q : Plain}

theorem peek (h : p.InRange) (a : Int) : 0 ≤ p.memory.peek a ∧ p.memory.peek a ≤ 255 :=
  h.memory _

theorem skipIf (h : p.InRange) (condition : Bool) : (p.skipIf condition).InRange := by
  have := h.pc
  refine { h with pc := ?_ }
  unfold Plain.skipIf
  split <;> dsimp only <;> omega

theorem combine (h : p.InRange) (op : Arithmetic) (x y : Fin 16) :
    (Plain.combine s op x y p.v).Within 255 := by
  obtain ⟨low, high⟩ := value_within (s := s) op (h.v x) (h.v y)
  have stored := h.v.put (k := x) low high
  unfold Plain.combine
  split
  · exact stored
  · rename_i f flagged
    obtain ⟨low, high⟩ := flagValue_within op flagged
    exact stored.put low high

theorem indexPast (h : p.InRange) (x : Fin 16) :
    0 ≤ p.indexPast s x ∧ p.indexPast s x ≤ 0xFFFF := by
  have := h.index
  unfold Plain.indexPast
  split <;> omega

theorem decimalDigits (h : p.InRange) (x : Fin 16) :
    ∀ d ∈ Plain.decimalDigits (p.v x), 0 ≤ d ∧ d ≤ 255 := by
  obtain ⟨low, high⟩ := h.v x
  intro d hd
  simp only [Plain.decimalDigits, List.mem_cons, List.not_mem_nil, or_false] at hd
  omega

theorem block (h : p.InRange) (x : Fin 16) : ∀ b ∈ Plain.block p.v x, 0 ≤ b ∧ b ≤ 255 := by
  intro b hb
  obtain ⟨k, _, rfl⟩ := List.mem_map.1 hb
  exact h.v k

theorem restored (h : p.InRange) (x : Fin 16) : (p.restored x).Within 255 := by
  intro k
  unfold Plain.restored
  split
  · exact h.peek _
  · exact h.v k

theorem ret (h : p.InRange) (used : p.depth ≠ 0) :
    InRange { p with
      depth := p.depth - 1
      pc := p.slots (Fin.ofNat 16 (p.depth - 1).toNat) + 2 } := by
  have := h.depth
  have := h.slots (Fin.ofNat 16 (p.depth - 1).toNat)
  exact { h with depth := by dsimp only; omega, pc := by dsimp only; omega }

theorem call (h : p.InRange) (room : p.depth < 16) (narrow : p.pc ≤ 0xFFFF) (target : Address) :
    InRange { p with
      slots := p.slots.put p.depth p.pc
      depth := p.depth + 1
      pc := target.val } := by
  have := h.depth
  exact { h with
    slots := h.slots.put h.pc narrow
    depth := by dsimp only; omega
    pc := by dsimp only; omega }

theorem execute (h : p.InRange) (low : 0 ≤ drawn) (high : drawn ≤ 255) {i : Instruction}
    (executed : p.execute s drawn hit i = some q) : q.InRange := by
  have next : 0 ≤ p.pc + 2 := by
    have := h.pc
    omega
  cases i with
  | ret =>
    simp only [Plain.execute, Option.ite_none_left_eq_some, Option.some.injEq] at executed
    obtain ⟨used, rfl⟩ := executed
    exact h.ret used
  | call target =>
    simp only [Plain.execute, Option.ite_none_left_eq_some, Option.some.injEq, not_or, Int.not_le,
      Int.not_lt] at executed
    obtain ⟨⟨room, narrow⟩, rfl⟩ := executed
    exact h.call room narrow target
  | clear =>
    obtain rfl := Option.some.inj executed
    exact { h with pc := next }
  | jump target =>
    obtain rfl := Option.some.inj executed
    exact { h with pc := by dsimp only; omega }
  | jumpOffset target =>
    obtain rfl := Option.some.inj executed
    exact { h with pc := by dsimp only; omega }
  | skipIfByte | skipUnlessByte | skipIfSame | skipUnlessSame | skipIfKey | skipUnlessKey =>
    obtain rfl := Option.some.inj executed
    exact h.skipIf _
  | setByte x byte =>
    obtain rfl := Option.some.inj executed
    have := byte.toNat_lt
    exact { h with v := h.v.put (by omega) (by omega), pc := next }
  | addByte x byte =>
    obtain rfl := Option.some.inj executed
    exact { h with v := h.v.put (by omega) (by omega), pc := next }
  | combine op x y =>
    obtain rfl := Option.some.inj executed
    exact { h with v := h.combine op x y, pc := next }
  | setIndex target =>
    obtain rfl := Option.some.inj executed
    exact { h with index := by dsimp only; omega, pc := next }
  | random x mask =>
    obtain rfl := Option.some.inj executed
    have := Nat.and_le_left (n := drawn.toNat) (m := mask.toNat)
    exact { h with v := h.v.put (by omega) (by omega), pc := next }
  | draw =>
    obtain rfl := Option.some.inj executed
    exact { h with v := h.v.put (by split <;> omega) (by split <;> omega), pc := next }
  | readDelay x =>
    obtain rfl := Option.some.inj executed
    exact { h with v := h.v.put h.delay.1 h.delay.2, pc := next }
  | awaitKey x =>
    obtain rfl := Option.some.inj executed
    refine { h with waiting := by simp, register := fun r hr => ?_ }
    obtain rfl := Option.some.inj hr
    omega
  | setDelay x =>
    obtain rfl := Option.some.inj executed
    exact { h with delay := h.v x, pc := next }
  | setSound x =>
    obtain rfl := Option.some.inj executed
    exact { h with sound := h.v x, pc := next }
  | addIndex x =>
    obtain rfl := Option.some.inj executed
    exact { h with index := by dsimp only; omega, pc := next }
  | glyph x =>
    obtain rfl := Option.some.inj executed
    refine { h with index := ?_, pc := next }
    simp only [Font.start, Font.glyphSize]
    omega
  | decimal x =>
    obtain rfl := Option.some.inj executed
    exact { h with memory := h.memory.pokeAll _ (h.decimalDigits x), pc := next }
  | save x =>
    obtain rfl := Option.some.inj executed
    exact { h with
      memory := h.memory.pokeAll _ (h.block x)
      index := h.indexPast x
      pc := next }
  | restore x =>
    obtain rfl := Option.some.inj executed
    exact { h with v := h.restored x, index := h.indexPast x, pc := next }

theorem cycle (h : p.InRange) (low : 0 ≤ drawn) (high : drawn ≤ 255) :
    (p.cycle s drawn hit).InRange := by
  unfold Plain.cycle
  split
  · exact h
  · split
    · have := h.pc
      exact { h with pc := by dsimp only; omega }
    · rename_i i _
      cases executed : p.execute s drawn hit i with
      | none => exact h
      | some q => exact h.execute low high executed

theorem setKey (h : p.InRange) {key : Int} (low : 0 ≤ key) (high : key < 16) (pressed : Bool) :
    (p.setKey key pressed).InRange := by
  have held : InRange { p with keys := fun k => if (k.val : Int) = key then pressed else p.keys k } :=
    { h with }
  have := h.pc
  unfold Plain.setKey
  split
  · split
    · exact { held with
        v := h.v.put low (by omega)
        pc := by dsimp only; omega
        waiting := by simp
        register := by simp }
    · exact held
  · exact held

theorem perform (h : p.InRange) (low : 0 ≤ drawn) (high : drawn ≤ 255) (c : Machine.Command) :
    (p.perform s drawn hit c).InRange := by
  cases c with
  | cycle => exact h.cycle low high
  | tick =>
    have := h.delay
    have := h.sound
    exact { h with
      delay := by dsimp only [Plain.perform]; split <;> omega
      sound := by dsimp only [Plain.perform]; split <;> omega }
  | key key pressed =>
    simp only [Plain.perform]
    split
    · rename_i known
      exact h.setKey known.1 known.2 pressed
    · exact h
  | releaseKeys => exact { h with }
  | load program =>
    simp only [Plain.perform]
    split
    · exact h
    · refine { h with memory := h.memory.pokeAll _ fun b hb => ?_ }
      have stored := List.all_eq_true.1 (List.all_takeWhile) b hb
      simp only [Machine.isByte, Bool.and_eq_true, decide_eq_true_eq] at stored
      exact stored
  | reset => exact inRange_powerOn

end InRange

/-- The plain cores that some commands can lead to from power-on, whatever the random source gives
and the sprites meet. -/
inductive Reached (s : Settings) : List Machine.Command → Plain → Prop
  | powerOn : Reached s [] powerOn
  | step {cs : List Machine.Command} {p : Plain} {drawn : Int} {hit : Bool} (before : Reached s cs p)
      (low : 0 ≤ drawn) (high : drawn ≤ 255) (c : Machine.Command) :
      Reached s (cs ++ [c]) (p.perform s drawn hit c)

theorem Reached.inRange {s : Settings} {cs : List Machine.Command} {p : Plain}
    (h : Reached s cs p) : p.InRange := by
  induction h with
  | powerOn => exact inRange_powerOn
  | step _ low high c ih => exact ih.perform low high c

end Plain

end ChipEight
