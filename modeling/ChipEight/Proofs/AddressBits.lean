import ChipEight.Proofs.Cycle
import ChipEight.Proofs.DisplayCalls

set_option autoImplicit false

/-!
# Which bits of an address count

Memory has 4096 bytes and every access wraps, so of the program counter, the index and the addresses
on the call stack only the low twelve bits count, and of a slot that a pop has left behind nothing.
Two machines that agree up to these bits go through states that agree up to them, meet the same
faults and ask the same of their displays. A call is the one instruction that looks at the rest of
the program counter: it has to fit in a slot of the stack.

The log is not compared. It is written only, and names the whole program counter.
-/
namespace ChipEight

/-- The live entries are as many and agree in their low twelve bits; no other slot is compared. -/
def CallStack.Congruent (s t : CallStack) : Prop :=
  s.live.map (fun site => site.toNat % 4096) = t.live.map fun site => site.toNat % 4096

structure Core.Congruent (c d : Core) : Prop where
  memory : c.memory = d.memory
  v : c.v = d.v
  index : c.index.toNat % 4096 = d.index.toNat % 4096
  pc : c.pc % 4096 = d.pc % 4096
  stack : c.stack.Congruent d.stack
  delay : c.delay = d.delay
  sound : c.sound = d.sound
  keys : c.keys = d.keys
  wait : c.wait = d.wait
  drawFlag : c.drawFlag = d.drawFlag
  skipped : c.skipped = d.skipped
  randomDraws : c.randomDraws = d.randomDraws

/-- The same kind of fault, with the same data but for the high bits of the program counter. -/
inductive Fault.Congruent : Fault → Fault → Prop
  | same (f : Fault) : Congruent f f
  | stackOverflow (target : Address) {a b : Nat} (pc : a % 4096 = b % 4096) :
      Congruent (.stackOverflow target a) (.stackOverflow target b)
  | stackUnderflow {a b : Nat} (pc : a % 4096 = b % 4096) :
      Congruent (.stackUnderflow a) (.stackUnderflow b)

structure Machine.Congruent {δ : Type} (m n : Machine δ) : Prop where
  settings : m.settings = n.settings
  random : m.random = n.random
  core : m.core.Congruent n.core
  display : m.display = n.display

structure Outcome.Congruent {δ : Type} (o p : Outcome (Machine δ)) : Prop where
  fault : Option.Rel Fault.Congruent o.fault p.fault
  state : o.state.Congruent p.state

namespace CallStack.Congruent

variable {s t : CallStack}

theorem depth (h : Congruent s t) : s.depth = t.depth := by
  have lengths := congrArg List.length h
  rw [List.length_map, List.length_map, length_live, length_live] at lengths
  exact Fin.ext lengths

theorem push {a b : UInt16} {s' t' : CallStack} (h : Congruent s t)
    (low : a.toNat % 4096 = b.toNat % 4096) (pushed : s.push a = some s')
    (pushed' : t.push b = some t') : Congruent s' t' := by
  unfold Congruent
  rw [live_push pushed, live_push pushed', List.map_append, List.map_append, h, List.map_singleton,
    List.map_singleton, low]

theorem pop {a b : UInt16} {s' t' : CallStack} (h : Congruent s t) (popped : s.pop = some (a, s'))
    (popped' : t.pop = some (b, t')) :
    a.toNat % 4096 = b.toNat % 4096 ∧ Congruent s' t' := by
  unfold Congruent at h
  rw [live_pop popped, live_pop popped', List.map_append, List.map_append] at h
  obtain ⟨below, top⟩ := List.append_inj' h rfl
  exact ⟨List.singleton_inj.1 top, below⟩

end CallStack.Congruent

namespace Core

inductive SameEnd : Except Fault Core → Except Fault Core → Prop
  | ok {c d : Core} (h : Congruent c d) : SameEnd (.ok c) (.ok d)
  | error {f g : Fault} (h : Fault.Congruent f g) : SameEnd (.error f) (.error g)

namespace Congruent

variable {c d : Core}

theorem fetch (h : Congruent c d) : c.fetch = d.fetch := by
  rw [Core.fetch, Core.fetch, h.memory]
  exact d.memory.word_congr h.pc

theorem sprite (h : Congruent c d) (x y rows : Fin 16) : c.sprite x y rows = d.sprite x y rows := by
  rw [Core.sprite, Core.sprite, h.v, h.memory, d.memory.slice_congr h.index]

theorem paint {δ : Type} [Display δ] (h : Congruent c d) (e : δ) (i : Instruction) :
    c.paint e i = d.paint e i := by
  cases i with
  | draw x y rows => rw [Core.paint, Core.paint, h.sprite]
  | _ => rfl

theorem restored (h : Congruent c d) (x : Fin 16) : c.restored x = d.restored x := by
  have loaded (k : Nat) :
      c.memory.read (c.index.toNat + k) = d.memory.read (d.index.toNat + k) := by
    have low := h.index
    rw [h.memory]
    exact d.memory.read_congr (by omega)
  simp only [Core.restored, h.v, loaded]

theorem add_index (h : Congruent c d) (k : UInt16) :
    (c.index + k).toNat % 4096 = (d.index + k).toNat % 4096 := by
  have low := h.index
  rw [UInt16.toNat_add, UInt16.toNat_add]
  omega

theorem indexPast (h : Congruent c d) (s : Settings) (x : Fin 16) :
    (c.indexPast s x).toNat % 4096 = (d.indexPast s x).toNat % 4096 := by
  unfold Core.indexPast
  split
  · exact h.add_index _
  · exact h.index

theorem add_pc (h : Congruent c d) (k : Nat) : (c.pc + k) % 4096 = (d.pc + k) % 4096 := by
  have low := h.pc
  omega

theorem skipIf (h : Congruent c d) (condition : Bool) :
    Congruent (c.skipIf condition) (d.skipIf condition) :=
  { h with pc := h.add_pc _ }

theorem call (h : Congruent c d) (target : Address)
    (fits : c.call target ≠ .error (.returnTooWide c.pc))
    (fits' : d.call target ≠ .error (.returnTooWide d.pc)) :
    SameEnd (c.call target) (d.call target) := by
  cases called : c.call target with
  | error f =>
    obtain ⟨full, rfl⟩ | ⟨_, _, rfl⟩ := call_eq_error_iff.1 called
    · have full' : d.stack.depth = 16 := h.stack.depth ▸ full
      rw [call_eq_error_iff.2 (.inl ⟨full', rfl⟩)]
      exact .error (.stackOverflow target h.pc)
    · exact absurd called fits
  | ok c' =>
    obtain ⟨narrow, stack, pushed, rfl⟩ := call_eq_ok_iff.1 called
    cases called' : d.call target with
    | error f =>
      obtain ⟨full, _⟩ | ⟨_, _, rfl⟩ := call_eq_error_iff.1 called'
      · rw [CallStack.push_eq_none_iff.2 (h.stack.depth.trans full)] at pushed
        simp at pushed
      · exact absurd called' fits'
    | ok d' =>
      obtain ⟨narrow', stack', pushed', rfl⟩ := call_eq_ok_iff.1 called'
      have low : (UInt16.ofNat c.pc).toNat % 4096 = (UInt16.ofNat d.pc).toNat % 4096 := by
        have low := h.pc
        rw [UInt16.toNat_ofNat', UInt16.toNat_ofNat']
        omega
      exact .ok { h with pc := rfl, stack := h.stack.push low pushed pushed' }

theorem ret (h : Congruent c d) : SameEnd c.ret d.ret := by
  cases returned : c.ret with
  | error f =>
    obtain ⟨bare, rfl⟩ := ret_eq_error_iff.1 returned
    rw [ret_eq_error_iff.2 ⟨h.stack.depth ▸ bare, rfl⟩]
    exact .error (.stackUnderflow h.pc)
  | ok c' =>
    obtain ⟨site, stack, popped, rfl⟩ := ret_eq_ok_iff.1 returned
    cases returned' : d.ret with
    | error f =>
      obtain ⟨bare, _⟩ := ret_eq_error_iff.1 returned'
      rw [CallStack.pop_eq_none_iff.2 (h.stack.depth.trans bare)] at popped
      simp at popped
    | ok d' =>
      obtain ⟨site', stack', popped', rfl⟩ := ret_eq_ok_iff.1 returned'
      obtain ⟨low, below⟩ := h.stack.pop popped popped'
      have behind : (site.toNat + 2) % 4096 = (site'.toNat + 2) % 4096 := by omega
      exact .ok { h with pc := behind, stack := below }

theorem execute (h : Congruent c d) (s : Settings) (random : Nat → UInt8) (hit : Bool)
    (i : Instruction) (fits : ∀ pc, c.execute s random hit i ≠ .error (.returnTooWide pc))
    (fits' : ∀ pc, d.execute s random hit i ≠ .error (.returnTooWide pc)) :
    SameEnd (c.execute s random hit i) (d.execute s random hit i) := by
  cases i with
  | call target => exact h.call target (fits _) (fits' _)
  | ret => exact h.ret
  | jump target => exact .ok { h with pc := rfl }
  | jumpOffset target =>
    have same : (target + (c.v.read 0).toNat) % 4096 = (target + (d.v.read 0).toNat) % 4096 := by
      rw [h.v]
    exact .ok { h with pc := congrArg (· % 4096) same }
  | skipIfByte | skipUnlessByte | skipIfSame | skipUnlessSame =>
    simp only [Core.execute, h.v]
    exact .ok (h.skipIf _)
  | skipIfKey | skipUnlessKey =>
    simp only [Core.execute, keyDown, h.v, h.keys]
    exact .ok (h.skipIf _)
  | clear => exact .ok { h with drawFlag := rfl, pc := h.add_pc 2 }
  | draw => exact .ok { h with v := by rw [h.v], drawFlag := rfl, pc := h.add_pc 2 }
  | awaitKey => exact .ok { h with wait := rfl }
  | setIndex => exact .ok { h with index := rfl, pc := h.add_pc 2 }
  | glyph => exact .ok { h with index := by rw [h.v], pc := h.add_pc 2 }
  | addIndex x =>
    have moved := h.add_index (c.v.read x).toUInt16
    exact .ok { h with index := by rw [moved, h.v], pc := h.add_pc 2 }
  | setByte | addByte | combine => exact .ok { h with v := by rw [h.v], pc := h.add_pc 2 }
  | readDelay => exact .ok { h with v := by rw [h.v, h.delay], pc := h.add_pc 2 }
  | setDelay => exact .ok { h with delay := by rw [h.v], pc := h.add_pc 2 }
  | setSound => exact .ok { h with sound := by rw [h.v], pc := h.add_pc 2 }
  | random =>
    exact .ok { h with
      v := by rw [h.v, h.randomDraws]
      randomDraws := by rw [h.randomDraws]
      pc := h.add_pc 2 }
  | decimal =>
    have stored := d.memory.store_congr h.index
    exact .ok { h with memory := by rw [h.memory, stored, h.v], pc := h.add_pc 2 }
  | save x =>
    have stored := d.memory.store_congr h.index
    exact .ok { h with
      memory := by rw [h.memory, stored, block, block, h.v]
      index := h.indexPast s x
      pc := h.add_pc 2 }
  | restore x =>
    exact .ok { h with v := h.restored x, index := h.indexPast s x, pc := h.add_pc 2 }

theorem skipWord (h : Congruent c d) : Congruent c.skipWord d.skipWord :=
  { h with pc := h.add_pc 2, skipped := congrArg (· + 1) h.skipped }

theorem tick (h : Congruent c d) : Congruent c.tick d.tick :=
  { h with
    delay := by simp only [Core.tick, h.delay]
    sound := by simp only [Core.tick, h.sound] }

theorem endWait (h : Congruent c d) (key : Fin 16) : Congruent (c.endWait key) (d.endWait key) := by
  unfold Core.endWait
  rw [h.wait]
  split
  · exact h
  · exact { h with v := by rw [h.v], wait := rfl, pc := h.add_pc 2 }

theorem setKey (h : Congruent c d) (key : Fin 16) (pressed : Bool) :
    Congruent (c.setKey key pressed) (d.setKey key pressed) := by
  have held : Congruent { c with keys := c.keys.write key pressed }
      { d with keys := d.keys.write key pressed } := { h with keys := by rw [h.keys] }
  cases pressed with
  | false => exact held
  | true => exact held.endWait key

theorem reset (h : Congruent c d) : Congruent c.reset d.reset := by
  unfold Core.reset
  rw [h.skipped, h.randomDraws]
  exact ⟨rfl, rfl, rfl, rfl, rfl, rfl, rfl, rfl, rfl, rfl, rfl, rfl⟩

end Congruent

end Core

namespace Machine

variable {δ : Type} {m n : Machine δ}

namespace Congruent

theorem skipWord (h : Congruent m n) (w : Word) : Congruent (m.skipWord w) (n.skipWord w) := by
  obtain ⟨settings, random, core, d, log⟩ := m
  obtain ⟨_, _, core', _, log'⟩ := n
  obtain ⟨rfl, rfl, cores, rfl⟩ := h
  simp only [Machine.skipWord]
  split <;> exact ⟨rfl, rfl, cores.skipWord, rfl⟩

theorem load (h : Congruent m n) (program : List Int) :
    Outcome.Congruent (m.load program) (n.load program) := by
  unfold Machine.load
  split
  · exact ⟨.some (.same _), h⟩
  · dsimp only
    have stored (bytes : List UInt8) : Core.Congruent
        { m.core with memory := m.core.memory.store programStart bytes }
        { n.core with memory := n.core.memory.store programStart bytes } :=
      { h.core with memory := by rw [h.core.memory] }
    split
    · exact ⟨.some (.same _), { h with core := stored _ }⟩
    · exact ⟨.none, { h with core := stored _ }⟩

theorem setKey (h : Congruent m n) (key : Int) (pressed : Bool) :
    Outcome.Congruent (m.setKey key pressed) (n.setKey key pressed) := by
  unfold Machine.setKey
  split
  · exact ⟨.none, { h with core := h.core.setKey _ pressed }⟩
  · exact ⟨.some (.same _), h⟩

variable [Display δ]

theorem reset (h : Congruent m n) : Congruent m.reset n.reset :=
  { h with core := h.core.reset, display := congrArg Display.clear h.display }

theorem execute (h : Congruent m n) (i : Instruction)
    (fits : ∀ pc, (m.execute i).fault ≠ some (.returnTooWide pc))
    (fits' : ∀ pc, (n.execute i).fault ≠ some (.returnTooWide pc)) :
    Outcome.Congruent (m.execute i) (n.execute i) := by
  obtain ⟨settings, random, core, d, log⟩ := m
  obtain ⟨_, _, core', _, log'⟩ := n
  obtain ⟨rfl, rfl, cores, rfl⟩ := h
  simp only [Machine.execute, ← cores.paint d i] at fits fits' ⊢
  generalize core.paint d i = painted at fits fits' ⊢
  cases missing : painted.missing with
  | some cell => exact ⟨.some (.same _), rfl, rfl, cores, rfl⟩
  | none =>
    simp only [missing] at fits fits'
    have ends := cores.execute settings random painted.hit i
      (fun pc wide => fits pc (by rw [wide]; rfl)) (fun pc wide => fits' pc (by rw [wide]; rfl))
    generalize core.execute settings random painted.hit i = after at ends ⊢
    generalize core'.execute settings random painted.hit i = after' at ends ⊢
    cases ends with
    | ok reached => exact ⟨.none, rfl, rfl, reached, rfl⟩
    | error faults => exact ⟨.some faults, rfl, rfl, cores, rfl⟩

theorem cycle (h : Congruent m n) (fits : ∀ pc, m.cycle.fault ≠ some (.returnTooWide pc))
    (fits' : ∀ pc, n.cycle.fault ≠ some (.returnTooWide pc)) :
    Outcome.Congruent m.cycle n.cycle := by
  unfold Machine.cycle at fits fits' ⊢
  rw [← h.core.wait, ← h.core.fetch] at fits' ⊢
  split
  · exact ⟨.none, h⟩
  · rename_i awake
    rw [if_neg awake] at fits fits'
    cases read : Instruction.decode m.core.fetch with
    | none => exact ⟨.none, h.skipWord _⟩
    | some i =>
      rw [read] at fits fits'
      exact h.execute i fits fits'

theorem perform (h : Congruent m n) (c : Command)
    (fits : ∀ pc, (m.perform c).fault ≠ some (.returnTooWide pc))
    (fits' : ∀ pc, (n.perform c).fault ≠ some (.returnTooWide pc)) :
    Outcome.Congruent (m.perform c) (n.perform c) := by
  cases c with
  | cycle => exact h.cycle fits fits'
  | tick => exact ⟨.none, { h with core := h.core.tick }⟩
  | key key pressed => exact h.setKey key pressed
  | releaseKeys => exact ⟨.none, { h with core := { h.core with keys := rfl } }⟩
  | load program => exact h.load program
  | reset => exact ⟨.none, h.reset⟩

end Congruent

variable [Display δ]

def faults (m : Machine δ) (cs : List Command) : List (Option Fault) :=
  (m.performAll cs).map Outcome.fault

/-- No call of the run comes from an address beyond `0xFFFF`, which no slot can hold. With a full
stack such a call overflows like any other, so only calls that find a free slot count. -/
def CallsFit (m : Machine δ) (cs : List Command) : Prop :=
  ∀ pc, some (.returnTooWide pc) ∉ m.faults cs

theorem faults_watched (m : Machine δ) (cs : List Command) :
    m.watched.faults cs = m.faults cs := by
  rw [faults, faults, ← List.forall₂_eq_eq_eq, List.forall₂_map_left_iff,
    List.forall₂_map_right_iff]
  exact (Watched.simulates.performAll m.watched_alike cs).imp fun _ _ alike => alike.fault

theorem Congruent.performAll {m n : Machine δ} (h : Congruent m n) (cs : List Command)
    (fits : m.CallsFit cs) (fits' : n.CallsFit cs) :
    List.Forall₂ Outcome.Congruent (m.performAll cs) (n.performAll cs) := by
  induction cs generalizing m n with
  | nil => exact .nil
  | cons c rest ih =>
    have first : Outcome.Congruent (m.perform c) (n.perform c) :=
      h.perform c (fun pc wide => fits pc (List.mem_cons.2 (.inl wide.symm)))
        fun pc wide => fits' pc (List.mem_cons.2 (.inl wide.symm))
    exact .cons first (ih first.state (fun pc wide => fits pc (List.mem_cons_of_mem _ wide))
      fun pc wide => fits' pc (List.mem_cons_of_mem _ wide))

/-- Machines that agree in everything but the high bits of the program counter, the index and the
live entries of the stack cannot be told apart as long as the calls of both fit: they meet the same
faults, ask the same of their displays, and agree after every command in what they agreed in before.
-/
theorem low_address_bits_suffice {m n : Machine δ} (h : m.Congruent n) (cs : List Command)
    (fits : m.CallsFit cs) (fits' : n.CallsFit cs) :
    List.Forall₂ Outcome.Congruent (m.performAll cs) (n.performAll cs) ∧
      List.Forall₂ (fun o p => o.state.display.calls = p.state.display.calls)
        (m.watched.performAll cs) (n.watched.performAll cs) := by
  have watched : m.watched.Congruent n.watched :=
    ⟨h.settings, h.random, h.core, congrArg (Watched.mk · []) h.display⟩
  have runs := watched.performAll cs (fun pc => by rw [faults_watched]; exact fits pc)
    (fun pc => by rw [faults_watched]; exact fits' pc)
  refine ⟨h.performAll cs fits fits', runs.imp fun _ _ alike => ?_⟩
  exact congrArg Watched.calls alike.state.display

theorem low_address_bits_suffice_at_edge :
    let memory := Memory.blank.store 0xFFF [0xF1, 0x55, 0x00, 0xEE, 0xD0, 0x15, 0x23, 0x00]
    let core := { Core.powerOn with memory := memory, index := 0xFFF, pc := 0xFFF }
    let near : Machine Plane :=
      ⟨.modern, fun _ => 0, { core with stack := ⟨Vector.replicate 16 0x001, 1⟩ }, .empty, #[]⟩
    let far : Machine Plane :=
      ⟨.modern, fun _ => 0, { core with
        index := 0xFFFF
        pc := 0x21FFF
        stack := ⟨(Vector.replicate 16 0xABCD).set 0 0x5001, 1⟩ }, .empty, #[]⟩
    let cs : List Command := [.cycle, .cycle, .key 16 true, .cycle, .tick, .cycle]
    near.Congruent far ∧ near.CallsFit cs ∧ far.CallsFit cs ∧
      List.Forall₂ Outcome.Congruent (near.performAll cs) (far.performAll cs) ∧
      List.Forall₂ (fun o p => o.state.display.calls = p.state.display.calls)
        (near.watched.performAll cs) (far.watched.performAll cs) := by
  intro memory core near far cs
  have h : near.Congruent far :=
    ⟨rfl, rfl, ⟨rfl, rfl, by decide, by decide, rfl, rfl, rfl, rfl, rfl, rfl, rfl, rfl⟩, rfl⟩
  have met : near.faults cs = [none, none, some (.invalidKey 16), none, none, none] ∧
      far.faults cs = [none, none, some (.invalidKey 16), none, none, none] := by
    decide +kernel
  have fits : near.CallsFit cs := by simp [CallsFit, met.1]
  have fits' : far.CallsFit cs := by simp [CallsFit, met.2]
  exact ⟨h, fits, fits', low_address_bits_suffice h cs fits fits'⟩

end Machine

end ChipEight
