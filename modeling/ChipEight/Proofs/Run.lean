import ChipEight.Machine
import ChipEight.Display.Plane
import Mathlib.Data.List.TakeWhile

set_option autoImplicit false

namespace ChipEight

namespace Core

def withWord (c : Core) (w : Word) : Core :=
  { c with memory := c.memory.store c.pc [UInt8.ofNat (w.toNat / 256), UInt8.ofNat w.toNat] }

theorem fetch_withWord (c : Core) (w : Word) : (c.withWord w).fetch = w := by
  have bound := w.toNat_lt
  have apart : (c.pc + 1) % 4096 ≠ c.pc % 4096 := by omega
  apply UInt16.toNat.inj
  rw [fetch, Memory.toNat_word]
  simp only [withWord, Memory.store, Memory.read_write, apart, if_true, if_false,
    UInt8.toNat_ofNat']
  omega

def countdown (ticks : Nat) (timer : UInt8) : UInt8 := UInt8.ofNat (timer.toNat - ticks)

theorem toNat_countdown (n : Nat) (t : UInt8) : (countdown n t).toNat = t.toNat - n := by
  have := t.toNat_lt
  simp only [countdown, UInt8.toNat_ofNat']
  omega

theorem countdown_zero (t : UInt8) : countdown 0 t = t := by
  apply UInt8.toNat.inj
  rw [toNat_countdown, Nat.sub_zero]

theorem countdown_add (n k : Nat) (t : UInt8) :
    countdown (n + k) t = countdown k (countdown n t) := by
  apply UInt8.toNat.inj
  simp only [toNat_countdown]
  omega

theorem countdown_one (t : UInt8) : countdown 1 t = if t = 0 then 0 else t - 1 := by
  apply UInt8.toNat.inj
  rw [toNat_countdown]
  split
  · rename_i rests
    rw [rests]
    rfl
  · rename_i runs
    have positive : t.toNat ≠ 0 := fun h => runs (UInt8.toNat.inj h)
    rw [UInt8.toNat_sub_of_le]
    · rfl
    · rw [UInt8.le_iff_toNat_le]
      exact Nat.one_le_iff_ne_zero.2 positive

theorem tick_eq (c : Core) :
    c.tick = { c with delay := countdown 1 c.delay, sound := countdown 1 c.sound } := by
  simp only [tick, countdown_one]

end Core

namespace Machine

variable {δ : Type}

theorem core_load (m : Machine δ) (program : List Int) :
    ∃ memory, (m.load program).state.core = { m.core with memory := memory } := by
  unfold load
  split
  · exact ⟨_, rfl⟩
  · dsimp only
    split <;> exact ⟨_, rfl⟩

theorem load_bytes (m : Machine δ) (bytes : List UInt8) (h : bytes.length ≤ programCapacity) :
    m.load (bytes.map fun b => (b.toNat : Int)) = .done ({ m with
      core := { m.core with memory := m.core.memory.store programStart bytes } }.note
        (.programLoaded bytes.length)) := by
  have accepted : ∀ value ∈ bytes.map fun b => (b.toNat : Int), isByte value = true := by
    intro value hv
    obtain ⟨b, _, rfl⟩ := List.mem_map.1 hv
    have := b.toNat_lt
    simp only [isByte, Bool.and_eq_true, decide_eq_true_eq]
    omega
  have stored : (bytes.map fun b => (b.toNat : Int)).map (fun value => UInt8.ofNat value.toNat) =
      bytes := by
    rw [List.map_map]
    exact (List.map_congr_left fun b _ => by simp).trans (List.map_id _)
  have short : ¬ programCapacity < (bytes.map fun b => (b.toNat : Int)).length := by
    rw [List.length_map]
    omega
  unfold load
  rw [if_neg short]
  simp only [List.takeWhile_eq_self_iff.2 accepted, List.dropWhile_eq_nil_iff.2 accepted, stored,
    List.length_map, List.head?_nil]

variable [Display δ]

def after (m : Machine δ) : List Command → Machine δ
  | [] => m
  | c :: rest => after (m.perform c).state rest

theorem after_cons (m : Machine δ) (c : Command) (cs : List Command) :
    m.after (c :: cs) = (m.perform c).state.after cs := rfl

theorem after_append (m : Machine δ) (cs ds : List Command) :
    m.after (cs ++ ds) = (m.after cs).after ds := by
  induction cs generalizing m with
  | nil => rfl
  | cons c rest ih => exact ih _

theorem after_concat (m : Machine δ) (cs : List Command) (c : Command) :
    m.after (cs ++ [c]) = ((m.after cs).perform c).state := after_append m cs [c]

theorem mem_performAll {m : Machine δ} {cs : List Command} {o : Outcome (Machine δ)} :
    o ∈ m.performAll cs ↔
      ∃ before c rest, cs = before ++ c :: rest ∧ o = (m.after before).perform c := by
  induction cs generalizing m with
  | nil => simp [performAll]
  | cons d ds ih =>
    rw [performAll, List.mem_cons, ih]
    constructor
    · rintro (rfl | ⟨before, c, rest, rfl, rfl⟩)
      · exact ⟨[], d, ds, rfl, rfl⟩
      · exact ⟨d :: before, c, rest, rfl, rfl⟩
    · rintro ⟨before, c, rest, split, rfl⟩
      cases before with
      | nil =>
        obtain ⟨rfl, rfl⟩ := List.cons.inj split
        exact .inl rfl
      | cons e before =>
        obtain ⟨rfl, rfl⟩ := List.cons.inj split
        exact .inr ⟨before, c, rest, rfl, rfl⟩

/-- The instruction that a command executes. Only a cycle does so, and only if no key is awaited. -/
def executes (m : Machine δ) : Command → Option Instruction
  | .cycle => if m.core.wait.isSome then none else Instruction.decode m.core.fetch
  | _ => none

/-- The instructions that a run executes, in order; one that fails is among them. -/
def executed (m : Machine δ) : List Command → List Instruction
  | [] => []
  | c :: rest => (m.executes c).toList ++ executed (m.perform c).state rest

omit [Display δ] in
theorem executes_of_fetch {m : Machine δ} {i : Instruction} (awake : m.core.wait = none)
    (fetched : m.core.fetch = i.encode) : m.executes .cycle = some i := by
  simp [executes, awake, fetched, Instruction.decode_encode]

def poised (c : Core) (w : Word) : Machine Plane where
  settings := .modern
  random := fun _ => 0
  core := c.withWord w
  display := .empty
  log := #[]

theorem after_keeps {P : Machine δ → Prop} (cs : List Command)
    (step : ∀ c ∈ cs, ∀ m : Machine δ, P m → P (m.perform c).state) (m : Machine δ) (h : P m) :
    P (m.after cs) := by
  induction cs generalizing m with
  | nil => exact h
  | cons c rest ih =>
    have first : P (m.perform c).state := step c (by simp) m h
    exact ih (fun d hd => step d (by simp [hd])) _ first

theorem cycle_of_fetch {m : Machine δ} {i : Instruction} (awake : m.core.wait = none)
    (fetched : m.core.fetch = i.encode) : m.cycle = m.execute i := by
  unfold cycle
  rw [awake, fetched, Instruction.decode_encode]
  rfl

end Machine

end ChipEight
