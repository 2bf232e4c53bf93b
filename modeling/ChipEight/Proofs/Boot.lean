import ChipEight.Session
import ChipEight.Proofs.FrameLoop

set_option autoImplicit false

namespace ChipEight.Session

variable {δ : Type} [Display δ]

theorem fault_boot (s : Setting) (display : δ) (rom : List UInt8) :
    (boot s display rom).fault =
      if programCapacity < rom.length then some (.programTooLarge rom.length) else none := by
  unfold boot
  split
  · rename_i large
    simp [Machine.load, large, Outcome.failed]
  · rename_i fits
    rw [Machine.load_bytes _ rom (by omega)]
    rfl

theorem state_boot (s : Setting) (display : δ) (rom : List UInt8) : ∃ memory log,
    (boot s display rom).state = {
      settings := s.options.settings
      random := s.random
      core := { Core.powerOn with memory := memory }
      display := Display.clear display
      log := log } := by
  unfold boot Machine.load
  split
  · exact ⟨_, _, rfl⟩
  · dsimp only
    split <;> exact ⟨_, _, rfl⟩

def headlessHost (o : Options) (random : Nat → UInt8) (frames speed : Int) (rom : List UInt8) :
    Host (TextScreen displayWidth displayHeight) :=
  let start := Machine.create o.settings random (TextScreen.create displayWidth displayHeight false)
  Host.create (start.load (rom.map fun b => (b.toNat : Int))).state (.unattended frames) [] speed id

def windowStart (s : Setting) (speed : Int) (rom : List UInt8) : Host (Screen s) :=
  windowHost s speed (boot s (windowScreen s) rom).state

theorem standard_headlessHost (o : Options) (random : Nat → UInt8) (frames speed : Int)
    (rom : List UInt8) : (headlessHost o random frames speed rom).Standard ∧
      (headlessHost o random frames speed rom).planned = frames.toNat :=
  Host.standard_of_allows (.unattended frames []) _ speed id

theorem standard_windowStart (s : Setting) (speed : Int) (rom : List UInt8) :
    (windowStart s speed rom).Standard :=
  (Host.standard_of_allows (.scripted s.script) _ speed _).1

variable {s : Setting} {frames speed : Int} {path : String} {rom : List UInt8}

theorem headless_of_fits (frames : Int) (fits : rom.length ≤ programCapacity)
    (paced : s.options.speed = .value speed) : headless s (.value frames) rom =
      headlessRun s frames speed (headlessHost s.options s.random frames speed rom).machine := by
  have fault := fault_boot s (TextScreen.create displayWidth displayHeight false) rom
  rw [if_neg (Nat.not_lt.2 fits)] at fault
  unfold headless
  dsimp only
  rw [fault, paced]
  rfl

theorem windowed_of_fits (opened : s.toolkit.opens (windowSize s.options.scale) = true)
    (fits : rom.length ≤ programCapacity) (paced : s.options.speed = .value speed) :
    windowed s rom = windowRun s speed (windowStart s speed rom).machine := by
  have fault := fault_boot s (windowScreen s) rom
  rw [if_neg (Nat.not_lt.2 fits)] at fault
  rw [windowed, if_pos opened, windowOpened, fault, paced]
  rfl

theorem writeDump_of_writable (named : s.options.dump = .value path)
    (writable : s.storage.refusal path = none) (c : Core) (r : Report) :
    writeDump s c r =
      { r with dumps := r.dumps ++ [(path, c.dump)], log := r.log ++ [.dumpWritten path] } := by
  unfold writeDump
  rw [named]
  dsimp only
  rw [writable]

section

variable {last : Host (TextScreen displayWidth displayHeight)} {shown : Host (Screen s)}
  {f : Fault}

theorem headlessRun_of_done
    (ran : (headlessHost s.options s.random frames speed rom).run = .done last) :
    headlessRun s frames speed (headlessHost s.options s.random frames speed rom).machine =
      { quiet s.level .finished last.machine.log.toList with
        printed := last.machine.display.render ++ "\n" } := by
  have host : Host.create (headlessHost s.options s.random frames speed rom).machine
      (.unattended frames) [] speed id = headlessHost s.options s.random frames speed rom := rfl
  rw [headlessRun, host, ran]
  rfl

theorem headlessRun_of_failed (named : s.options.dump = .value path)
    (writable : s.storage.refusal path = none)
    (ran : (headlessHost s.options s.random frames speed rom).run = .failed f last) :
    headlessRun s frames speed (headlessHost s.options s.random frames speed rom).machine =
      { quiet s.level (.failed (.machine f)) (last.machine.log.toList ++ [.dumpWritten path]) with
        dumps := [(path, last.machine.core.dump)] } := by
  have host : Host.create (headlessHost s.options s.random frames speed rom).machine
      (.unattended frames) [] speed id = headlessHost s.options s.random frames speed rom := rfl
  rw [headlessRun, host, ran]
  exact writeDump_of_writable named writable _ _

theorem windowRun_of_done (named : s.options.dump = .value path)
    (writable : s.storage.refusal path = none)
    (ran : (windowStart s speed rom).run = .done shown) :
    (windowRun s speed (windowStart s speed rom).machine).ending = .finished := by
  have host : windowHost s speed (windowStart s speed rom).machine = windowStart s speed rom := rfl
  rw [windowRun, host, ran]
  simp only [Outcome.done, writeDump_of_writable named writable]
  rfl

theorem windowRun_of_failed (named : s.options.dump = .value path)
    (writable : s.storage.refusal path = none)
    (ran : (windowStart s speed rom).run = .failed f shown) :
    (windowRun s speed (windowStart s speed rom).machine).ending = .failed (.machine f) ∧
      (windowRun s speed (windowStart s speed rom).machine).dumps =
        [(path, shown.machine.core.dump)] := by
  have host : windowHost s speed (windowStart s speed rom).machine = windowStart s speed rom := rfl
  rw [windowRun, host, ran]
  simp only [Outcome.failed, writeDump_of_writable named writable]
  exact ⟨rfl, rfl⟩

end

end ChipEight.Session
