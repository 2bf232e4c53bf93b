import ChipEight.Proofs.FrameLoop
import ChipEight.Proofs.KeyWait

set_option autoImplicit false

namespace ChipEight

structure KeyStroke where
  key : Fin 16
  pressed : Bool
  deriving DecidableEq

namespace KeyMap

/-- Every code that is bound is bound to a key of the machine. -/
def Sound (map : KeyMap) : Prop := ∀ code key, map.find? code = some key → 0 ≤ key ∧ key < 16

theorem toNat_lt {key : Int} (known : 0 ≤ key ∧ key < 16) : key.toNat < 16 := by omega

def key? (map : KeyMap) (code : Int) : Option (Fin 16) :=
  (map.find? code).bind fun key =>
    if known : 0 ≤ key ∧ key < 16 then some ⟨key.toNat, toNat_lt known⟩ else none

def stroke? (map : KeyMap) : KeyEvent → Option KeyStroke
  | .down code => (map.key? code).map fun key => ⟨key, true⟩
  | .up code => (map.key? code).map fun key => ⟨key, false⟩
  | .quit | .other => none

def strokes (map : KeyMap) (events : List KeyEvent) : List KeyStroke := events.filterMap map.stroke?

theorem sound_of_bindings {map : KeyMap} (known : ∀ b ∈ map, 0 ≤ b.2 ∧ b.2 < 16) : map.Sound := by
  intro code key found
  obtain ⟨binding, here, rfl⟩ := Option.map_eq_some_iff.1 found
  rw [List.findRev?_eq_find?_reverse] at here
  exact known binding (List.mem_reverse.1 (List.mem_of_find?_eq_some here))

theorem key?_of_bound {map : KeyMap} (sound : map.Sound) {code key : Int}
    (found : map.find? code = some key) : ∃ k : Fin 16, key = k.val ∧ map.key? code = some k := by
  have known := sound code key found
  refine ⟨⟨key.toNat, toNat_lt known⟩, (Int.toNat_of_nonneg known.1).symm, ?_⟩
  simp [key?, found, known]

end KeyMap

namespace Core

def strike (c : Core) (s : KeyStroke) : Core := c.setKey s.key s.pressed

theorem strike_release (c : Core) {s : KeyStroke} (released : s.pressed = false) :
    c.strike s = { c with keys := c.keys.write s.key s.pressed } := by
  rw [strike, released]
  rfl

theorem strike_of_awake {c : Core} (awake : c.wait = none) (s : KeyStroke) :
    c.strike s = { c with keys := c.keys.write s.key s.pressed } := by
  cases up : s.pressed with
  | false => rw [strike_release c up, up]
  | true => simp [strike, setKey, endWait, awake, up]

theorem strike_press {c : Core} {x : Fin 16} (waits : c.wait = some x) (k : Fin 16) :
    c.strike ⟨k, true⟩ = { c with
      keys := c.keys.write k true
      v := c.v.write x (UInt8.ofNat k)
      pc := c.pc + 2
      wait := none } := by
  simp [strike, setKey, endWait, waits]

theorem keys_strike (c : Core) (s : KeyStroke) : (c.strike s).keys = c.keys.write s.key s.pressed := by
  cases waits : c.wait with
  | none => rw [strike_of_awake waits]
  | some x =>
    obtain ⟨k, pressed⟩ := s
    cases pressed with
    | false => rw [strike_release c rfl]
    | true => rw [strike_press waits]

structure Struck (strokes : List KeyStroke) (c d : Core) : Prop where
  last : ∀ earlier s later, strokes = earlier ++ s :: later → (∀ t ∈ later, t.key ≠ s.key) →
    d.keys.read s.key = s.pressed
  spared : ∀ k, (∀ s ∈ strokes, s.key ≠ k) → d.keys.read k = c.keys.read k
  /-- The first press ends a pending wait, and what follows only holds keys down. -/
  first : ∀ x, c.wait = some x → ∀ earlier (k : Fin 16) later, strokes = earlier ++ ⟨k, true⟩ :: later →
    (∀ s ∈ earlier, s.pressed = false) →
      d = { c with keys := d.keys, v := c.v.write x (UInt8.ofNat k), pc := c.pc + 2, wait := none }
  /-- No key was awaited, or none was pressed. -/
  passed : c.wait = none ∨ (∀ s ∈ strokes, s.pressed = false) → d = { c with keys := d.keys }

theorem struck_nil (c : Core) : Struck [] c c where
  last _ _ _ split := by simp at split
  spared _ _ := rfl
  first _ _ _ _ _ split := by simp at split
  passed _ := rfl

theorem Struck.cons {s : KeyStroke} {rest : List KeyStroke} {c d : Core}
    (further : Struck rest (c.strike s) d) : Struck (s :: rest) c d where
  last earlier t later split none := by
    cases earlier with
    | nil =>
      obtain ⟨rfl, rfl⟩ := List.cons.inj split
      rw [further.spared s.key none, keys_strike, Bank.read_write, if_pos rfl]
    | cons _ earlier =>
      obtain ⟨rfl, behind⟩ := List.cons.inj split
      exact further.last earlier t later behind none
  spared k none := by
    have other : s.key ≠ k := none s (by simp)
    rw [further.spared k fun t member => none t (by simp [member]), keys_strike, Bank.read_write,
      if_neg other]
  first x waits earlier k later split quiet := by
    cases earlier with
    | nil =>
      obtain ⟨rfl, rfl⟩ := List.cons.inj split
      -- Once the wait is over, presses only hold keys down.
      have pressed := strike_press waits k
      have done := further.passed (.inl (by rw [pressed]))
      rw [pressed] at done
      exact done
    | cons _ earlier =>
      obtain ⟨rfl, behind⟩ := List.cons.inj split
      have released := strike_release c (quiet s (by simp))
      have done := further.first x (by rw [released]; exact waits) earlier k later behind
        fun t member => quiet t (by simp [member])
      rw [released] at done
      exact done
  passed still := by
    have heard : c.strike s = { c with keys := c.keys.write s.key s.pressed } := by
      rcases still with awake | quiet
      · exact strike_of_awake awake s
      · exact strike_release c (quiet s (by simp))
    have later : (c.strike s).wait = none ∨ ∀ t ∈ rest, t.pressed = false := by
      rw [heard]
      exact still.imp_right fun quiet t member => quiet t (by simp [member])
    have done := further.passed later
    rw [heard] at done
    exact done

theorem struck (strokes : List KeyStroke) (c : Core) : Struck strokes c (strokes.foldl strike c) := by
  induction strokes generalizing c with
  | nil => exact struck_nil c
  | cons s rest ih => exact (ih (c.strike s)).cons

end Core

namespace Host

variable {δ : Type} {h : Host δ} {map : KeyMap} {isOpen : Bool}

def pending (h : Host δ) : List KeyEvent := h.script.headD [.quit]

theorem setKey_stroke (h : Host δ) (s : KeyStroke) : h.setKey s.key.val s.pressed =
    .done { h with machine := { h.machine with core := h.machine.core.strike s } } := by
  rw [setKey, Machine.setKey_fin]
  rfl

theorem setKey_code (h : Host δ) (sound : map.Sound) (code : Int) (pressed : Bool) :
    (match map.find? code with
      | none => Outcome.done h
      | some key => h.setKey key pressed) = .done { h with
        machine := { h.machine with
          core := ((map.key? code).map fun key => ⟨key, pressed⟩).toList.foldl Core.strike
            h.machine.core } } := by
  cases found : map.find? code with
  | none => simp [KeyMap.key?, found]
  | some key =>
    obtain ⟨k, rfl, bound⟩ := KeyMap.key?_of_bound sound found
    rw [bound]
    exact setKey_stroke h ⟨k, pressed⟩

theorem handle_sound (held : h.keypad = .scripted map isOpen) (sound : map.Sound) (e : KeyEvent) :
    h.handle e = .done { h with
      machine := { h.machine with
        core := (map.stroke? e).toList.foldl Core.strike h.machine.core }
      keypad := .scripted map (isOpen && e != .quit) } := by
  obtain ⟨machine, keypad, script, share, instructions, frames, pace⟩ := h
  obtain rfl : keypad = .scripted map isOpen := held
  have stays (other : e ≠ .quit) : (isOpen && e != .quit) = isOpen := by
    rw [bne_iff_ne.2 other, Bool.and_true]
  cases e with
  | quit => simp [handle, KeyMap.stroke?]
  | other =>
    rw [stays (by simp)]
    rfl
  | down code =>
    rw [stays (by simp)]
    exact setKey_code _ sound code true
  | up code =>
    rw [stays (by simp)]
    exact setKey_code _ sound code false

theorem handleAll_sound (events : List KeyEvent) (held : h.keypad = .scripted map isOpen)
    (sound : map.Sound) : handleAll events h = .done { h with
      machine := { h.machine with
        core := (map.strokes events).foldl Core.strike h.machine.core }
      keypad := .scripted map (isOpen && !events.contains .quit) } := by
  induction events generalizing h isOpen with
  | nil => simp [handleAll, KeyMap.strokes, ← held]
  | cons e rest ih =>
    have strokes : map.strokes (e :: rest) = (map.stroke? e).toList ++ map.strokes rest := by
      cases heard : map.stroke? e <;> simp [KeyMap.strokes, heard]
    have open' : (isOpen && !(e :: rest).contains .quit) =
        (isOpen && e != .quit && !rest.contains .quit) := by
      rw [List.contains_cons, Bool.not_or, ← Bool.and_assoc, bne, BEq.comm]
    rw [handleAll, handle_sound held sound, Outcome.andThen_done, ih rfl, strokes, List.foldl_append,
      open']

theorem poll_sound (held : h.keypad = .scripted map isOpen) (sound : map.Sound) :
    h.poll = .done { h with
      machine := { h.machine with
        core := (map.strokes h.pending).foldl Core.strike h.machine.core }
      keypad := .scripted map (isOpen && !h.pending.contains .quit)
      script := h.script.tail } := by
  unfold poll
  simp only [held]
  split
  · rename_i used
    rw [handleAll_sound [.quit] held sound]
    simp [pending, used]
  · rename_i events rest scripted
    rw [handleAll_sound events rfl sound]
    simp [pending, scripted]

/-- A poll with sound bindings is never refused. The strokes among its events strike the machine, a
request to close the window closes it, and all else stays. -/
theorem poll_strikes (held : h.keypad = .scripted map isOpen) (sound : map.Sound) :
    ∃ core, h.poll = .done { h with
        machine := { h.machine with core := core }
        keypad := .scripted map (isOpen && !h.pending.contains .quit)
        script := h.script.tail } ∧
      Core.Struck (map.strokes h.pending) h.machine.core core :=
  ⟨_, poll_sound held sound, Core.struck _ _⟩

def relaid : KeyMap := KeyMap.standard ++ [(113, 0xA)]

def relaidHost : Host Plane where
  machine := Machine.poised { Core.powerOn with wait := some 3 } (Word.ofByte 0xF 3 0x0A)
  keypad := .scripted relaid true
  script := [[.up 120, .quit, .down 113, .other, .down 120, .up 122, .down 5]]
  instructionsPerFrame := 1
  instructions := 0
  frames := 0
  pace := id

theorem strokes_relaidHost : relaid.strokes relaidHost.pending =
    [⟨0, false⟩, ⟨0xA, true⟩, ⟨0, true⟩, ⟨0xA, false⟩] := by decide

theorem poll_strikes_relaid :
    relaidHost.keypad = .scripted relaid true ∧ relaid.Sound ∧ KeyMap.standard.Sound ∧
      ∃ polled, relaidHost.poll = .done polled ∧ polled.running = false ∧
        polled.machine.core.v.read 3 = 0xA ∧ polled.machine.core.pc = 0x202 ∧
        polled.machine.core.wait = none ∧ polled.machine.core.keys.read 0 = true ∧
        polled.machine.core.keys.read 0xA = false := by
  have sound : relaid.Sound := KeyMap.sound_of_bindings (by decide)
  obtain ⟨core, polled, struck⟩ := poll_strikes (h := relaidHost) rfl sound
  rw [strokes_relaidHost] at struck
  have ended := struck.first 3 rfl [⟨0, false⟩] 0xA [⟨0, true⟩, ⟨0xA, false⟩] rfl (by simp)
  have held := struck.last [⟨0, false⟩, ⟨0xA, true⟩] ⟨0, true⟩ [⟨0xA, false⟩] rfl (by simp)
  have released := struck.last [⟨0, false⟩, ⟨0xA, true⟩, ⟨0, true⟩] ⟨0xA, false⟩ [] rfl (by simp)
  refine ⟨rfl, sound, fun _ _ => KeyMap.find?_standard, _, polled, rfl, ?_, ?_, ?_, held, released⟩
  · change core.v.read 3 = 0xA
    rw [ended]
    rfl
  · change core.pc = 0x202
    rw [ended]
    rfl
  · change core.wait = none
    rw [ended]

end Host

end ChipEight
