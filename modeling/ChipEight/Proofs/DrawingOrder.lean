import ChipEight.Proofs.Drawing

set_option autoImplicit false

namespace ChipEight

/-- A drawing instruction, with the registers and the index that it finds. -/
structure Stroke where
  v : Registers
  index : UInt16
  x : Fin 16
  y : Fin 16
  rows : Fin 16

def Stroke.lights (memory : Memory) (p : Cell) (s : Stroke) : Bool :=
  { Core.powerOn with memory := memory, v := s.v, index := s.index }.spriteBit s.x s.y s.rows p

theorem Core.spriteBit_congr {c d : Core} {x y : Fin 16} (rows : Fin 16)
    (left : d.v.read x = c.v.read x) (top : d.v.read y = c.v.read y) (index : d.index = c.index)
    (memory : d.memory = c.memory) : d.spriteBit x y rows = c.spriteBit x y rows := by
  funext p
  simp only [spriteBit, left, top, index, memory]

theorem odd_add (a b : Nat) :
    decide ((a + b) % 2 = 1) = (decide (a % 2 = 1) ^^ decide (b % 2 = 1)) := by
  rcases Nat.mod_two_eq_zero_or_one a with even | odd <;>
    rcases Nat.mod_two_eq_zero_or_one b with even' | odd' <;> simp [Nat.add_mod, *]

variable {δ : Type}

namespace Machine

def drawn (m : Machine δ) (hit : Bool) (picture : δ) : Machine δ :=
  { m with
    core := { m.core with
      v := m.core.v.write flagRegister (if hit then 1 else 0)
      drawFlag := true
      pc := m.core.pc + 2 }
    display := picture }

theorem read_drawn_of_ne (m : Machine δ) (hit : Bool) (picture : δ) {k : Fin 16}
    (other : k ≠ flagRegister) : (m.drawn hit picture).core.v.read k = m.core.v.read k := by
  rw [drawn, Bank.read_write, if_neg other.symm]

variable [Display δ] {lit : δ → Cell → Bool}

def stroke (m : Machine δ) (s : Stroke) : Outcome (Machine δ) :=
  { m with core := { m.core with v := s.v, index := s.index } }.execute (.draw s.x s.y s.rows)

def strokes : List Stroke → Machine δ → Outcome (Machine δ)
  | [], m => .done m
  | s :: rest, m => (m.stroke s).andThen (strokes rest)

theorem execute_draw_of_shows (shows : ShowsPicture δ lit) (m : Machine δ) (x y rows : Fin 16) :
    ∃ (hit : Bool) (picture : δ), m.execute (.draw x y rows) = .done (m.drawn hit picture) ∧
      (∀ c : Cell, c.OnPicture →
        lit picture c = (lit m.display c ^^ m.core.spriteBit x y rows c)) ∧
      (hit = true ↔ ∃ c : Cell, c.OnPicture ∧ m.core.spriteBit x y rows c = true ∧
        lit m.display c = true) := by
  have on : ∀ c ∈ (m.core.sprite x y rows).cells, c.OnPicture :=
    fun c hc => Sprite.onPicture_of_mem_cells hc
  obtain ⟨picture, drawing, inverted⟩ :=
    Drawing.flipAll_of_nodup shows _ on (m.core.nodup_cells_sprite x y rows) false m.display
  refine ⟨_, picture, execute_draw drawing, fun c hc => ?_, ?_⟩
  · rw [inverted c hc]
    simp only [Core.mem_cells_sprite hc, Bool.decide_eq_true]
  · rw [Bool.false_or, List.any_eq_true]
    constructor
    · rintro ⟨c, hc, met⟩
      exact ⟨c, on c hc, (Core.mem_cells_sprite (on c hc)).1 hc, met⟩
    · rintro ⟨c, here, bit, met⟩
      exact ⟨c, (Core.mem_cells_sprite here).2 bit, met⟩

theorem stroke_of_shows (shows : ShowsPicture δ lit) (m : Machine δ) (s : Stroke) :
    ∃ n, m.stroke s = .done n ∧ n.core.memory = m.core.memory ∧ ∀ c : Cell, c.OnPicture →
      lit n.display c = (lit m.display c ^^ s.lights m.core.memory c) := by
  obtain ⟨hit, picture, drawing, inverted, _⟩ := execute_draw_of_shows shows
    { m with core := { m.core with v := s.v, index := s.index } } s.x s.y s.rows
  exact ⟨_, drawing, rfl, inverted⟩

theorem strokes_of_shows (shows : ShowsPicture δ lit) (ss : List Stroke) (m : Machine δ) :
    ∃ n, strokes ss m = .done n ∧ n.core.memory = m.core.memory ∧ ∀ c : Cell, c.OnPicture →
      lit n.display c =
        (lit m.display c ^^ decide (ss.countP (Stroke.lights m.core.memory c) % 2 = 1)) := by
  induction ss generalizing m with
  | nil => exact ⟨m, rfl, rfl, by simp⟩
  | cons s rest ih =>
    obtain ⟨n, drawn, memory, inverted⟩ := stroke_of_shows shows m s
    obtain ⟨o, rests, memory', inverted'⟩ := ih n
    refine ⟨o, ?_, memory'.trans memory, fun c hc => ?_⟩
    · rw [strokes, drawn, Outcome.andThen_done, rests]
    · rw [inverted' c hc, inverted c hc, memory, List.countP_cons, Nat.add_comm, odd_add,
        Bool.xor_assoc]
      cases s.lights m.core.memory c <;> simp

/-- The order of drawings does not matter, and drawings that are made twice cancel. A word that is
executed a second time with the registers, the index and the memory that the first time left inverts
the same cells, and its collision flag tells of the picture that it meets. On the picture that the
first time left, this restores the one before, and the flag tells of the cells that were dark. -/
theorem strokes_commute_and_cancel (shows : ShowsPicture δ lit) (m : Machine δ) :
    (∀ ss ts : List Stroke, ss.Perm ts → ∃ n o u,
      strokes ss m = .done n ∧ strokes ts m = .done o ∧ strokes ts n = .done u ∧
        ∀ c : Cell, c.OnPicture →
          lit o.display c = lit n.display c ∧ lit u.display c = lit m.display c) ∧
    ∀ x y rows : Fin 16, x ≠ flagRegister → y ≠ flagRegister → m.core.wait = none →
      m.core.fetch = Word.ofDigits 0xD x y rows →
      ∃ (hit : Bool) (picture : δ), m.cycle = .done (m.drawn hit picture) ∧
        (hit = true ↔ ∃ c : Cell, c.OnPicture ∧ m.core.spriteBit x y rows c = true ∧
          lit m.display c = true) ∧
        ∀ n : Machine δ, n.core.wait = none → n.core.fetch = m.core.fetch →
          n.core.v = (m.drawn hit picture).core.v → n.core.index = m.core.index →
          n.core.memory = m.core.memory →
          ∃ (again : Bool) (picture' : δ), n.cycle = .done (n.drawn again picture') ∧
            (∀ c : Cell, c.OnPicture →
              lit picture' c = (lit n.display c ^^ m.core.spriteBit x y rows c)) ∧
            (again = true ↔ ∃ c : Cell, c.OnPicture ∧ m.core.spriteBit x y rows c = true ∧
              lit n.display c = true) ∧
            ((∀ c : Cell, c.OnPicture → lit n.display c = lit picture c) →
              (∀ c : Cell, c.OnPicture → lit picture' c = lit m.display c) ∧
              (again = true ↔ ∃ c : Cell, c.OnPicture ∧ m.core.spriteBit x y rows c = true ∧
                lit m.display c = false)) := by
  constructor
  · intro ss ts perm
    obtain ⟨n, drawn, memory, inverted⟩ := strokes_of_shows shows ss m
    obtain ⟨o, drawn', _, inverted'⟩ := strokes_of_shows shows ts m
    obtain ⟨u, drawn'', _, inverted''⟩ := strokes_of_shows shows ts n
    refine ⟨n, o, u, drawn, drawn', drawn'', fun c hc => ⟨?_, ?_⟩⟩
    · rw [inverted' c hc, inverted c hc, perm.countP_eq]
    · rw [inverted'' c hc, inverted c hc, memory, perm.countP_eq, Bool.xor_assoc, Bool.xor_self,
        Bool.xor_false]
  · intro x y rows left top awake word
    have fetched : m.core.fetch = (Instruction.draw x y rows).encode := word
    obtain ⟨hit, picture, drawing, inverted, met⟩ := execute_draw_of_shows shows m x y rows
    refine ⟨hit, picture, (cycle_of_fetch awake fetched).trans drawing, met, ?_⟩
    intro n awake' fetched' v index memory
    obtain ⟨again, picture', drawing', inverted', met'⟩ := execute_draw_of_shows shows n x y rows
    have same : n.core.spriteBit x y rows = m.core.spriteBit x y rows := by
      refine Core.spriteBit_congr rows ?_ ?_ index memory
      · rw [v, read_drawn_of_ne m hit picture left]
      · rw [v, read_drawn_of_ne m hit picture top]
    rw [same] at inverted' met'
    refine ⟨again, picture',
      (cycle_of_fetch awake' (fetched'.trans fetched)).trans drawing', inverted', met', ?_⟩
    intro untouched
    have before : ∀ c : Cell, c.OnPicture →
        lit n.display c = (lit m.display c ^^ m.core.spriteBit x y rows c) :=
      fun c hc => (untouched c hc).trans (inverted c hc)
    constructor
    · intro c hc
      rw [inverted' c hc, before c hc, Bool.xor_assoc, Bool.xor_self, Bool.xor_false]
    · -- Where the sprite is lit, the second drawing meets what the first left: the inverse.
      have turned : ∀ c : Cell, c.OnPicture → m.core.spriteBit x y rows c = true →
          (lit n.display c = true ↔ lit m.display c = false) := by
        intro c hc bit
        rw [before c hc, bit, Bool.xor_true, Bool.not_eq_true']
      rw [met']
      constructor
      · rintro ⟨c, hc, bit, shown⟩
        exact ⟨c, hc, bit, (turned c hc bit).1 shown⟩
      · rintro ⟨c, hc, bit, dark⟩
        exact ⟨c, hc, bit, (turned c hc bit).2 dark⟩

theorem strokes_commute_and_cancel_overlapping :
    let m := poised { Core.powerOn with index := 0x50 } (Word.ofDigits 0xD 0 1 5)
    let s : Stroke := ⟨Vector.replicate 16 62, 0x50, 0, 1, 5⟩
    let t : Stroke := ⟨Vector.replicate 16 63, 0x5F, 0xF, 0xF, 10⟩
    let c : Cell := ⟨1, 31⟩
    c.OnPicture ∧ (∃ n o u, strokes [s, t, s] m = .done n ∧ strokes [s, s, t] m = .done o ∧
      strokes [s, s, t] n = .done u ∧ Plane.isLit o.display c = Plane.isLit n.display c ∧
      Plane.isLit u.display c = Plane.isLit m.display c) ∧
    ∃ (picture : Plane) (n : Machine Plane) (picture' : Plane),
      m.cycle = .done (m.drawn false picture) ∧ n.core.pc = m.core.pc ∧
      n.core.v = (m.drawn false picture).core.v ∧ n.display = picture ∧
      n.cycle = .done (n.drawn true picture') ∧
      Plane.isLit picture' ⟨0, 0⟩ = Plane.isLit m.display ⟨0, 0⟩ := by
  intro m s t c
  have on : c.OnPicture := ⟨by decide, by decide, by decide, by decide⟩
  have origin : (⟨0, 0⟩ : Cell).OnPicture := ⟨by decide, by decide, by decide, by decide⟩
  have awake : m.core.wait = none := rfl
  have fetched : m.core.fetch = Word.ofDigits 0xD 0 1 5 := Core.fetch_withWord _ _
  obtain ⟨orders, twice⟩ := strokes_commute_and_cancel Plane.showsPicture m
  obtain ⟨n, o, u, drawn, drawn', drawn'', shown⟩ :=
    orders [s, t, s] [s, s, t] (.cons s (.swap s t []))
  obtain ⟨hit, picture, first, met, second⟩ := twice 0 1 5 (by decide) (by decide) awake fetched
  have dark : ∀ e : Cell, Plane.isLit m.display e = false := fun e => by
    simp [m, poised, Plane.isLit, Plane.empty]
  have missed : hit = false := by
    rw [Bool.eq_false_iff]
    intro collided
    obtain ⟨e, _, _, lit⟩ := met.1 collided
    rw [dark e] at lit
    exact absurd lit (by decide)
  subst missed
  let back : Machine Plane := { m.drawn false picture with
    core := { (m.drawn false picture).core with pc := m.core.pc } }
  obtain ⟨again, picture', repeated, _, _, restored⟩ := second back awake rfl rfl rfl rfl
  obtain ⟨same, met'⟩ := restored fun _ _ => rfl
  have bit : m.core.spriteBit 0 1 5 ⟨0, 0⟩ = true := by decide +kernel
  have collided : again = true := met'.2 ⟨⟨0, 0⟩, origin, bit, dark _⟩
  subst collided
  exact ⟨on, ⟨n, o, u, drawn, drawn', drawn'', shown c on⟩, picture, back, picture', first, rfl,
    rfl, rfl, repeated, same ⟨0, 0⟩ origin⟩

end Machine

end ChipEight
