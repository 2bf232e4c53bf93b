import ChipEight.Proofs.DisplayCalls

set_option autoImplicit false

namespace ChipEight

variable {δ : Type} [Display δ] {lit : δ → Cell → Bool}

theorem Drawing.flipAll_of_nodup (shows : ShowsPicture δ lit) (cells : List Cell)
    (on : ∀ c ∈ cells, c.OnPicture) (distinct : cells.Nodup) (hit : Bool) (d : δ) :
    ∃ drawn, flipAll cells hit d = ⟨drawn, hit || cells.any (lit d), none⟩ ∧
      ∀ e : Cell, e.OnPicture → lit drawn e = (lit d e ^^ decide (e ∈ cells)) := by
  induction cells generalizing hit d with
  | nil => exact ⟨d, by simp [flipAll], by simp⟩
  | cons c rest ih =>
    obtain ⟨fresh, distinct⟩ := List.nodup_cons.1 distinct
    have here : c.OnPicture := on c (by simp)
    have later : ∀ e ∈ rest, e.OnPicture := fun e he => on e (by simp [he])
    obtain ⟨looked, look, seen⟩ := shows.look d c here
    obtain ⟨flipped, flip, turned⟩ := shows.flip looked c here
    obtain ⟨drawn, rests, inverted⟩ := ih later distinct (hit || lit d c) flipped
    -- The later cells are looked at after `c` was flipped, and none of them is `c`.
    have before : ∀ e ∈ rest, lit flipped e = lit d e := by
      intro e he
      have other : e ≠ c := by
        rintro rfl
        exact fresh he
      rw [turned e (later e he), if_neg other, seen e (later e he)]
    have hits : rest.any (lit flipped) = rest.any (lit d) := by
      rw [Bool.eq_iff_iff, List.any_eq_true, List.any_eq_true]
      constructor
      · rintro ⟨e, he, on⟩
        exact ⟨e, he, before e he ▸ on⟩
      · rintro ⟨e, he, on⟩
        exact ⟨e, he, (before e he).symm ▸ on⟩
    refine ⟨drawn, ?_, ?_⟩
    · simp only [flipAll, look, flip, rests, hits, List.any_cons, Bool.or_assoc]
    · intro e he
      rw [inverted e he, turned e he, seen e he]
      by_cases same : e = c
      · subst same
        simp [fresh]
      · simp [same]

namespace Machine

theorem execute_draw {m : Machine δ} {x y rows : Fin 16} {drawn : δ} {hit : Bool}
    (h : Drawing.flipAll (m.core.sprite x y rows).cells false m.display = ⟨drawn, hit, none⟩) :
    m.execute (.draw x y rows) = .done { m with
      core := { m.core with
        v := m.core.v.write flagRegister (if hit then 1 else 0)
        drawFlag := true
        pc := m.core.pc + 2 }
      display := drawn } := by
  simp only [execute, Core.paint, h, Core.execute]

theorem flipAll_watched {cells : List Cell} (on : ∀ c ∈ cells, c.OnPicture) {m : Machine δ}
    {drawn : δ} {hit : Bool} (h : Drawing.flipAll cells false m.display = ⟨drawn, hit, none⟩) :
    Drawing.flipAll cells false m.watched.display =
      ⟨⟨drawn, cells.flatMap fun c => [.look c, .flip c]⟩, hit, none⟩ := by
  obtain ⟨display, hits, missing⟩ :=
    Watched.simulates.flipAll cells on false (m.watched_alike.display)
  rw [h] at display hits missing
  have calls := Watched.calls_flipAll cells false m.watched.display missing
  cases drawing : Drawing.flipAll cells false m.watched.display with
  | mk w hit' missing' =>
    rw [drawing] at display hits missing calls
    obtain ⟨inner, noted⟩ := w
    dsimp only at display hits missing calls
    rw [display, hits, missing, calls]
    rfl

theorem count_flip_flatMap (cells : List Cell) (c : Cell) :
    (cells.flatMap fun c => [PlaneCall.look c, .flip c]).count (.flip c) = cells.count c := by
  induction cells with
  | nil => rfl
  | cons e rest ih =>
    rw [List.flatMap_cons, List.count_append, ih, List.count_cons, Nat.add_comm]
    by_cases same : e = c <;> simp [same]

/-- A drawing instruction on a display that shows the picture: each cell of the picture is inverted
exactly if the sprite lights it, the flag register tells whether a lit cell was met, and nothing
else in the core changes but the draw flag and the program counter. The display is asked for cells
of the picture only, and to flip none of them twice. -/
theorem cycle_draw (shows : ShowsPicture δ lit) (m : Machine δ) (x y rows : Fin 16)
    (awake : m.core.wait = none) (fetched : m.core.fetch = Word.ofDigits 0xD x y rows) :
    ∃ (hit : Bool) (drawn : δ) (calls : List PlaneCall),
      let core := { m.core with
        v := m.core.v.write flagRegister (if hit then 1 else 0)
        drawFlag := true
        pc := m.core.pc + 2 }
      m.cycle = .done { m with core := core, display := drawn } ∧
      (∀ c : Cell, c.OnPicture →
        lit drawn c = (lit m.display c ^^ m.core.spriteBit x y rows c)) ∧
      (hit = true ↔ ∃ c : Cell, c.OnPicture ∧ m.core.spriteBit x y rows c = true ∧
        lit m.display c = true) ∧
      m.watched.cycle = .done { m.watched with core := core, display := ⟨drawn, calls⟩ } ∧
      (∀ call ∈ calls, ∃ c : Cell, c.OnPicture ∧ (call = .look c ∨ call = .flip c)) ∧
      (∀ c : Cell, calls.count (.flip c) ≤ 1) := by
  have on : ∀ c ∈ (m.core.sprite x y rows).cells, c.OnPicture :=
    fun c hc => Sprite.onPicture_of_mem_cells hc
  have distinct := m.core.nodup_cells_sprite x y rows
  obtain ⟨drawn, drawing, inverted⟩ :=
    Drawing.flipAll_of_nodup shows _ on distinct false m.display
  have watching := flipAll_watched on drawing
  have fetched' : m.core.fetch = (Instruction.draw x y rows).encode := fetched
  refine ⟨(m.core.sprite x y rows).cells.any (lit m.display), drawn,
    (m.core.sprite x y rows).cells.flatMap fun c => [.look c, .flip c], ?_, ?_, ?_, ?_, ?_, ?_⟩
  · exact (cycle_of_fetch awake fetched').trans (execute_draw drawing)
  · intro c hc
    rw [inverted c hc]
    simp only [Core.mem_cells_sprite hc, Bool.decide_eq_true]
  · rw [List.any_eq_true]
    constructor
    · rintro ⟨c, hc, met⟩
      exact ⟨c, on c hc, (Core.mem_cells_sprite (on c hc)).1 hc, met⟩
    · rintro ⟨c, here, bit, met⟩
      exact ⟨c, (Core.mem_cells_sprite here).2 bit, met⟩
  · have same : m.watched.core = m.core := rfl
    exact (cycle_of_fetch (m := m.watched) awake fetched').trans (execute_draw watching)
  · intro call hcall
    obtain ⟨c, hc, asked⟩ := List.mem_flatMap.1 hcall
    exact ⟨c, on c hc, by simpa using asked⟩
  · intro c
    rw [count_flip_flatMap]
    exact List.nodup_iff_count_le_one.1 distinct c

theorem cycle_draw_around :
    let c : Cell := ⟨1, 30⟩
    let m := { poised { Core.powerOn with v := Vector.replicate 16 62, index := 0x50 }
      (Word.ofDigits 0xD 0xF 0xF 5) with display := { Plane.empty with lit := {c} } }
    m.core.wait = none ∧ m.core.fetch = Word.ofDigits 0xD 0xF 0xF 5 ∧ m.cycle.fault = none ∧
      m.cycle.state.core.pc = 0x202 ∧ m.cycle.state.core.v.read flagRegister = 1 ∧
      Plane.isLit m.display c = true ∧ Plane.isLit m.cycle.state.display c = false := by
  intro c m
  have awake : m.core.wait = none := rfl
  have fetched : m.core.fetch = Word.ofDigits 0xD 0xF 0xF 5 := Core.fetch_withWord _ _
  obtain ⟨hit, drawn, _, cycled, shown, met, _⟩ :=
    cycle_draw Plane.showsPicture m 0xF 0xF 5 awake fetched
  have on : c.OnPicture := ⟨by decide, by decide, by decide, by decide⟩
  have bit : m.core.spriteBit 0xF 0xF 5 c = true := by decide +kernel
  have before : Plane.isLit m.display c = true := by simp [m, Plane.isLit]
  have collided : hit = true := met.2 ⟨c, on, bit, before⟩
  have dark : Plane.isLit drawn c = false := by
    rw [shown c on, bit, before]
    rfl
  rw [collided] at cycled
  rw [cycled]
  exact ⟨awake, fetched, rfl, rfl, rfl, before, dark⟩

end Machine

end ChipEight
