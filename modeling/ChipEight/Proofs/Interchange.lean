import ChipEight.Proofs.Simulation

set_option autoImplicit false

namespace ChipEight

variable {δ ε : Type} [Display δ] [Display ε]

/-- Each cell of the picture can be looked at on both displays, with one answer. -/
def SamePicture (d : δ) (e : ε) : Prop :=
  ∀ c : Cell, c.OnPicture → ∃ lit, (Display.look d c).map Prod.fst = some lit ∧
    (Display.look e c).map Prod.fst = some lit

variable {lit : δ → Cell → Bool} {lit' : ε → Cell → Bool}

theorem ShowsPicture.fst_look (shows : ShowsPicture δ lit) (d : δ) {c : Cell} (h : c.OnPicture) :
    (Display.look d c).map Prod.fst = some (lit d c) := by
  obtain ⟨looked, look, _⟩ := shows.look d c h
  rw [look]
  rfl

theorem samePicture_iff (shows : ShowsPicture δ lit) (shows' : ShowsPicture ε lit') {d : δ} {e : ε} :
    SamePicture d e ↔ ∀ c : Cell, c.OnPicture → lit d c = lit' e c := by
  constructor
  · intro same c hc
    obtain ⟨b, left, right⟩ := same c hc
    rw [shows.fst_look d hc] at left
    rw [shows'.fst_look e hc] at right
    exact Option.some.inj (left.trans right.symm)
  · intro same c hc
    exact ⟨lit d c, shows.fst_look d hc, by rw [shows'.fst_look e hc, same c hc]⟩

theorem SamePicture.simulates (shows : ShowsPicture δ lit) (shows' : ShowsPicture ε lit') :
    Simulates (SamePicture (δ := δ) (ε := ε)) where
  clear d e _ := by
    rw [samePicture_iff shows shows']
    intro c hc
    rw [shows.clear d c hc, shows'.clear e c hc]
  look d e c hc same := by
    have alike := (samePicture_iff shows shows').1 same
    obtain ⟨d', look, kept⟩ := shows.look d c hc
    obtain ⟨e', look', kept'⟩ := shows'.look e c hc
    rw [look, look']
    refine .some ⟨alike c hc, (samePicture_iff shows shows').2 ?_⟩
    intro b hb
    rw [kept b hb, kept' b hb, alike b hb]
  flip d e c hc same := by
    have alike := (samePicture_iff shows shows').1 same
    obtain ⟨d', flip, turned⟩ := shows.flip d c hc
    obtain ⟨e', flip', turned'⟩ := shows'.flip e c hc
    rw [flip, flip']
    refine .some ((samePicture_iff shows shows').2 ?_)
    intro b hb
    rw [turned b hb, turned' b hb, alike b hb]

theorem Drawing.missing_flipAll (shows : ShowsPicture δ lit) (cells : List Cell)
    (on : ∀ c ∈ cells, c.OnPicture) (hit : Bool) (d : δ) :
    (flipAll cells hit d).missing = none := by
  induction cells generalizing hit d with
  | nil => rfl
  | cons c rest ih =>
    obtain ⟨looked, look, _⟩ := shows.look d c (on c (by simp))
    obtain ⟨flipped, flip, _⟩ := shows.flip looked c (on c (by simp))
    simp only [flipAll, look, flip]
    exact ih (fun e he => on e (by simp [he])) _ _

theorem Core.missing_paint (shows : ShowsPicture δ lit) (c : Core) (d : δ) (i : Instruction) :
    (c.paint d i).missing = none := by
  cases i with
  | draw x y rows =>
    exact Drawing.missing_flipAll shows _ (fun _ h => Sprite.onPicture_of_mem_cells h) _ _
  | _ => rfl

theorem Core.execute_eq_error {s : Settings} {random : Nat → UInt8} {hit : Bool} {c : Core}
    {i : Instruction} {f : Fault} (h : c.execute s random hit i = .error f) :
    (∃ target, i = .call target ∧ c.call target = .error f) ∨ (i = .ret ∧ c.ret = .error f) := by
  cases i with
  | call target => exact .inl ⟨target, rfl, h⟩
  | ret => exact .inr ⟨rfl, h⟩
  | _ => simp [Core.execute] at h

theorem Core.execute_ne_outside {s : Settings} {random : Nat → UInt8} {hit : Bool} {c : Core}
    {i : Instruction} (cell : Cell) : c.execute s random hit i ≠ .error (.outsideDisplay cell) := by
  intro h
  rcases Core.execute_eq_error h with ⟨target, _, failed⟩ | ⟨_, failed⟩
  · unfold Core.call at failed
    split at failed
    · simp at failed
    · split at failed <;> simp at failed
  · unfold Core.ret at failed
    split at failed <;> simp at failed

namespace Machine

theorem execute_ne_outside (shows : ShowsPicture δ lit) (m : Machine δ) (i : Instruction)
    (cell : Cell) : (m.execute i).fault ≠ some (.outsideDisplay cell) := by
  unfold execute
  simp only [Core.missing_paint shows]
  split
  · rename_i f failed
    rintro ⟨rfl⟩
    exact Core.execute_ne_outside cell failed
  · simp [Outcome.done]

theorem perform_ne_outside (shows : ShowsPicture δ lit) (m : Machine δ) (c : Command)
    (cell : Cell) : (m.perform c).fault ≠ some (.outsideDisplay cell) := by
  cases c with
  | cycle =>
    simp only [perform, cycle]
    split
    · simp [Outcome.done]
    · split
      · simp [Outcome.done]
      · exact execute_ne_outside shows m _ cell
  | key key pressed =>
    simp only [perform, setKey]
    split <;> simp [Outcome.done, Outcome.failed]
  | load program =>
    simp only [perform, load]
    split
    · simp [Outcome.failed]
    · split <;> simp [Outcome.done, Outcome.failed]
  | tick | releaseKeys | reset => simp [perform, Outcome.done]

theorem performAll_ne_outside (shows : ShowsPicture δ lit) (m : Machine δ) (cs : List Command)
    (cell : Cell) : ∀ o ∈ m.performAll cs, o.fault ≠ some (.outsideDisplay cell) := by
  induction cs generalizing m with
  | nil => simp [performAll]
  | cons c rest ih =>
    intro o ho
    rcases List.mem_cons.1 ho with rfl | later
    · exact perform_ne_outside shows m c cell
    · exact ih _ o later

theorem create_alike (shows : ShowsPicture δ lit) (shows' : ShowsPicture ε lit')
    (settings : Settings) (random : Nat → UInt8) (d : δ) (e : ε) :
    Alike SamePicture (create settings random d) (create settings random e) := by
  refine ⟨rfl, rfl, rfl, rfl, (samePicture_iff shows shows').2 ?_⟩
  intro c hc
  exact (shows.clear d c hc).trans (shows'.clear e c hc).symm

/-- The runs agree at every step, and neither asks its display for a cell that it lacks. -/
structure RunsAgree (m : Machine δ) (n : Machine ε) (cs : List Command) : Prop where
  start : Alike SamePicture m n
  steps : List.Forall₂ (Outcome.Alike (Alike SamePicture)) (m.performAll cs) (n.performAll cs)
  inside : ∀ cell, (∀ o ∈ m.performAll cs, o.fault ≠ some (.outsideDisplay cell)) ∧
    ∀ o ∈ n.performAll cs, o.fault ≠ some (.outsideDisplay cell)

theorem create_runsAgree (shows : ShowsPicture δ lit) (shows' : ShowsPicture ε lit')
    (settings : Settings) (random : Nat → UInt8) (d : δ) (e : ε) (cs : List Command) :
    RunsAgree (create settings random d) (create settings random e) cs where
  start := create_alike shows shows' settings random d e
  steps :=
    (SamePicture.simulates shows shows').performAll (create_alike shows shows' settings random d e) cs
  inside cell := ⟨performAll_ne_outside shows _ cs cell, performAll_ne_outside shows' _ cs cell⟩

/-- A text screen, a window screen and the plane may be put in place of each other. -/
theorem displays_interchangeable (settings : Settings) (random : Nat → UInt8) (cs : List Command)
    {width height : Nat} (wide : displayWidth ≤ width) (high : displayHeight ≤ height)
    (withOutput : Bool) {toolkit : Toolkit} {width' height' : Int} (wide' : displayWidth ≤ width')
    (high' : displayHeight ≤ height') (scale : Option Int) (calls : Array WindowCall) :
    let text := create settings random (TextScreen.create width height withOutput)
    let window := create settings random
      (WindowScreen.fresh calls : WindowScreen toolkit width' height' scale)
    let plane := create settings random Plane.empty
    RunsAgree text window cs ∧ RunsAgree window plane cs ∧ RunsAgree text plane cs := by
  have texts := TextScreen.showsPicture wide high
  have windows : ShowsPicture (WindowScreen toolkit width' height' scale) WindowScreen.litAt :=
    WindowScreen.showsPicture wide' high'
  have planes := Plane.showsPicture
  refine ⟨?_, ?_, ?_⟩
  · exact create_runsAgree texts windows settings random _ _ cs
  · exact create_runsAgree windows planes settings random _ _ cs
  · exact create_runsAgree texts planes settings random _ _ cs

theorem displays_interchangeable_standard :
    let text := create .modern (fun _ => 0) (TextScreen.create 64 32 false)
    let window := create .modern (fun _ => 0)
      (WindowScreen.fresh #[] : WindowScreen (.upTo 0x80000000) 70 40 (some 3))
    let plane := create .modern (fun _ => 0) Plane.empty
    let cs : List Command := [.load [0xA0, 0x50, 0xD0, 0x05, 0xF1, 0x0A], .cycle, .cycle, .cycle,
      .key 99 true, .tick, .key 3 true, .reset]
    displayWidth ≤ 64 ∧ displayHeight ≤ 32 ∧ (displayWidth : Int) ≤ 70 ∧ (displayHeight : Int) ≤ 40 ∧
      RunsAgree text window cs ∧ RunsAgree window plane cs ∧ RunsAgree text plane cs := by
  intro text window plane cs
  have wide : displayWidth ≤ 64 := by decide
  have high : displayHeight ≤ 32 := by decide
  have wide' : (displayWidth : Int) ≤ 70 := by decide
  have high' : (displayHeight : Int) ≤ 40 := by decide
  exact ⟨wide, high, wide', high',
    displays_interchangeable .modern (fun _ => 0) cs wide high false wide' high' (some 3) #[]⟩

end Machine

end ChipEight
