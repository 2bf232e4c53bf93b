import ChipEight.Proofs.Repaint

set_option autoImplicit false

namespace ChipEight

namespace WindowScreen

variable {toolkit : Toolkit} {width height n : Int}

structure UpToDate (σ : Surface) (s : WindowScreen toolkit width height (some n)) : Prop where
  touched : s.TouchedWithin
  shown : s.repaint = false → ∀ c : Cell, c.Within width height → c ∉ s.touched →
    ∀ p, c.Block n p → σ.after s.calls.toList p = .ofLit (s.litAt c)

section

variable {σ : Surface} {s : WindowScreen toolkit width height (some n)}

theorem mem_insert_touched {t : Std.TreeSet Cell Cell.order} {c e : Cell} :
    e ∈ t.insert c ↔ e = c ∨ e ∈ t := by
  rw [Std.TreeSet.mem_insert]
  constructor
  · rintro (same | old)
    · exact .inl (Cell.eq_of_order same).symm
    · exact .inr old
  · rintro (rfl | old)
    · exact .inl Std.ReflCmp.compare_self
    · exact .inr old

theorem answer_look (s : WindowScreen toolkit width height (some n)) (c : Cell) :
    Display.answer s (.look c) = s := by
  simp only [Display.answer, Display.look]
  cases s.isLit c <;> rfl

theorem answer_flip (s : WindowScreen toolkit width height (some n)) {c : Cell}
    (inside : c.Within width height) :
    (∀ e : Cell, e.Within width height →
      (Display.answer s (.flip c)).litAt e = if e = c then !s.litAt e else s.litAt e) ∧
      (∀ e, e ∈ (Display.answer s (.flip c)).touched ↔ e = c ∨ e ∈ s.touched) ∧
      (Display.answer s (.flip c)).repaint = s.repaint ∧
      (Display.answer s (.flip c)).calls = s.calls := by
  obtain ⟨toggled, named, turned, touched, repaint, calls⟩ := toggle_of_within s inside
  have flipped : Display.answer s (.flip c) = toggled := by
    simp only [Display.answer, Display.flip, named, Option.getD_some]
  rw [flipped]
  refine ⟨turned, fun e => ?_, repaint, calls⟩
  rw [touched, mem_insert_touched]

theorem upToDate_fresh (σ : Surface) :
    UpToDate σ (fresh #[] : WindowScreen toolkit width height (some n)) where
  touched c h := absurd h Std.TreeSet.not_mem_emptyc
  shown h := by cases h

theorem UpToDate.clear (_ : UpToDate σ s) : UpToDate σ s.clear where
  touched c h := absurd h Std.TreeSet.not_mem_emptyc
  shown h := by cases h

theorem UpToDate.flip (current : UpToDate σ s) {c : Cell} (inside : c.Within width height) :
    UpToDate σ (Display.answer s (.flip c)) := by
  obtain ⟨turned, touched, repaint, calls⟩ := answer_flip s inside
  constructor
  · intro e he
    rcases (touched e).1 he with rfl | old
    · exact inside
    · exact current.touched e old
  · intro quiet e he untouched p block
    rw [touched, not_or] at untouched
    rw [calls, turned e he, if_neg untouched.1]
    exact current.shown (repaint ▸ quiet) e he untouched.2 p block

theorem shown_of_paints (fits : Fits toolkit width height n) (current : UpToDate σ s) {c : Cell}
    (inside : c.Within width height) {p : Pixel} (block : c.Block n p) :
    σ.after (s.calls.toList ++ s.paints) p = .ofLit (s.litAt c) := by
  have painted := paints_due fits.scale fits.named fun _ => within_of_mem_due current.touched
  rw [Surface.after_append]
  -- A cell that is not due shows already, and no block that is painted meets its own.
  by_cases now : c ∈ s.due
  · exact Surface.after_paints_of_mem painted fits.scale _ now block
  · have others : ∀ e ∈ s.due, ¬ e.Block n p := by
      intro e he inside'
      exact now (Cell.eq_of_block fits.scale block inside' ▸ he)
    rw [Surface.after_paints_of_not_mem painted _ others]
    cases all : s.repaint with
    | true =>
      have everything : s.due = allCells width height := by simp [due, all]
      exact absurd (everything ▸ mem_allCells.2 inside) now
    | false =>
      have touchedCells : s.due = s.touched.toList := by simp [due, all]
      have untouched : c ∉ s.touched := fun h =>
        now (touchedCells ▸ Std.TreeSet.mem_toList.2 h)
      exact current.shown all c inside untouched p block

theorem UpToDate.present (fits : Fits toolkit width height n) (current : UpToDate σ s) :
    UpToDate σ (Display.present s).state := by
  obtain ⟨areas, shown, named, calls, _, touched, _, litAt⟩ :=
    present_of_fits fits current.touched
  change UpToDate σ s.present.state
  rw [named]
  constructor
  · intro c hc
    change c ∈ shown.touched at hc
    rw [touched] at hc
    exact absurd hc Std.TreeSet.not_mem_emptyc
  · intro _ c inside _ p block
    change σ.after shown.calls.toList p = .ofLit (shown.litAt c)
    rw [calls, Surface.after_append, litAt]
    exact shown_of_paints fits current inside block

theorem UpToDate.answerAll (fits : Fits toolkit width height n) {history : List PlaneCall}
    (inside : ∀ c : Cell, .flip c ∈ history → c.Within width height) (current : UpToDate σ s) :
    UpToDate σ (Display.answerAll s history) := by
  apply Display.answerAll_keeps history _ s current
  intro call member s current
  cases call with
  | clear => exact current.clear
  | look c => exact (answer_look s c).symm ▸ current
  | flip c => exact current.flip (inside c member)
  | present => exact current.present fits

theorem kept_of_paints (fits : Fits toolkit width height n) (current : UpToDate σ s) {areas : List Rect}
    (cover : ∀ c ∈ s.due, ∀ p, c.Block n p → ∃ r ∈ areas, r.Contains p) {p : Pixel}
    (outside : ∀ r ∈ areas, ¬ r.Contains p) :
    σ.after (s.calls.toList ++ s.paints) p = σ.after s.calls.toList p := by
  rw [Surface.after_append]
  have painted := paints_due fits.scale fits.named fun _ => within_of_mem_due current.touched
  apply Surface.after_paints_of_not_mem painted
  intro c hc block
  obtain ⟨r, hr, contains⟩ := cover c hc p block
  exact outside r hr contains

end

section

variable {s : WindowScreen toolkit width height (some n)}

theorem touched_answerAll {recent : List PlaneCall}
    (inside : ∀ c : Cell, .flip c ∈ recent → c.Within width height)
    (noClear : .clear ∉ recent) (noPresent : .present ∉ recent) :
    (Display.answerAll s recent).repaint = s.repaint ∧
      ∀ c, c ∈ (Display.answerAll s recent).touched ↔ c ∈ s.touched ∨ .flip c ∈ recent := by
  induction recent generalizing s with
  | nil => exact ⟨rfl, by simp [Display.answerAll]⟩
  | cons call rest ih =>
    have later := ih (s := Display.answer s call) (fun c h => inside c (by simp [h]))
      (fun h => noClear (by simp [h])) (fun h => noPresent (by simp [h]))
    obtain ⟨repaint, touched⟩ := later
    rw [Display.answerAll]
    cases call with
    | clear => exact absurd (by simp) noClear
    | present => exact absurd (by simp) noPresent
    | look c =>
      rw [answer_look] at repaint touched ⊢
      refine ⟨repaint, fun e => (touched e).trans ?_⟩
      simp
    | flip c =>
      obtain ⟨_, noted, kept, _⟩ := answer_flip s (inside c (by simp))
      refine ⟨repaint.trans kept, fun e => (touched e).trans ?_⟩
      rw [noted, List.mem_cons, PlaneCall.flip.injEq]
      grind

theorem due_after_present (fits : Fits toolkit width height n) (touched : s.TouchedWithin)
    {recent : List PlaneCall}
    (inside : ∀ c : Cell, .flip c ∈ recent → c.Within width height)
    (noClear : .clear ∉ recent) (noPresent : .present ∉ recent) :
    (Display.answerAll s (.present :: recent)).due.Nodup ∧
      ∀ c, c ∈ (Display.answerAll s (.present :: recent)).due ↔ .flip c ∈ recent := by
  obtain ⟨_, shown, named, _, _, emptied, painted, _⟩ :=
    present_of_fits fits touched
  have presented : Display.answer s .present = shown := congrArg Outcome.state named
  obtain ⟨repaint, noted⟩ := touched_answerAll (s := shown) inside noClear noPresent
  have due : (Display.answerAll shown recent).due =
      (Display.answerAll shown recent).touched.toList := by
    rw [WindowScreen.due, repaint, painted]
    rfl
  rw [Display.answerAll, presented, due]
  refine ⟨nodup_touched _, fun c => ?_⟩
  rw [Std.TreeSet.mem_toList, noted, emptied]
  simp

end

/-- A presentation paints `fills` and reports `areas`, on a window that showed `σ` at first and a
screen that has answered `history`. -/
structure Refreshes (σ : Surface) (history : List PlaneCall)
    (before shown : WindowScreen toolkit width height (some n)) (fills : List WindowCall)
    (areas : List Rect) : Prop where
  calls : shown.calls.toList = before.calls.toList ++ fills ++ [.update areas]
  whole : ∀ c : Cell, c.Within width height → ∃ lit, shown.isLit c = some lit ∧
    ∀ p, c.Block n p → σ.after shown.calls.toList p = .ofLit lit
  reported : ∀ p, σ.after shown.calls.toList p ≠ σ.after before.calls.toList p →
    ∃ r ∈ areas, r.Contains p
  sparing : ∀ earlier recent, history = earlier ++ .present :: recent → .clear ∉ recent →
    .present ∉ recent → ∃ cells : List Cell, cells.Nodup ∧ (∀ c, c ∈ cells ↔ .flip c ∈ recent) ∧
      List.Forall₂ (Paints n shown.litAt) cells fills

/-- After every history, a presentation succeeds and refreshes the window. -/
def Faithful (toolkit : Toolkit) (width height n : Int) : Prop :=
  ∀ (σ : Surface) (history : List PlaneCall),
    (∀ c : Cell, .flip c ∈ history → c.Within width height) →
      ∃ (shown : WindowScreen toolkit width height (some n)) (fills : List WindowCall) (areas : List Rect),
        Display.present (Display.answerAll (fresh #[]) history) = .done shown ∧
          Refreshes σ history (Display.answerAll (fresh #[]) history) shown fills areas

/-- What is painted of a window is as good as all of it. -/
theorem faithful_of_names (hw : 1 ≤ width) (hh : 1 ≤ height) (hn : 1 ≤ n)
    (named : toolkit.Names (width * n) (height * n)) : Faithful toolkit width height n := by
  intro σ history inside
  have fits : Fits toolkit width height n := ⟨hw, hh, hn, named⟩
  have current := (upToDate_fresh σ).answerAll fits inside
  obtain ⟨areas, shown, named, calls, cover, _, _, litAt⟩ :=
    present_of_fits fits current.touched
  refine ⟨shown, _, areas, named, ⟨calls, ?_, ?_, ?_⟩⟩
  · intro c within
    refine ⟨shown.litAt c, isLit_of_within shown within, fun p block => ?_⟩
    rw [calls, Surface.after_append, litAt]
    exact shown_of_paints fits current within block
  · intro p changed
    by_contra outside
    simp only [not_exists, not_and] at outside
    apply changed
    rw [calls, Surface.after_append]
    exact kept_of_paints fits current cover outside
  -- The presentation between `earlier` and `recent` leaves nothing due.
  · rintro earlier recent rfl noClear noPresent
    have early : ∀ c : Cell, .flip c ∈ earlier → c.Within width height :=
      fun c h => inside c (by simp [h])
    have past := (upToDate_fresh σ).answerAll fits early
    have painted := paints_due fits.scale fits.named fun _ => within_of_mem_due current.touched
    rw [← funext litAt, Display.answerAll_append] at painted
    rw [Display.answerAll_append]
    obtain ⟨distinct, flipped⟩ := due_after_present fits past.touched
      (fun c h => inside c (by simp [h])) noClear noPresent
    exact ⟨_, distinct, flipped, painted⟩

theorem faithful_standard :
    (1 : Int) ≤ 64 ∧ (1 : Int) ≤ 32 ∧ (1 : Int) ≤ 8 ∧ (Toolkit.upTo 0x80000000).Names 512 256 ∧
      Faithful (.upTo 0x80000000) 64 32 8 := by
  have named : (Toolkit.upTo 0x80000000).Names 512 256 := Toolkit.names_upTo (by decide) (by decide)
  exact ⟨by decide, by decide, by decide, named,
    faithful_of_names (by decide) (by decide) (by decide) named⟩

end WindowScreen

end ChipEight
