import ChipEight.Proofs.Simulation

set_option autoImplicit false

/-!
# Calls on a display

A history is a sequence of calls on a display; a call on a cell that the display lacks changes
nothing. A watched display passes everything on to the display that it holds and notes what was
answered, in order. Watching does not create a second semantics: a machine on a watched display goes
through the states of the machine on the display itself.
-/
namespace ChipEight

variable {δ : Type}

structure Watched (δ : Type) where
  display : δ
  calls : List PlaneCall

def Machine.watched (m : Machine δ) : Machine (Watched δ) where
  settings := m.settings
  random := m.random
  core := m.core
  display := ⟨m.display, []⟩
  log := m.log

theorem Machine.watched_alike (m : Machine δ) :
    Alike (fun (w : Watched δ) d => w.display = d) m.watched m :=
  ⟨rfl, rfl, rfl, rfl, rfl⟩

variable [Display δ]

namespace Display

def answer (d : δ) : PlaneCall → δ
  | .clear => clear d
  | .look c => ((look d c).map Prod.snd).getD d
  | .flip c => (flip d c).getD d
  | .present => (present d).state

def answerAll (d : δ) : List PlaneCall → δ
  | [] => d
  | call :: rest => answerAll (answer d call) rest

theorem answerAll_append (d : δ) (earlier later : List PlaneCall) :
    answerAll d (earlier ++ later) = answerAll (answerAll d earlier) later := by
  induction earlier generalizing d with
  | nil => rfl
  | cons call rest ih => exact ih _

theorem answerAll_keeps {P : δ → Prop} (history : List PlaneCall)
    (step : ∀ call ∈ history, ∀ d : δ, P d → P (answer d call)) (d : δ) (h : P d) :
    P (answerAll d history) := by
  induction history generalizing d with
  | nil => exact h
  | cons call rest ih =>
    have first : P (answer d call) := step call (by simp) d h
    exact ih (fun c hc => step c (by simp [hc])) _ first

end Display

instance : Display (Watched δ) where
  clear w := ⟨Display.clear w.display, w.calls ++ [.clear]⟩
  look w c := (Display.look w.display c).map fun p => (p.1, ⟨p.2, w.calls ++ [.look c]⟩)
  flip w c := (Display.flip w.display c).map fun d => ⟨d, w.calls ++ [.flip c]⟩
  present w := (Display.present w.display).map fun d => ⟨d, w.calls ++ [.present]⟩
  renders w := Display.renders w.display

theorem Watched.simulates :
    Simulates fun (w : Watched δ) (d : δ) => w.display = d where
  clear := by
    rintro w d rfl
    rfl
  look := by
    rintro w d c _ rfl
    change Option.Rel _ ((Display.look w.display c).map _) _
    cases Display.look w.display c with
    | none => exact .none
    | some p => exact .some ⟨rfl, rfl⟩
  flip := by
    rintro w d c _ rfl
    change Option.Rel _ ((Display.flip w.display c).map _) _
    cases Display.flip w.display c with
    | none => exact .none
    | some d => exact .some rfl

theorem Watched.calls_flipAll (cells : List Cell) (hit : Bool) (w : Watched δ)
    (drawn : (Drawing.flipAll cells hit w).missing = none) :
    (Drawing.flipAll cells hit w).display.calls =
      w.calls ++ cells.flatMap fun c => [.look c, .flip c] := by
  induction cells generalizing hit w with
  | nil => simp [Drawing.flipAll]
  | cons c rest ih =>
    simp only [Drawing.flipAll, Display.look, Display.flip] at drawn ⊢
    cases looked : Display.look w.display c with
    | none => simp [looked] at drawn
    | some p =>
      cases flipped : Display.flip p.2 c with
      | none => simp [looked, flipped] at drawn
      | some d =>
        simp only [looked, flipped, Option.map_some] at drawn ⊢
        rw [ih _ _ drawn, List.flatMap_cons]
        simp only [List.append_assoc, List.cons_append, List.nil_append]

end ChipEight
