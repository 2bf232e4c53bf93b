import ChipEight.Proofs.DisplayCalls
import ChipEight.Proofs.Page
import Mathlib.Data.List.DropRight

set_option autoImplicit false

namespace ChipEight.TextScreen

variable {width height : Nat}

/-- How often a cell was flipped since the last clear. -/
def flips (history : List PlaneCall) (c : Cell) : Nat :=
  (history.rtakeWhile fun call => call != .clear).count (.flip c)

def oddlyFlipped (history : List PlaneCall) (c : Cell) : Bool := flips history c % 2 == 1

theorem oddlyFlipped_concat (history : List PlaneCall) (call : PlaneCall) (c : Cell) :
    oddlyFlipped (history ++ [call]) c =
      if call = .clear then false else (oddlyFlipped history c ^^ decide (call = .flip c)) := by
  by_cases clears : call = .clear
  · simp [oddlyFlipped, flips, clears]
  · by_cases same : call = .flip c
    · have one : flips (history ++ [call]) c = flips history c + 1 := by simp [flips, same]
      rw [oddlyFlipped, oddlyFlipped, one]
      rcases Nat.mod_two_eq_zero_or_one (flips history c) with even | odd
      · simp [same, Nat.add_mod, even]
      · simp [same, Nat.add_mod, odd]
    · simp [oddlyFlipped, flips, clears, same]

theorem exists_of_within {c : Cell} (inside : c.Within width height) :
    ∃ x y : Nat, x < width ∧ y < height ∧ c = ⟨x, y⟩ := by
  obtain ⟨x0, x1, y0, y1⟩ := inside
  refine ⟨c.x.toNat, c.y.toNat, by omega, by omega, ?_⟩
  rw [Int.toNat_of_nonneg x0, Int.toNat_of_nonneg y0]

theorem isLit_of_within (s : TextScreen width height) {c : Cell} (inside : c.Within width height) :
    s.isLit c = some (s.litAt c) := by
  obtain ⟨x, y, hx, hy, rfl⟩ := exists_of_within inside
  simp [litAt, isLit, place, slot_ofNat hx, slot_ofNat hy]

theorem toggle_of_within (s : TextScreen width height) {c : Cell} (inside : c.Within width height) :
    ∃ toggled, s.toggle c = some toggled ∧ toggled.output = s.output ∧
      ∀ e : Cell, e.Within width height →
        toggled.litAt e = if e = c then !s.litAt e else s.litAt e := by
  obtain ⟨x, y, hx, hy, rfl⟩ := exists_of_within inside
  refine ⟨{ s with rows := s.rows.set y (s.rows[y].set x (!s.rows[y][x])) }, ?_, rfl, ?_⟩
  · simp [toggle, place, slot_ofNat hx, slot_ofNat hy]
  intro e he
  obtain ⟨x', y', hx', hy', rfl⟩ := exists_of_within he
  simp only [litAt_of_lt _ hx' hy', Cell.mk.injEq, Int.natCast_inj]
  by_cases row : y = y'
  · by_cases column : x = x'
    · subst row column
      simp
    · subst row
      simp [column, Ne.symm column]
  · simp [row, Ne.symm row]

theorem answer_look (s : TextScreen width height) (c : Cell) : Display.answer s (.look c) = s := by
  simp only [Display.answer, Display.look]
  cases s.isLit c <;> rfl

theorem litAt_answer (s : TextScreen width height) {call : PlaneCall}
    (inside : ∀ e : Cell, call = .flip e → e.Within width height) {c : Cell}
    (within : c.Within width height) : (Display.answer s call).litAt c =
      if call = .clear then false else (s.litAt c ^^ decide (call = .flip c)) := by
  cases call with
  | clear =>
    obtain ⟨x, y, hx, hy, rfl⟩ := exists_of_within within
    simp [Display.answer, Display.clear, litAt_of_lt _ hx hy, dark]
  | look e => simp [answer_look]
  | present => simp [Display.answer, Display.present, litAt, isLit, Outcome.done]
  | flip e =>
    obtain ⟨toggled, named, _, turned⟩ := toggle_of_within s (inside e rfl)
    have flipped : Display.answer s (.flip e) = toggled := by
      simp only [Display.answer, Display.flip, named, Option.getD_some]
    rw [flipped, turned c within]
    by_cases same : c = e
    · simp [same]
    · simp [same, Ne.symm same]

theorem litAt_answerAll (withOutput : Bool) {history : List PlaneCall}
    (inside : ∀ c : Cell, .flip c ∈ history → c.Within width height) {c : Cell}
    (within : c.Within width height) :
    (Display.answerAll (create width height withOutput) history).litAt c =
      oddlyFlipped history c := by
  induction history using List.reverseRecOn with
  | nil =>
    obtain ⟨x, y, hx, hy, rfl⟩ := exists_of_within within
    simp [Display.answerAll, litAt_of_lt _ hx hy, create, dark, oddlyFlipped, flips]
  | append_singleton earlier call ih =>
    have last : ∀ e : Cell, call = .flip e → e.Within width height := by
      rintro e rfl
      exact inside e (by simp)
    have before := ih fun e he => inside e (by simp [he])
    rw [Display.answerAll_append, Display.answerAll, Display.answerAll, litAt_answer _ last within,
      before, oddlyFlipped_concat]

def lines (text : List Char) : List (List Char) := text.splitOn '\n'

def frames (s : TextScreen width height) : List PlaneCall → List (List Char)
  | [] => []
  | call :: rest =>
    (if call = .present then [s.render.toList] else []) ++ frames (Display.answer s call) rest

theorem glyph_ne_newline (lit : Bool) : glyph lit ≠ '\n' := by
  cases lit <;> decide

theorem lines_render (rows : 0 < height) (s : TextScreen width height) :
    lines s.render.toList = (List.range height).map fun (y : Nat) =>
      (List.range width).map fun (x : Nat) => glyph (s.litAt ⟨x, y⟩) := by
  rw [lines, render, String.toList_ofList, map_line]
  apply List.splitOn_intercalate
  · intro text member newline
    obtain ⟨y, _, rfl⟩ := List.mem_map.1 member
    obtain ⟨x, _, glyph'⟩ := List.mem_map.1 newline
    exact glyph_ne_newline _ glyph'
  · simp
    omega

theorem length_lines_render (rows : 0 < height) (s : TextScreen width height) :
    (lines s.render.toList).length = height := by
  rw [lines_render rows, List.length_map, List.length_range]

theorem frames_append (s : TextScreen width height) (earlier later : List PlaneCall) :
    frames s (earlier ++ later) = frames s earlier ++ frames (Display.answerAll s earlier) later := by
  induction earlier generalizing s with
  | nil => rfl
  | cons call rest ih => rw [List.cons_append, frames, frames, ih, List.append_assoc, Display.answerAll]

theorem length_frames (s : TextScreen width height) (history : List PlaneCall) :
    (frames s history).length = history.count .present := by
  induction history generalizing s with
  | nil => rfl
  | cons call rest ih =>
    rw [frames, List.length_append, ih, List.count_cons]
    by_cases presents : call = .present <;> simp [presents, Nat.add_comm]

theorem length_lines_of_mem_frames (rows : 0 < height) {s : TextScreen width height}
    {history : List PlaneCall} {frame : List Char} (member : frame ∈ frames s history) :
    (lines frame).length = height := by
  induction history generalizing s with
  | nil => simp [frames] at member
  | cons call rest ih =>
    rw [frames, List.mem_append] at member
    rcases member with here | later
    · split at here
      · rw [List.mem_singleton.1 here]
        exact length_lines_render rows s
      · cases here
    · exact ih later

theorem output_answer (s : TextScreen width height) (call : PlaneCall) :
    (Display.answer s call).output = if call = .present then
      s.output.map fun written => written ++ s.render ++ "\n" else s.output := by
  cases call with
  | clear | present => rfl
  | look c => simp [answer_look]
  | flip c =>
    simp only [Display.answer, Display.flip, toggle]
    cases place width height c <;> rfl

theorem output_answerAll (s : TextScreen width height) (history : List PlaneCall) :
    (Display.answerAll s history).output.map String.toList = s.output.map fun written =>
      written.toList ++ (frames s history).flatMap fun frame => frame ++ ['\n'] := by
  induction history generalizing s with
  | nil => simp [Display.answerAll, frames]
  | cons call rest ih =>
    rw [Display.answerAll, ih, output_answer, frames]
    by_cases presents : call = .present
    · simp [presents, Function.comp_def]
    · simp [presents]

theorem lines_flatMap {texts : List (List Char)} (even : ∀ t ∈ texts, (lines t).length = height)
    {k : Nat} {text : List Char} (here : texts[k]? = some text) :
    ((lines (texts.flatMap fun t => t ++ ['\n'])).drop (k * height)).take height = lines text := by
  induction texts generalizing k with
  | nil => simp at here
  | cons first rest ih =>
    have parts : lines ((first :: rest).flatMap fun t => t ++ ['\n']) =
        lines first ++ lines (rest.flatMap fun t => t ++ ['\n']) := by
      rw [List.flatMap_cons, List.append_assoc]
      exact List.splitOnP_append_cons first _ rfl
    have length := even first (by simp)
    rw [parts]
    cases k with
    | zero =>
      obtain rfl : first = text := by simpa using here
      rw [Nat.zero_mul, List.drop_zero, List.take_left' length]
    | succ k =>
      rw [Nat.succ_mul, Nat.add_comm, ← List.drop_drop, List.drop_left' length]
      exact ih (fun t ht => even t (by simp [ht])) (by simpa using here)

theorem getElem?_frames (s : TextScreen width height) (earlier later : List PlaneCall) :
    (frames s (earlier ++ .present :: later))[earlier.count .present]? =
      some (Display.answerAll s earlier).render.toList := by
  rw [frames_append, ← length_frames s earlier, List.getElem?_append_right (Nat.le_refl _),
    Nat.sub_self, frames, if_pos rfl]
  rfl

/-- The rendering of a screen with a history, line by line and glyph by glyph. -/
structure ShowsHistory (history : List PlaneCall) (s : TextScreen width height) : Prop where
  rows : (lines s.render.toList).length = height
  columns : ∀ text ∈ lines s.render.toList, text.length = width
  glyphs : ∀ x y : Nat, x < width → y < height → ∃ text g, (lines s.render.toList)[y]? = some text ∧
    text[x]? = some g ∧ (g = litGlyph ↔ flips history ⟨x, y⟩ % 2 = 1) ∧
      (g = darkGlyph ↔ flips history ⟨x, y⟩ % 2 = 0)
  look : ∀ c : Cell, c.Within width height → s.isLit c = some (flips history c % 2 == 1)
  flip : ∀ c : Cell, c.Within width height → ∃ flipped, Display.flip s c = some flipped

/-- What a history writes to the output of a screen, and how its frames are found there. -/
structure WritesHistory (start : TextScreen width height) (history : List PlaneCall)
    (written : List Char) : Prop where
  whole : written = (frames start history).flatMap fun frame => frame ++ ['\n']
  count : (frames start history).length = history.count .present
  presented : ∀ earlier later, history = earlier ++ .present :: later →
    (frames start history)[earlier.count .present]? =
      some (Display.answerAll start earlier).render.toList
  found : ∀ (k : Nat) (frame : List Char), (frames start history)[k]? = some frame →
    List.intercalate ['\n'] (((lines written).drop (k * height)).take height) = frame

theorem showsHistory (rows : 0 < height) (withOutput : Bool) {history : List PlaneCall}
    (inside : ∀ c : Cell, .flip c ∈ history → c.Within width height) :
    ShowsHistory history (Display.answerAll (create width height withOutput) history) where
  rows := length_lines_render rows _
  columns text member := by
    rw [lines_render rows] at member
    obtain ⟨y, _, rfl⟩ := List.mem_map.1 member
    rw [List.length_map, List.length_range]
  glyphs x y hx hy := by
    have within : (⟨x, y⟩ : Cell).Within width height := by
      simp only [Cell.Within]
      omega
    refine ⟨_, _, by rw [lines_render rows]; simp [hy]; rfl, by simp [hx]; rfl, ?_⟩
    rw [litAt_answerAll withOutput inside within, oddlyFlipped]
    rcases Nat.mod_two_eq_zero_or_one (flips history ⟨x, y⟩) with even | odd
    · rw [even]
      decide
    · rw [odd]
      decide
  look c within := by
    rw [isLit_of_within _ within, litAt_answerAll withOutput inside within, oddlyFlipped]
  flip c within := by
    obtain ⟨toggled, named, _⟩ := toggle_of_within _ within
    exact ⟨toggled, named⟩

theorem writesHistory (rows : 0 < height) (start : TextScreen width height)
    (history : List PlaneCall) :
    WritesHistory start history ((frames start history).flatMap fun frame => frame ++ ['\n']) where
  whole := rfl
  count := length_frames start history
  presented earlier later split := by
    rw [split]
    exact getElem?_frames start earlier later
  found k frame here := by
    rw [lines_flatMap (fun t ht => length_lines_of_mem_frames rows ht) here]
    exact List.intercalate_splitOn '\n'

/-- A text screen shows which cells were flipped oddly since the last clear, and its output keeps each
frame that was presented. -/
theorem text_shows_history (rows : 1 ≤ height) (withOutput : Bool) {history : List PlaneCall}
    (inside : ∀ c : Cell, .flip c ∈ history → c.Within width height) :
    ShowsHistory history (Display.answerAll (create width height withOutput) history) ∧
      (withOutput = false →
        (Display.answerAll (create width height withOutput) history).output = none) ∧
      (withOutput = true → ∃ written,
        (Display.answerAll (create width height withOutput) history).output = some written ∧
          WritesHistory (create width height withOutput) history written.toList) := by
  have output := output_answerAll (create width height withOutput) history
  refine ⟨showsHistory rows withOutput inside, ?_, ?_⟩
  · rintro rfl
    exact Option.map_eq_none_iff.1 output
  · rintro rfl
    obtain ⟨written, here, same⟩ := Option.map_eq_some_iff.1 output
    refine ⟨written, here, ?_⟩
    rw [same]
    exact writesHistory rows _ history

def twoFrames : List PlaneCall := [
  .flip ⟨1, 0⟩, .present, .flip ⟨0, 1⟩, .clear, .flip ⟨0, 1⟩, .flip ⟨1, 1⟩, .flip ⟨0, 1⟩, .present]

theorem text_shows_history_twoFrames :
    1 ≤ 2 ∧ (∀ c : Cell, .flip c ∈ twoFrames → c.Within (2 : Nat) (2 : Nat)) ∧
      (Display.answerAll (create 2 2 true) twoFrames).isLit ⟨1, 1⟩ = some true ∧
      ∃ written, (Display.answerAll (create 2 2 true) twoFrames).output = some written ∧
        List.intercalate ['\n'] (((lines written.toList).drop (1 * 2)).take 2) =
          [' ', ' ', '\n', ' ', '█'] := by
  have inside : ∀ c : Cell, .flip c ∈ twoFrames → c.Within (2 : Nat) (2 : Nat) := by
    intro c member
    simp only [twoFrames, List.mem_cons, List.not_mem_nil, or_false, reduceCtorEq, false_or,
      PlaneCall.flip.injEq] at member
    rcases member with rfl | rfl | rfl | rfl | rfl <;> simp [Cell.Within]
  have rows : 1 ≤ 2 := by decide
  obtain ⟨shows, _, writes⟩ := text_shows_history rows true inside
  obtain ⟨written, output, kept⟩ := writes rfl
  refine ⟨rows, inside, ?_, written, output, kept.found 1 _ (by decide)⟩
  rw [shows.look ⟨1, 1⟩ (by simp [Cell.Within])]
  decide

end ChipEight.TextScreen
