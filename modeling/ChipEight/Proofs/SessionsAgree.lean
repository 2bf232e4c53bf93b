import ChipEight.Proofs.Boot
import ChipEight.Proofs.FaithfulWindow
import ChipEight.Proofs.Frames
import ChipEight.Proofs.Page
import ChipEight.Proofs.HostPairs

set_option autoImplicit false

namespace ChipEight

open TextScreen (page)

def Beside {toolkit : Toolkit} {scale : Option Int} (d : TextScreen displayWidth displayHeight)
    (e : WindowScreen toolkit displayWidth displayHeight scale) : Prop :=
  SamePicture d e ∧ d.renders = e.renders ∧ ∀ c, c ∈ e.touched → c.Within displayWidth displayHeight

theorem textShows :
    ShowsPicture (TextScreen displayWidth displayHeight) TextScreen.litAt :=
  TextScreen.showsPicture (Nat.le_refl _) (Nat.le_refl _)

theorem windowShows (toolkit : Toolkit) (scale : Option Int) :
    ShowsPicture (WindowScreen toolkit displayWidth displayHeight scale) WindowScreen.litAt :=
  WindowScreen.showsPicture (Int.le_refl _) (Int.le_refl _)

namespace Beside

variable {toolkit : Toolkit} {scale : Option Int} {d : TextScreen displayWidth displayHeight}
  {e : WindowScreen toolkit displayWidth displayHeight scale}

theorem picture (beside : Beside d e) : SamePicture d e := beside.1

theorem renders (beside : Beside d e) : d.renders = e.renders := beside.2.1

theorem litAt_eq (beside : Beside d e) {c : Cell} (on : c.OnPicture) : d.litAt c = e.litAt c :=
  (samePicture_iff textShows (windowShows toolkit scale)).1 beside.picture c on

theorem page_eq (beside : Beside d e) :
    page displayWidth displayHeight d.litAt = page displayWidth displayHeight e.litAt := by
  apply TextScreen.page_congr
  intro x y hx hy
  exact beside.litAt_eq ⟨by simp, by simpa using hx, by simp, by simpa using hy⟩

theorem call (beside : Beside d e) (c : WindowCall) : Beside d (e.call c) :=
  ⟨(samePicture_iff textShows (windowShows toolkit scale)).2 fun _ on => beside.litAt_eq on, beside.2⟩

theorem simulates : Simulates (@Beside toolkit scale) := by
  refine (SamePicture.simulates textShows (windowShows toolkit scale)).refine ?_ ?_ ?_
  · rintro d e ⟨renders, _⟩
    exact ⟨renders, fun c touched => absurd touched Std.TreeSet.not_mem_emptyc⟩
  · rintro d e c p q _ looked looked' within
    obtain ⟨_, _, rfl⟩ := Option.map_eq_some_iff.1 looked
    obtain ⟨_, _, rfl⟩ := Option.map_eq_some_iff.1 looked'
    exact within
  · rintro d e c d' e' on flipped flipped' ⟨renders, within⟩
    obtain ⟨_, _, rfl⟩ := Option.map_eq_some_iff.1 flipped
    obtain ⟨_, _, rfl⟩ := Option.map_eq_some_iff.1 flipped'
    refine ⟨renders, fun b touched => ?_⟩
    rcases WindowScreen.mem_insert_touched.1 touched with rfl | before
    · exact on
    · exact within b before

theorem accompanies {n : Int} (scaled : scale = some n)
    (fits : WindowScreen.Fits toolkit displayWidth displayHeight n) :
    Host.Accompanies (@Beside toolkit scale) where
  simulates := simulates
  renders d e beside := beside.renders
  present d e beside := by
    subst scaled
    obtain ⟨picture, renders, within⟩ := beside
    have able : e.presentable = true := WindowScreen.presentable_of_fits fits within
    have lit : ∀ c : Cell, c.OnPicture → d.litAt c = e.litAt c :=
      (samePicture_iff textShows (windowShows _ _)).1 picture
    change Outcome.Alike Beside (.done _) e.present
    unfold WindowScreen.present
    rw [if_pos able]
    exact ⟨rfl, (samePicture_iff textShows (windowShows _ _)).2 lit, congrArg (· + 1) renders,
      fun c touched => absurd touched Std.TreeSet.not_mem_emptyc⟩

end Beside

theorem WindowScreen.keeps_repaint {toolkit : Toolkit} {width height : Int} {scale : Option Int} :
    Display.Keeps fun s : WindowScreen toolkit width height scale => s.repaint = true := by
  refine WindowScreen.keeps (fun _ _ => rfl) ?_
  intro s c toggled _ flip due
  obtain ⟨_, _, rfl⟩ := Option.map_eq_some_iff.1 flip
  exact due

namespace Session

/-- What both sessions are given: a program that fits, a speed, a dump that can be written, and as
many polls as frames, none with an event of a key, of which the last alone closes the window. -/
structure Comparable (s : Setting) (rom : List UInt8) (speed : Int) (path : String) (frames : Nat) :
    Prop where
  fits : rom.length ≤ programCapacity
  paced : s.options.speed = .value speed
  named : s.options.dump = .value path
  writable : s.storage.refusal path = none
  unbound : ∀ events ∈ s.script, ∀ e ∈ events, e.Unbound .standard
  closing : ∃ earlier last, s.script = earlier ++ [last] ∧ earlier.length + 1 = frames ∧
    (∀ events ∈ earlier, .quit ∉ events) ∧ .quit ∈ last

variable {s : Setting} {rom : List UInt8} {speed : Int} {path : String} {frames : Nat}

theorem fits_of_opens {n : Int} (scaled : s.options.scale = .value n) (positive : 1 ≤ n)
    (lawful : s.toolkit.Lawful) (opened : s.toolkit.opens (windowSize s.options.scale) = true) :
    WindowScreen.Fits s.toolkit displayWidth displayHeight n := by
  rw [scaled] at opened
  exact ⟨by decide, by decide, positive, lawful.names _ _ opened⟩

theorem abreast_start (unbound : ∀ events ∈ s.script, ∀ e ∈ events, e.Unbound .standard)
    (polls speed : Int) (rom : List UInt8) : Host.Abreast Beside
      (headlessHost s.options s.random polls speed rom) (windowStart s speed rom) := by
  have dark : Beside (Display.clear (TextScreen.create displayWidth displayHeight false))
      (Display.clear (windowScreen s)) := by
    refine ⟨(samePicture_iff textShows (windowShows _ _)).2 ?_, rfl, ?_⟩
    · intro c on
      rw [textShows.clear _ c on, (windowShows _ _).clear _ c on]
    · exact fun c touched => absurd touched Std.TreeSet.not_mem_emptyc
  have created : Machine.Alike Beside
      (Machine.create s.options.settings s.random (TextScreen.create displayWidth displayHeight false))
      (Machine.create s.options.settings s.random (windowScreen s)) :=
    ⟨rfl, rfl, rfl, rfl, dark⟩
  refine ⟨(created.load _).state, rfl, rfl, rfl, fun d e beside => beside.call _, ?_, ?_⟩
  · simp [Host.Quiet, headlessHost, Host.create]
  · rintro map isOpen same
    obtain rfl := (Keypad.scripted.inj same).1
    exact unbound

theorem planned_windowStart (comparable : Comparable s rom speed path frames) :
    (windowStart s speed rom).planned = frames := by
  obtain ⟨earlier, last, script, length, still, closes⟩ := comparable.closing
  have open' : earlier.findIdx (fun events => events.contains .quit) = earlier.length :=
    List.findIdx_eq_length_of_false fun events member => by simpa using still events member
  change (s.script.findIdx fun events => events.contains .quit) + 1 = frames
  rw [script, List.findIdx_append, open', if_neg (Nat.lt_irrefl _), ← length]
  simp [closes, List.findIdx_cons]

/-- The hosts have counted the same and presented as often, and but for the displays their machines are
equal, with one picture on both. -/
structure SameEnd (last : Host (TextScreen displayWidth displayHeight))
    (shown : Host (Screen s)) : Prop where
  machines : Machine.Alike SamePicture last.machine shown.machine
  instructions : last.instructions = shown.instructions
  frames : last.frames = shown.frames
  renders : last.machine.display.renders = shown.machine.display.renders

theorem sameEnd_of_abreast {last : Host (TextScreen displayWidth displayHeight)}
    {shown : Host (Screen s)} (abreast : Host.Abreast Beside last shown) :
    SameEnd last shown where
  machines := abreast.machine.imp fun _ _ beside => beside.picture
  instructions := abreast.instructions
  frames := abreast.frames
  renders := abreast.machine.display.renders

/-- Without a window and with one, a session completes its frames with one machine and one picture, or
it meets one fault with one machine and dumps that. -/
inductive Agree (s : Setting) (rom : List UInt8) (speed : Int) (path : String) (frames : Nat) : Prop
  | finished {last : Host (TextScreen displayWidth displayHeight)} {shown : Host (Screen s)}
      (unseen : (headlessHost s.options s.random frames speed rom).run = .done last)
      (seen : (windowStart s speed rom).run = .done shown)
      (same : SameEnd last shown) (completed : last.frames = frames)
      (ending : (headless s (.value frames) rom).ending = .finished)
      (ending' : (windowed s rom).ending = .finished)
      (printed : (headless s (.value frames) rom).printed.toList =
        page displayWidth displayHeight shown.machine.display.litAt) :
      Agree s rom speed path frames
  | stopped {last : Host (TextScreen displayWidth displayHeight)} {shown : Host (Screen s)}
      {f : Fault}
      (unseen : (headlessHost s.options s.random frames speed rom).run = .failed f last)
      (seen : (windowStart s speed rom).run = .failed f shown)
      (same : SameEnd last shown)
      (ending : (headless s (.value frames) rom).ending = .failed (.machine f))
      (ending' : (windowed s rom).ending = .failed (.machine f))
      (dumps : (headless s (.value frames) rom).dumps = [(path, last.machine.core.dump)])
      (dumps' : (windowed s rom).dumps = [(path, last.machine.core.dump)]) :
      Agree s rom speed path frames

/-- A window that was opened shows what is printed without one. -/
theorem sessions_agree {n : Int} (scaled : s.options.scale = .value n) (positive : 1 ≤ n)
    (lawful : s.toolkit.Lawful) (opened : s.toolkit.opens (windowSize s.options.scale) = true)
    (comparable : Comparable s rom speed path frames) : Agree s rom speed path frames := by
  have scale : s.options.scale.toOption = some n := by
    rw [scaled]
    rfl
  have accompanies := Beside.accompanies scale (fits_of_opens scaled positive lawful opened)
  have abreast := abreast_start comparable.unbound frames speed rom
  obtain ⟨standard, planned⟩ := standard_headlessHost s.options s.random frames speed rom
  rw [Int.toNat_natCast] at planned
  have alike := Host.abreast_run accompanies abreast standard (standard_windowStart s speed rom)
    (planned.trans (planned_windowStart comparable).symm)
  have unseenRun := headless_of_fits frames comparable.fits comparable.paced
  have seenRun := windowed_of_fits opened comparable.fits comparable.paced
  cases seen : (windowStart s speed rom).run with
  | mk shown fault =>
    obtain ⟨last, reached, unseen⟩ | ⟨_, _, last, f, _, _, _, unseen⟩ :=
      Host.run_cases textShows (fun _ => rfl) standard
    · rw [unseen, seen] at alike
      obtain rfl : fault = none := alike.fault.symm
      have counted := (Host.counts_of_reaches standard reached (Host.tally_schedule _ _)).1
      rw [headlessRun_of_done unseen] at unseenRun
      refine .finished unseen seen (sameEnd_of_abreast alike.state) ?_ ?_ ?_ ?_
      · exact counted.trans ((Nat.zero_add _).trans planned)
      · rw [unseenRun]
        rfl
      · rw [seenRun]
        exact windowRun_of_done comparable.named comparable.writable seen
      · rw [unseenRun]
        exact (TextScreen.toList_render (by decide) _).trans alike.state.machine.display.page_eq
    · rw [unseen, seen] at alike
      obtain rfl : fault = some f := alike.fault.symm
      rw [headlessRun_of_failed comparable.named comparable.writable unseen] at unseenRun
      obtain ⟨ending, dumps⟩ := windowRun_of_failed comparable.named comparable.writable seen
      have core : last.machine.core = shown.machine.core := alike.state.machine.core
      refine .stopped unseen seen (sameEnd_of_abreast alike.state) ?_ ?_ ?_ ?_
      · rw [unseenRun]
        rfl
      · rw [seenRun, ending]
      · rw [unseenRun]
      · rw [seenRun, dumps, core]

def brief : Setting where
  options := Options.standard
  level := .info
  storage := ⟨fun _ => .nothing, fun _ => none⟩
  toolkit := .upTo 0x80000000
  random := fun _ => 0
  script := [[.quit]]

theorem comparable_brief : Comparable brief [0x00, 0xE0] 600 "debug.txt" 1 where
  fits := by decide
  paced := rfl
  named := rfl
  writable := rfl
  unbound := by simp [brief, KeyEvent.Unbound]
  closing := ⟨[], [.quit], rfl, rfl, by simp, by simp⟩

theorem lawful_brief : brief.toolkit.Lawful := Toolkit.lawful_upTo _

theorem opens_brief : brief.toolkit.opens (windowSize brief.options.scale) = true := by decide

theorem fits_brief : WindowScreen.Fits brief.toolkit displayWidth displayHeight 8 :=
  fits_of_opens rfl (by decide) lawful_brief opens_brief

theorem sessions_agree_standard :
    brief.options.scale = .value 8 ∧ (1 : Int) ≤ 8 ∧ brief.toolkit.Lawful ∧
      brief.toolkit.opens (windowSize brief.options.scale) = true ∧
      Comparable brief [0x00, 0xE0] 600 "debug.txt" 1 ∧
      Agree brief [0x00, 0xE0] 600 "debug.txt" 1 :=
  ⟨rfl, by decide, lawful_brief, opens_brief, comparable_brief,
    sessions_agree rfl (by decide) lawful_brief opens_brief comparable_brief⟩

end Session

end ChipEight
