import ChipEight.Proofs.Boot
import ChipEight.Proofs.FrameLoop
import ChipEight.Proofs.OptionValues
import ChipEight.Proofs.Page
import Mathlib.Logic.ExistsUnique

set_option autoImplicit false

namespace ChipEight

namespace Session

inductive Unusable (storage : Storage) (name : String) : Failure → Prop
  | missing (found : storage.find (Path.ofString name) = .nothing) :
      Unusable storage name (.rom (.notFound (Path.ofString name)))
  | refused {why : Refusal} (found : storage.find (Path.ofString name) = .refused why) :
      Unusable storage name (.rom (.refused why))
  | unreadable {why : Refusal} (found : storage.find (Path.ofString name) = .unreadable why) :
      Unusable storage name (.rom (.refused why))
  | empty (found : storage.find (Path.ofString name) = .file []) :
      Unusable storage name (.rom (.empty (Path.ofString name)))
  | tooLarge {rom : List UInt8} (found : storage.find (Path.ofString name) = .file rom)
      (large : programCapacity < rom.length) :
      Unusable storage name (.machine (.programTooLarge rom.length))

structure Usable (storage : Storage) (name : String) (rom : List UInt8) : Prop where
  found : storage.find (Path.ofString name) = .file rom
  filled : rom ≠ []
  fits : rom.length ≤ programCapacity

structure Silent (r : Report) : Prop where
  printed : r.printed = ""
  dumps : r.dumps = []

inductive Course
  | refused
  | completed
  | stopped

/-- The session that ends in this report took this course. -/
inductive Takes (storage : Storage) (random : Nat → UInt8) (o : Options) (frames : Int)
    (path : String) (r : Report) : Course → Prop
  | refused {f : Failure} (unusable : Unusable storage o.rom f) (ending : r.ending = .failed f)
      (silent : Silent r) : Takes storage random o frames path r .refused
  | completed {rom : List UInt8} {speed : Int} (usable : Usable storage o.rom rom)
      (given : o.speed = .value speed) {last : Host (TextScreen displayWidth displayHeight)}
      (reached : (headlessHost o random frames speed rom).Reaches
        (Host.schedule frames.toNat (Host.share speed)) last)
      (counted : last.frames = frames.toNat) (ending : r.ending = .finished)
      (printed : r.printed.toList =
        TextScreen.page displayWidth displayHeight last.machine.display.litAt)
      (dumps : r.dumps = []) : Takes storage random o frames path r .completed
  | stopped {rom : List UInt8} {speed : Int} (usable : Usable storage o.rom rom)
      (given : o.speed = .value speed) {earlier later : List Host.Act}
      (planned : Host.schedule frames.toNat (Host.share speed) = earlier ++ .cycle :: later)
      {last : Host (TextScreen displayWidth displayHeight)}
      (reached : (headlessHost o random frames speed rom).Reaches earlier last) {f : Fault}
      (failed : last.machine.cycle.fault = some f) (ending : r.ending = .failed (.machine f))
      (printed : r.printed = "") (dumps : r.dumps = [(path, last.machine.core.dump)]) :
      Takes storage random o frames path r .stopped

variable {storage : Storage} {random : Nat → UInt8} {o : Options} {frames : Int} {path : String}
  {r : Report}

/-- The course that a report tells of. -/
def courseOf (r : Report) : Course :=
  match r.ending with
  | .finished => .completed
  | .failed _ | .stopped _ => if r.dumps.isEmpty then .refused else .stopped

theorem Takes.eq_courseOf {course : Course} (h : Takes storage random o frames path r course) :
    course = courseOf r := by
  unfold courseOf
  cases h with
  | completed _ _ _ _ ending => rw [ending]
  | refused unusable ending silent => cases unusable <;> rw [ending, silent.dumps] <;> rfl
  | stopped _ _ _ _ _ ending _ dumps =>
    rw [ending, dumps]
    rfl

theorem Takes.withLog {course : Course} (h : Takes storage random o frames path r course)
    (log : List LogEntry) : Takes storage random o frames path { r with log := log } course := by
  cases h with
  | refused unusable ending silent => exact .refused unusable ending ⟨silent.printed, silent.dumps⟩
  | completed usable given reached counted ending printed dumps =>
    exact .completed usable given reached counted ending printed dumps
  | stopped usable given planned reached failed ending printed dumps =>
    exact .stopped usable given planned reached failed ending printed dumps

theorem readRom_cases (storage : Storage) (name : String) :
    (∃ f, storage.readRom name = .error f ∧ Unusable storage name (.rom f)) ∨
      ∃ rom, storage.readRom name = .ok rom ∧ storage.find (Path.ofString name) = .file rom ∧
        rom ≠ [] := by
  unfold Storage.readRom
  dsimp only
  cases found : storage.find (Path.ofString name) with
  | nothing => exact .inl ⟨_, rfl, .missing found⟩
  | refused why => exact .inl ⟨_, rfl, .refused found⟩
  | unreadable why => exact .inl ⟨_, rfl, .unreadable found⟩
  | file rom =>
    cases rom with
    | nil => exact .inl ⟨_, rfl, .empty found⟩
    | cons b rest => exact .inr ⟨_, rfl, rfl, by simp⟩

theorem takes_headlessRun {s : Setting} (named : s.options.dump = .value path)
    (writable : s.storage.refusal path = none) {rom : List UInt8} {speed : Int}
    (usable : Usable s.storage s.options.rom rom) (given : s.options.speed = .value speed) :
    ∃ course, Takes s.storage s.random s.options frames path (headlessRun s frames speed
      (headlessHost s.options s.random frames speed rom).machine) course := by
  have shows : ShowsPicture (TextScreen displayWidth displayHeight) TextScreen.litAt :=
    TextScreen.showsPicture (Nat.le_refl _) (Nat.le_refl _)
  obtain ⟨standard, planned⟩ := standard_headlessHost s.options s.random frames speed rom
  have cases := Host.run_cases shows (fun _ => rfl) standard
  rw [planned] at cases
  obtain ⟨last, reached, ended⟩ | ⟨earlier, later, last, f, split, reached, failed, ended⟩ := cases
  · have counted := (Host.counts_of_reaches standard reached (Host.tally_schedule _ _)).1
    rw [headlessRun_of_done ended]
    exact ⟨.completed, .completed usable given reached (counted.trans (Nat.zero_add _)) rfl
      (TextScreen.toList_render (by decide) _) rfl⟩
  · rw [headlessRun_of_failed named writable ended]
    exact ⟨.stopped, .stopped usable given split reached failed rfl rfl rfl⟩

theorem takes_headless {s : Setting} {speed : Int} (frames : Int)
    (given : s.options.speed = .value speed) (named : s.options.dump = .value path)
    (writable : s.storage.refusal path = none) {rom : List UInt8}
    (found : s.storage.find (Path.ofString s.options.rom) = .file rom) (filled : rom ≠ []) :
    ∃ course, Takes s.storage s.random s.options frames path (headless s (.value frames) rom)
      course := by
  by_cases fits : rom.length ≤ programCapacity
  · rw [headless_of_fits frames fits given]
    exact takes_headlessRun named writable ⟨found, filled, fits⟩ given
  · have fault := fault_boot s (TextScreen.create displayWidth displayHeight false) rom
    rw [if_pos (Nat.not_le.1 fits)] at fault
    simp only [headless, fault]
    exact ⟨.refused, .refused (.tooLarge found (Nat.not_le.1 fits)) rfl ⟨rfl, rfl⟩⟩

theorem exists_value {α : Type} {g : Given α} (given : g ≠ .withheld) : ∃ a, g = .value a := by
  cases g with
  | value a => exact ⟨a, rfl⟩
  | withheld => exact absurd rfl given

/-- A session without a window whose dump can be written takes exactly one course. -/
theorem takes_one_course (storage : Storage) (toolkit : Toolkit) (random : Nat → UInt8)
    (script : List (List KeyEvent)) {args : List String}
    (accepted : Options.read .value args = .ok o) (asked : o.headless = some (.value frames))
    (named : o.dump = .value path) (writable : storage.refusal path = none) :
    ∃! course, Takes storage random o frames path
      (run .value storage toolkit random script args) course := by
  have complete := Options.complete_of_read accepted
  obtain ⟨level, logged⟩ := exists_value complete.logLevel
  obtain ⟨speed, given⟩ := exists_value complete.speed
  obtain ⟨course, takes⟩ : ∃ course, Takes storage random o frames path
      (run .value storage toolkit random script args) course := by
    simp only [run, accepted, logged, runWith]
    obtain ⟨f, read, unusable⟩ | ⟨rom, read, found, filled⟩ := readRom_cases storage o.rom
    · rw [read]
      exact ⟨.refused, .refused unusable rfl ⟨rfl, rfl⟩⟩
    · rw [read]
      simp only [asked]
      obtain ⟨course, takes⟩ :=
        takes_headless (s := ⟨o, level, storage, toolkit, random, script⟩) frames given named
          writable found filled
      exact ⟨course, (takes.withLog _).withLog _⟩
  exact ⟨course, takes, fun other h => h.eq_courseOf.trans takes.eq_courseOf.symm⟩

theorem takes_one_course_stopped :
    let rom : List UInt8 := [0x60, 0x05, 0x61, 0x06, 0x62, 0x07, 0x00, 0xEE]
    let storage : Storage := ⟨fun _ => .file rom, fun _ => none⟩
    let toolkit : Toolkit := .upTo 0x80000000
    let args := ["a.ch8", "--headless", "2", "--dump", "d", "--speed", "120"]
    let o : Options := { Options.standard with
      rom := "a.ch8", headless := some (.value 2), dump := .value "d", speed := .value 120 }
    Options.read .value args = .ok o ∧ o.headless = some (.value 2) ∧ o.dump = .value "d" ∧
      storage.refusal "d" = none ∧ ∃! course, Takes storage (fun _ => 0) o 2 "d"
        (run .value storage toolkit (fun _ => 0) [] args) course := by
  intro rom storage toolkit args o
  have accepted : Options.read .value args = .ok o :=
    Except.eq_ok_of_toOption_eq_some (by decide +kernel)
  exact ⟨accepted, rfl, rfl, rfl,
    takes_one_course storage toolkit (fun _ => 0) [] accepted rfl rfl rfl⟩

/-- The program finished, could not be run for one of three reasons, or met a fault of the machine. -/
def Plain (e : Ending) : Prop :=
  e = .finished ∨ (∃ f, e = .failed (.machine f)) ∨
    ∃ path, e = .failed (.rom (.notFound path)) ∨ e = .failed (.rom (.empty path))

theorem ending_run {toolkit : Toolkit} {args : List String} {level : LogLevel}
    (accepted : Options.read .value args = .ok o) (logged : o.logLevel = .value level)
    (script : List (List KeyEvent)) : (run .value storage toolkit random script args).ending =
      (runWith ⟨o, level, storage, toolkit, random, script⟩).ending := by
  simp only [run, accepted, logged, filterLog]

/-- A path that is too long, a file that cannot be read, and a dump that is opened but not taken. -/
theorem not_plain :
    let short := ["a.ch8", "--headless", "1"]
    let dumped := ["a.ch8", "--headless", "1", "--dump", "/dev/full"]
    let toolkit : Toolkit := .upTo 0x80000000
    let lengthy : Storage := ⟨fun _ => .refused .tooLong, fun _ => none⟩
    let unreadable : Storage := ⟨fun _ => .unreadable .broken, fun _ => none⟩
    let full : Storage := ⟨fun _ => .file [0x00, 0xEE], fun _ => some .full⟩
    (∃ o, Options.read .value short = .ok o ∧ o.headless = some (.value 1) ∧
      ¬ Plain (run .value lengthy toolkit (fun _ => 0) [] short).ending ∧
      ¬ Plain (run .value unreadable toolkit (fun _ => 0) [] short).ending) ∧
    ∃ o, Options.read .value dumped = .ok o ∧ o.headless = some (.value 1) ∧
      ¬ Plain (run .value full toolkit (fun _ => 0) [] dumped).ending := by
  intro short dumped toolkit lengthy unreadable full
  let o : Options := { Options.standard with rom := "a.ch8", headless := some (.value 1) }
  have first : Options.read .value short = .ok o :=
    Except.eq_ok_of_toOption_eq_some (by decide +kernel)
  have second : Options.read .value dumped = .ok { o with dump := .value "/dev/full" } :=
    Except.eq_ok_of_toOption_eq_some (by decide +kernel)
  refine ⟨⟨_, first, rfl, ?_, ?_⟩, ⟨_, second, rfl, ?_⟩⟩
  · rw [ending_run first rfl]
    have ending : (runWith ⟨o, .info, lengthy, toolkit, fun _ => 0, []⟩).ending =
        .failed (.rom (.refused .tooLong)) := by decide +kernel
    simp [ending, Plain]
  · rw [ending_run first rfl]
    have ending : (runWith ⟨o, .info, unreadable, toolkit, fun _ => 0, []⟩).ending =
        .failed (.rom (.refused .broken)) := by decide +kernel
    simp [ending, Plain]
  · rw [ending_run second rfl]
    have ending : (runWith ⟨{ o with dump := .value "/dev/full" }, .info, full, toolkit,
        fun _ => 0, []⟩).ending = .failed (.dump .full) := by decide +kernel
    simp [ending, Plain]

end Session

end ChipEight
