import ChipEight.Options
import ChipEight.Proofs.Basic

set_option autoImplicit false

namespace ChipEight

structure Occurrence.Sound {κ : Type} (forms : List (OptionForm κ)) (o : Occurrence κ) : Prop where
  known : o.form ∈ forms
  given : o.form.takesValue = true → o.value ≠ .withheld

namespace CommandLine

variable {κ : Type} {forms : List (OptionForm κ)}

theorem mem_of_formNamed? {name : String} {f : OptionForm κ} (named : formNamed? forms name = some f) :
    f ∈ forms := by
  obtain ⟨entry, found, rfl⟩ := Option.map_eq_some_iff.1 named
  have listed := List.mem_of_find?_eq_some found
  simp only [namesOf, List.mem_flatMap, List.mem_map] at listed
  obtain ⟨f, member, _, _, rfl⟩ := listed
  exact member

theorem mem_of_readings {s : String} {r : String × OptionForm κ × Attached}
    (read : r ∈ readings forms s) : r.2.1 ∈ forms := by
  have named : ∀ entry ∈ namesOf forms, entry.2 ∈ forms := by
    simp only [namesOf, List.mem_flatMap, List.mem_map]
    rintro _ ⟨f, member, _, _, rfl⟩
    exact member
  unfold readings at read
  split at read
  · obtain ⟨entry, filtered, rfl⟩ := List.mem_map.1 read
    exact named entry (List.mem_filter.1 filtered).1
  · obtain ⟨entry, member, stands⟩ := List.mem_filterMap.1 read
    split at stands
    · obtain rfl := Option.some.inj stands
      exact named entry member
    · split at stands
      · obtain rfl := Option.some.inj stands
        exact named entry member
      · cases stands

theorem mem_of_token {s : String} {f : OptionForm κ} {attached : Attached}
    (read : token forms s = .ok (.option f attached)) : f ∈ forms := by
  unfold token at read
  split at read
  · cases read
  · split at read
    · rename_i t full
      obtain rfl := Except.ok.inj read
      unfold fullName? at full
      split at full
      · rename_i g named
        obtain ⟨rfl, _⟩ := Token.option.inj (Option.some.inj full)
        exact mem_of_formNamed? named
      · split at full
        · obtain ⟨g, named, same⟩ := Option.map_eq_some_iff.1 full
          obtain ⟨rfl, _⟩ := Token.option.inj same
          exact mem_of_formNamed? named
        · cases full
    · split at read
      · rename_i name g _ one
        obtain ⟨rfl, _⟩ := Token.option.inj (Except.ok.inj read)
        exact mem_of_readings (one ▸ List.mem_singleton_self _)
      · split at read <;> cases read
      · cases read

theorem mem_of_tokens {args : List String} {ts : List (Token κ)} (read : tokens forms args = .ok ts)
    {f : OptionForm κ} {attached : Attached} (member : .option f attached ∈ ts) : f ∈ forms := by
  induction args generalizing ts with
  | nil =>
    obtain rfl := Except.ok.inj read
    cases member
  | cons s rest ih =>
    unfold tokens at read
    split at read
    · obtain rfl := Except.ok.inj read
      simp at member
    · split at read
      · cases read
      · rename_i t first
        obtain ⟨us, further, rfl⟩ := Except.exists_of_map_eq_ok read
        rcases List.mem_cons.1 member with rfl | later
        · exact mem_of_token first
        · exact ih further later

structure Cluster.Sound (forms : List (OptionForm κ)) (c : Cluster κ) : Prop where
  complete : ∀ o ∈ c.complete, o.Sound forms
  pending : ∀ f, c.pending = some f → f ∈ forms

theorem Cluster.Sound.cons {c : Cluster κ} (sound : c.Sound forms) {o : Occurrence κ}
    (first : o.Sound forms) : (Cluster.cons o c).Sound forms where
  complete := List.forall_mem_cons.2 ⟨first, sound.complete⟩
  pending := sound.pending

theorem sound_bare {f : OptionForm κ} (known : f ∈ forms) (flag : ¬ f.takesValue = true) :
    (bare f).Sound forms :=
  ⟨known, fun takes => absurd takes flag⟩

theorem sound_alone {f : OptionForm κ} (known : f ∈ forms) : (alone f).Sound forms := by
  unfold alone
  split
  · exact ⟨by simp, by simpa using known⟩
  · rename_i flag
    exact ⟨by simpa using sound_bare known flag, by simp⟩

theorem sound_withText {f : OptionForm κ} (known : f ∈ forms) (text : String) :
    (withText .value f text).Sound forms where
  complete := by simpa [withText] using ⟨known, by simp⟩
  pending := by simp [withText]

theorem sound_ofLetters {flag : OptionForm κ} (known : flag ∈ forms) (plain : ¬ flag.takesValue = true)
    {letters : List Char} {c : Cluster κ} (read : ofLetters .value forms flag letters = .ok c) :
    c.Sound forms := by
  induction letters generalizing flag c with
  | nil =>
    obtain rfl := Except.ok.inj read
    exact sound_alone known
  | cons letter rest ih =>
    unfold ofLetters at read
    split at read
    · cases read
    · rename_i f named
      have known' := mem_of_formNamed? named
      split at read
      · obtain rfl := Except.ok.inj read
        refine Cluster.Sound.cons ?_ (sound_bare known plain)
        split
        · exact sound_alone known'
        · exact sound_withText known' _
      · rename_i plain'
        obtain ⟨d, further, rfl⟩ := Except.exists_of_map_eq_ok read
        exact (ih known' plain' further).cons (sound_bare known plain)

theorem sound_cluster {f : OptionForm κ} (known : f ∈ forms) {attached : Attached} {c : Cluster κ}
    (read : cluster .value forms f attached = .ok c) : c.Sound forms := by
  cases attached with
  | nothing =>
    obtain rfl := Except.ok.inj read
    exact sound_alone known
  | joined text =>
    simp only [cluster] at read
    split at read
    · obtain rfl := Except.ok.inj read
      exact sound_withText known text
    · cases read
  | tail text =>
    simp only [cluster] at read
    split at read
    · obtain rfl := Except.ok.inj read
      exact sound_withText known text
    · rename_i plain
      split at read
      · cases read
      · exact sound_ofLetters known plain read

theorem sound_pair {taken : Bool} {ts : List (Token κ)}
    (known : ∀ f attached, .option f attached ∈ ts → f ∈ forms) :
    ∀ o ∈ (pair .value forms taken ts).occurrences, o.Sound forms := by
  fun_induction pair .value forms taken ts with
  | case1 | case10 | case13 => simp [empty, stopped]
  | case2 _ _ _ ih | case3 _ _ ih | case4 _ _ _ _ _ ih | case5 _ _ _ ih | case6 _ _ _ _ _ _ ih
  | case7 _ _ ih | case8 _ _ _ _ _ ih | case9 _ _ _ ih =>
    exact ih fun f attached here => known f attached (by simp [here])
  | case11 taken f attached rest c read _ ih =>
    have sound := sound_cluster (known f attached (by simp)) read
    have further := ih fun g a here => known g a (by simp [here])
    exact List.forall_mem_append.2 ⟨sound.complete, further⟩
  | case12 taken f attached c read last pending value behind ih =>
    have sound := sound_cluster (known f attached (by simp)) read
    have further := ih fun g a here => known g a (by simp [here])
    have paired : Occurrence.Sound forms ⟨last, .value value⟩ := ⟨sound.pending last pending, by simp⟩
    simp only [withOccurrences, List.forall_mem_append, List.forall_mem_singleton]
    exact ⟨⟨sound.complete, paired⟩, further⟩

theorem sound_read (args : List String) :
    ∀ o ∈ (read .value forms args).occurrences, o.Sound forms := by
  unfold read
  split
  · simp [stopped, empty]
  · rename_i ts read
    exact sound_pair fun f attached member => mem_of_tokens read member

end CommandLine

namespace Options

/-- No option is left without a value. -/
structure Complete (o : Options) : Prop where
  speed : o.speed ≠ .withheld
  scale : o.scale ≠ .withheld
  headless : o.headless ≠ some .withheld
  dump : o.dump ≠ .withheld
  logLevel : o.logLevel ≠ .withheld

theorem complete_standard : standard.Complete := by
  constructor <;> simp [standard]

theorem number_ne_withheld {title : String} {v : Given String} {n : Given Int}
    (read : number title v = .ok n) (given : v ≠ .withheld) : n ≠ .withheld := by
  cases v with
  | withheld => exact absurd rfl given
  | value text =>
    simp only [number] at read
    split at read
    · obtain rfl := Except.ok.inj read
      simp
    · cases read

theorem level_ne_withheld {title : String} {v : Given String} {l : Given LogLevel}
    (read : level title v = .ok l) (given : v ≠ .withheld) : l ≠ .withheld := by
  cases v with
  | withheld => exact absurd rfl given
  | value text =>
    simp only [level] at read
    split at read
    · obtain rfl := Except.ok.inj read
      simp
    · cases read

theorem takesValue_of_mem {f : OptionForm OptionKey} (known : f ∈ forms) : f.takesValue =
    decide (f.key ∈ [OptionKey.speed, .scale, .headless, .dump, .logLevel]) := by
  simp only [forms, List.mem_cons, List.not_mem_nil, or_false] at known
  rcases known with rfl | rfl | rfl | rfl | rfl | rfl | rfl | rfl | rfl | rfl | rfl <;> rfl

theorem Complete.apply {o applied : Options} (complete : o.Complete) {given : Occurrence OptionKey}
    (sound : given.Sound forms) (read : o.apply given = .ok applied) : applied.Complete := by
  obtain ⟨speed, scale, headless, dump, logLevel⟩ := complete
  have value := sound.given
  rw [takesValue_of_mem sound.known] at value
  cases key : given.form.key
  all_goals simp only [Options.apply, key] at read
  case help => cases read
  case speed =>
    obtain ⟨n, number, rfl⟩ := Except.exists_of_map_eq_ok read
    exact ⟨number_ne_withheld number (value (by simp [key])), scale, headless, dump, logLevel⟩
  case scale =>
    obtain ⟨n, number, rfl⟩ := Except.exists_of_map_eq_ok read
    exact ⟨speed, number_ne_withheld number (value (by simp [key])), headless, dump, logLevel⟩
  case headless =>
    obtain ⟨n, number, rfl⟩ := Except.exists_of_map_eq_ok read
    have given := number_ne_withheld number (value (by simp [key]))
    exact ⟨speed, scale, by simpa using given, dump, logLevel⟩
  case dump =>
    obtain rfl := Except.ok.inj read
    exact ⟨speed, scale, headless, value (by simp [key]), logLevel⟩
  case logLevel =>
    obtain ⟨l, level, rfl⟩ := Except.exists_of_map_eq_ok read
    exact ⟨speed, scale, headless, dump, level_ne_withheld level (value (by simp [key]))⟩
  -- The other options take no value.
  all_goals
    obtain rfl := Except.ok.inj read
    exact ⟨speed, scale, headless, dump, logLevel⟩

theorem Complete.applyAll {o applied : Options} (complete : o.Complete)
    {line : List (Occurrence OptionKey)} (sound : ∀ given ∈ line, given.Sound forms)
    (read : o.applyAll line = .ok applied) : applied.Complete := by
  induction line generalizing o with
  | nil =>
    obtain rfl := Except.ok.inj read
    exact complete
  | cons given rest ih =>
    unfold Options.applyAll at read
    split at read
    · cases read
    · rename_i next first
      exact ih (complete.apply (sound given (by simp)) first)
        (fun other later => sound other (by simp [later])) read

theorem complete_of_read {args : List String} {o : Options} (accepted : read .value args = .ok o) :
    o.Complete := by
  unfold read at accepted
  dsimp only at accepted
  split at accepted
  · cases accepted
  · rename_i applied all
    have complete := complete_standard.applyAll (CommandLine.sound_read args) all
    split at accepted
    · cases accepted
    · obtain rfl := Except.ok.inj accepted
      exact ⟨complete.speed, complete.scale, complete.headless, complete.dump, complete.logLevel⟩

end Options

end ChipEight
