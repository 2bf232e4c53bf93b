import ChipEight.Host
set_option autoImplicit false

namespace ChipEight.Host

variable {δ : Type}

theorem budget_handle (h : Host δ) (e : KeyEvent) : (h.handle e).state.budget ≤ h.budget := by
  unfold handle
  split <;> try split
  all_goals simp_all [budget, setKey, Outcome.done, Outcome.map]

theorem budget_handleAll (events : List KeyEvent) (h : Host δ) :
    (handleAll events h).state.budget ≤ h.budget := by
  induction events generalizing h with
  | nil => exact Nat.le_refl _
  | cons e rest ih =>
    exact Nat.le_trans (Outcome.state_andThen_le budget _ ih) (budget_handle h e)

theorem budget_poll {h : Host δ} (on : h.running = true) : h.poll.state.budget < h.budget := by
  unfold poll
  split
  · rename_i left held
    simp only [running, held, Keypad.running, decide_eq_true_eq] at on
    simp only [budget, held, Outcome.done]
    omega
  · rename_i map isOpen held
    simp only [running, held, Keypad.running] at on
    subst on
    split
    · simp [handleAll, handle, held, budget, Outcome.done, Outcome.andThen]
    · rename_i events rest scripted
      refine Nat.lt_of_le_of_lt (budget_handleAll _ _) ?_
      simp [budget, held, scripted]

theorem budget_rest (h : Host δ) : h.rest.budget = h.budget := rfl

theorem running_of_budget_eq_zero {h : Host δ} (spent : h.budget = 0) : h.running = false := by
  unfold budget at spent
  split at spent <;> rename_i held <;> simp only [running, held, Keypad.running]
  · simpa using spent
  · simpa using spent

variable [Display δ]

theorem budget_batch (h : Host δ) : h.batch.state.budget = h.budget := rfl

theorem budget_present (h : Host δ) : h.present.state.budget = h.budget := by
  unfold present showPicture Outcome.andThen Outcome.map
  split
  · dsimp only
    split <;> rfl
  · rfl

theorem budget_closeFrame (h : Host δ) : h.closeFrame.state.budget ≤ h.budget := by
  have presented : h.tick.present.state.budget = h.budget := budget_present h.tick
  rw [← presented]
  exact Outcome.state_andThen_le budget _ fun g => Nat.le_refl _

theorem budget_frame {h : Host δ} (on : h.running = true) : h.frame.state.budget < h.budget := by
  have batched : (h.poll.andThen batch).state.budget ≤ h.poll.state.budget :=
    Outcome.state_andThen_le budget _ fun g => Nat.le_of_eq (budget_batch g)
  have closed : h.frame.state.budget ≤ (h.poll.andThen batch).state.budget :=
    Outcome.state_andThen_le budget _ fun g => budget_closeFrame g
  exact Nat.lt_of_le_of_lt (Nat.le_trans closed batched) (budget_poll on)

theorem running_framesWith {α : Type} (visit : α → Host δ → α) (fuel : Nat) (a : α) (h : Host δ)
    (enough : h.budget ≤ fuel) (fine : (framesWith visit fuel a h).2.fault = none) :
    (framesWith visit fuel a h).2.state.running = false := by
  induction fuel generalizing a h with
  | zero => exact running_of_budget_eq_zero (Nat.le_zero.1 enough)
  | succ fuel ih =>
    unfold framesWith at fine ⊢
    split
    · rename_i on
      have less := budget_frame on
      split
      · rename_i next ended
        rw [ended] at less
        rw [if_pos on, ended] at fine
        exact ih _ _ (by rw [budget_rest]; exact Nat.le_of_lt_succ (Nat.lt_of_lt_of_le less enough)) fine
      · rename_i next f ended
        rw [if_pos on, ended] at fine
        simp [Outcome.failed] at fine
    · rename_i off
      exact Bool.eq_false_iff.2 off

/-- A run that meets no fault ends with a keypad that has stopped. -/
theorem running_run (h : Host δ) (fine : h.run.fault = none) : h.run.state.running = false := by
  have frames : (framesWith (fun _ _ => ()) h.budget () h).2.fault = none := by
    unfold run runWith Outcome.andThen at fine
    dsimp only at fine
    split at fine
    · assumption
    · simp [Outcome.failed] at fine
  have stopped := running_framesWith _ _ _ _ (Nat.le_refl _) frames
  unfold run runWith Outcome.andThen
  dsimp only
  rw [frames]
  exact stopped

end ChipEight.Host
