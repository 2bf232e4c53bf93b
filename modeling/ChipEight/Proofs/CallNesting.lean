import ChipEight.Proofs.Cycle

set_option autoImplicit false

namespace ChipEight

open Machine (Command)

inductive Nesting
  | enter (site : Nat)
  | leave
  | stay
  deriving DecidableEq

namespace Nesting

def isEnter : Nesting → Bool
  | enter _ => true
  | _ => false

def isLeave : Nesting → Bool
  | leave => true
  | _ => false

def ofInstruction (pc : Nat) : Instruction → Nesting
  | .call _ => enter pc
  | .ret => leave
  | _ => stay

/-- The calls that are open, on top of those that were open before. A return closes the newest. -/
def openSites (sites : List Nat) : List Nesting → List Nat
  | [] => sites
  | enter site :: rest => openSites (sites ++ [site]) rest
  | leave :: rest => openSites sites.dropLast rest
  | stay :: rest => openSites sites rest

/-- Every call is closed by a return, and every return closes a call. -/
inductive Balanced : List Nesting → Prop
  | nil : Balanced []
  | stay {rest : List Nesting} : Balanced rest → Balanced (stay :: rest)
  | call {site : Nat} {inner rest : List Nesting} : Balanced inner → Balanced rest →
      Balanced (enter site :: (inner ++ leave :: rest))

theorem openSites_append (sites : List Nat) (earlier later : List Nesting) :
    openSites sites (earlier ++ later) = openSites (openSites sites earlier) later := by
  induction earlier generalizing sites with
  | nil => rfl
  | cons n rest ih => cases n <;> exact ih _

theorem Balanced.append {earlier later : List Nesting} (h : Balanced earlier)
    (h' : Balanced later) : Balanced (earlier ++ later) := by
  induction h with
  | nil => exact h'
  | stay _ ih => exact .stay ih
  | @call site inner rest nested _ _ ih =>
    rw [List.cons_append, List.append_assoc, List.cons_append]
    exact .call nested ih

theorem exists_enter {ns : List Nesting} {callers : List Nat} {site : Nat}
    (h : openSites [] ns = callers ++ [site]) :
    ∃ before inner, ns = before ++ enter site :: inner ∧ Balanced inner ∧
      openSites [] before = callers := by
  induction size : ns.length using Nat.strongRecOn generalizing ns callers site with
  | ind size ih =>
    subst size
    rcases List.eq_nil_or_concat ns with rfl | ⟨earlier, last, rfl⟩
    · simp [openSites] at h
    · rw [List.concat_eq_append, List.length_append] at ih
      rw [List.concat_eq_append, openSites_append] at h
      cases last with
      | enter p =>
        obtain ⟨rfl, newest⟩ := List.append_inj' h rfl
        obtain rfl : p = site := by simpa using newest
        exact ⟨earlier, [], by simp, .nil, rfl⟩
      | stay =>
        obtain ⟨before, inner, rfl, balanced, rest⟩ := ih _ (by simp) h rfl
        exact ⟨before, inner ++ [stay], by simp, balanced.append (.stay .nil), rest⟩
      | leave =>
        -- The return closed a call that was entered after the one that is looked for.
        have closed : (openSites [] earlier).dropLast = callers ++ [site] := h
        rcases List.eq_nil_or_concat (openSites [] earlier) with none | ⟨older, newest, opened⟩
        · simp [none] at closed
        · rw [opened, List.concat_eq_append, List.dropLast_concat] at closed
          rw [List.concat_eq_append, closed] at opened
          obtain ⟨before, inner, rfl, balanced, rest⟩ := ih _ (by simp) opened rfl
          have shorter :
              before.length < (before ++ enter newest :: inner).length + [leave].length := by
            simp only [List.length_append, List.length_cons]
            omega
          obtain ⟨before', inner', rfl, balanced', rest'⟩ := ih _ shorter rest rfl
          refine ⟨before', inner' ++ enter newest :: (inner ++ leave :: []), by simp, ?_, rest'⟩
          exact balanced'.append (.call balanced .nil)

end Nesting

namespace Machine

open Nesting (openSites Balanced)

variable {δ : Type} [Display δ]

/-- Only a call or a return that succeeds changes the nesting. -/
def nesting (m : Machine δ) : Command → Nesting
  | .cycle =>
    if m.core.wait = none ∧ m.cycle.fault = none then
      ((Instruction.decode m.core.fetch).map (Nesting.ofInstruction m.core.pc)).getD .stay
    else .stay
  | _ => .stay

def nestings (m : Machine δ) : List Command → List Nesting
  | [] => []
  | c :: rest => m.nesting c :: nestings (m.perform c).state rest

def sites (m : Machine δ) : List Nat := m.core.stack.live.map UInt16.toNat

/-- At power-on, or after a reset. -/
def Fresh (m : Machine δ) : Prop :=
  (∃ settings random d, m = create settings random d) ∨ ∃ n : Machine δ, m = n.reset

theorem sites_of_fresh {m : Machine δ} (fresh : m.Fresh) : m.sites = [] := by
  rcases fresh with ⟨settings, random, d, rfl⟩ | ⟨n, rfl⟩ <;> rfl

theorem exists_of_nestings_eq {m : Machine δ} {cs : List Command} {before later : List Nesting}
    {n : Nesting} (h : m.nestings cs = before ++ n :: later) :
    ∃ earlier c rest, cs = earlier ++ c :: rest ∧ (m.after earlier).nesting c = n ∧
      ((m.after earlier).perform c).state.nestings rest = later := by
  induction before generalizing m cs with
  | nil =>
    cases cs with
    | nil => simp [nestings] at h
    | cons c rest =>
      obtain ⟨head, tail⟩ := List.cons.inj h
      exact ⟨[], c, rest, rfl, head, tail⟩
  | cons b before ih =>
    cases cs with
    | nil => simp [nestings] at h
    | cons c rest =>
      obtain ⟨_, tail⟩ := List.cons.inj h
      obtain ⟨earlier, d, later, rfl, entered, since⟩ := ih tail
      exact ⟨c :: earlier, d, later, rfl, entered, since⟩

inductive Nested (m : Machine δ) (c : Command) : Nesting → Prop
  | enter (cycles : c = .cycle) (narrow : m.core.pc ≤ 0xFFFF)
      (sites : (m.perform c).state.sites = m.sites ++ [m.core.pc]) : Nested m c (.enter m.core.pc)
  | leave (cycles : c = .cycle) {site : Nat}
      (sites : m.sites = (m.perform c).state.sites ++ [site])
      (pc : (m.perform c).state.core.pc = site + 2) : Nested m c .leave
  | stay (sites : (m.perform c).state.sites = m.sites) : Nested m c .stay

theorem nesting_of_fault {m : Machine δ} {f : Fault} (failed : m.cycle.fault = some f) :
    m.nesting .cycle = .stay := by
  rw [nesting, failed, if_neg (by simp)]

theorem nesting_of_fetch {m : Machine δ} {i : Instruction} (awake : m.core.wait = none)
    (fetched : m.core.fetch = i.encode) (succeeds : m.cycle.fault = none) :
    m.nesting .cycle = .ofInstruction m.core.pc i := by
  rw [nesting, if_pos ⟨awake, succeeds⟩, fetched, Instruction.decode_encode]
  rfl

theorem nested_cycle (m : Machine δ) : Nested m .cycle (m.nesting .cycle) := by
  have ended := m.cycled
  generalize cycled : m.cycle = o at ended
  have state : (m.perform .cycle).state = o.state := congrArg Outcome.state cycled
  cases ended with
  | waits waits =>
    have stays : m.nesting .cycle = .stay := by rw [nesting, waits, if_neg (by simp)]
    rw [stays]
    exact .stay (congrArg sites state)
  | skips awake unread =>
    have stays : m.nesting .cycle = .stay := by
      rw [nesting, unread]
      exact ite_self _
    rw [stays]
    refine .stay ?_
    rw [state, sites, sites, Outcome.done, core_skipWord]
    rfl
  | misses | refuses =>
    rw [nesting_of_fault (congrArg Outcome.fault cycled)]
    exact .stay (by rw [state]; rfl)
  | @executes i hit c d awake fetched executed =>
    have succeeds : m.cycle.fault = none := congrArg Outcome.fault cycled
    rw [nesting_of_fetch awake fetched succeeds]
    rcases Core.execute_cases m.settings m.random hit m.core i with
      ⟨target, rfl⟩ | rfl | ⟨noCall, noReturn, e, done, passed⟩
    · obtain ⟨narrow, stack, pushed, rfl⟩ := Core.call_eq_ok_iff.1 executed
      refine .enter rfl narrow ?_
      rw [state, sites, sites, Outcome.done]
      dsimp only
      rw [CallStack.live_push pushed, List.map_append, List.map_singleton, UInt16.toNat_ofNat',
        Nat.mod_eq_of_lt (by omega)]
    · obtain ⟨site, stack, popped, rfl⟩ := Core.ret_eq_ok_iff.1 executed
      refine .leave rfl ?_ (by rw [state]; rfl)
      rw [state, sites, sites, Outcome.done]
      dsimp only
      rw [CallStack.live_pop popped, List.map_append, List.map_singleton]
    · obtain rfl : e = c := Except.ok.inj (done.symm.trans executed)
      have kept : (m.perform .cycle).state.sites = m.sites := by
        rw [state, sites, sites, Outcome.done]
        dsimp only
        rw [passed.stack]
      cases i with
      | call target => exact absurd rfl (noCall target)
      | ret => exact absurd rfl noReturn
      | _ => exact .stay kept

theorem nested {c : Command} (h : c ≠ .reset) (m : Machine δ) : Nested m c (m.nesting c) := by
  cases c with
  | cycle => exact m.nested_cycle
  | tick | releaseKeys => exact .stay rfl
  | key k pressed =>
    refine .stay ?_
    simp only [perform, setKey]
    split
    · cases pressed with
      | false => rfl
      | true =>
        simp only [sites, Outcome.done, Core.setKey, Core.endWait, if_true]
        split <;> rfl
    · rfl
  | load program =>
    obtain ⟨memory, loaded⟩ := core_load m program
    refine .stay ?_
    simp only [sites, perform, loaded]
  | reset => exact absurd rfl h

theorem Nested.step {m : Machine δ} {c : Command} {n : Nesting} (h : Nested m c n) :
    (m.perform c).state.sites = openSites m.sites [n] ∧
      (m.perform c).state.sites.length + [n].countP Nesting.isLeave =
        m.sites.length + [n].countP Nesting.isEnter := by
  cases h with
  | enter _ _ entered =>
    refine ⟨entered, ?_⟩
    rw [entered, List.length_append]
    rfl
  | leave _ left =>
    rw [left, List.length_append]
    exact ⟨List.dropLast_concat.symm, rfl⟩
  | stay kept => exact ⟨kept, by rw [kept]; rfl⟩

theorem sites_after {cs : List Command} (kept : ∀ c ∈ cs, c ≠ .reset) (m : Machine δ) :
    (m.after cs).sites = openSites m.sites (m.nestings cs) ∧
      (m.after cs).sites.length + (m.nestings cs).countP Nesting.isLeave =
        m.sites.length + (m.nestings cs).countP Nesting.isEnter := by
  induction cs generalizing m with
  | nil => exact ⟨rfl, rfl⟩
  | cons c rest ih =>
    obtain ⟨first, counted⟩ := (m.nested (kept c (by simp))).step
    obtain ⟨later, counted'⟩ := ih (fun d hd => kept d (by simp [hd])) (m.perform c).state
    have split : m.nestings (c :: rest) = [m.nesting c] ++ (m.perform c).state.nestings rest := rfl
    rw [after_cons, split, Nesting.openSites_append, ← first, List.countP_append,
      List.countP_append]
    exact ⟨later, by omega⟩

omit [Display δ] in
theorem length_sites (m : Machine δ) : m.sites.length = m.core.stack.depth := by
  rw [sites, List.length_map, CallStack.length_live]

/-- The live stack lists the open calls, a call adds one entry to it and a return takes one away,
and a return goes on behind the call that it closes: the last one before it with balanced calls and
returns in between. -/
theorem stack_lists_open_calls {start : Machine δ} (fresh : start.Fresh) (cs : List Command)
    (kept : ∀ c ∈ cs, c ≠ .reset) :
    let m := start.after cs
    let ns := start.nestings cs
    m.core.stack.live.map UInt16.toNat = openSites [] ns ∧
    m.core.stack.depth + ns.countP Nesting.isLeave = ns.countP Nesting.isEnter ∧
    m.core.stack.depth.val ≤ 16 ∧
    (m.nesting .cycle = .leave →
      ∃ before inner, cs = before ++ .cycle :: inner ∧
        let caller := start.after before
        caller.nesting .cycle = .enter caller.core.pc ∧
          Balanced (caller.cycle.state.nestings inner) ∧
          m.cycle.state.core.pc = caller.core.pc + 2) := by
  intro m ns
  obtain ⟨listed, counted⟩ := sites_after kept start
  rw [sites_of_fresh fresh] at listed counted
  refine ⟨listed, ?_, Nat.le_of_lt_succ m.core.stack.depth.isLt, fun leaves => ?_⟩
  · rw [length_sites, List.length_nil, Nat.zero_add] at counted
    exact counted
  · have returned := m.nested_cycle
    rw [leaves] at returned
    cases returned with
    | @leave _ site live pc =>
      rw [listed] at live
      obtain ⟨before, inner, split, balanced, _⟩ := Nesting.exists_enter live
      obtain ⟨earlier, c, rest, rfl, entered, since⟩ := exists_of_nestings_eq split
      have called := nested (kept c (by simp)) (start.after earlier)
      rw [entered] at called
      cases called with
      | enter cycles =>
        subst cycles
        subst since
        exact ⟨earlier, rest, rfl, entered, balanced, pc⟩

/-- A subroutine that writes over its own call, and makes a call of its own before it returns. -/
theorem return_from_overwritten_call :
    let start := create .modern (fun _ => 0) Plane.empty
    let cs : List Command := [
      .load [0x22, 0x06, 0x00, 0x00, 0x00, 0x00, 0xA2, 0x00, 0xF0, 0x55, 0x22, 0x0E, 0x00, 0xEE,
        0x00, 0xEE],
      .cycle, .cycle, .key 99 true, .cycle, .tick, .cycle, .cycle]
    start.Fresh ∧ (∀ c ∈ cs, c ≠ .reset) ∧ (start.after cs).nesting .cycle = .leave ∧
      openSites [] (start.nestings cs) = [0x200] ∧
      (start.after cs).core.stack.live.map UInt16.toNat = [0x200] ∧
      ∃ before inner, cs = before ++ .cycle :: inner ∧
        let caller := start.after before
        caller.nesting .cycle = .enter caller.core.pc ∧
          Balanced (caller.cycle.state.nestings inner) ∧
          (start.after cs).cycle.state.core.pc = caller.core.pc + 2 := by
  intro start cs
  have fresh : start.Fresh := .inl ⟨_, _, _, rfl⟩
  have kept : ∀ c ∈ cs, c ≠ .reset := by
    intro c hc
    rintro rfl
    simp [cs] at hc
  obtain ⟨listed, _, _, returned⟩ := stack_lists_open_calls fresh cs kept
  obtain ⟨leaves, opened⟩ : (start.after cs).nesting .cycle = .leave ∧
      openSites [] (start.nestings cs) = [0x200] := by
    decide +kernel
  exact ⟨fresh, kept, leaves, opened, listed.trans opened, returned leaves⟩

end Machine

end ChipEight
