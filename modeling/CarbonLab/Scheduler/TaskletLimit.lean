import CarbonLab.Scheduler.TimeLimit

/-!
# Runs of a number of tasklets

`RunNTasklets` from main, beside an unlimited `Run` from the same state in which the
tasklets do the same.  Both make the same switches from main until the limit is used up.
-/

namespace CarbonLab.Scheduler

open Transition

variable {ν : Type}

/-- `SwitchTo` ends a tasklet that was killed before its first run, without a switch. -/
def State.endsUnstarted (s : State ν) (t : TaskletId) : Bool :=
  (s.tasklets t).firstRun && match (s.tasklets t).exceptionState with
    | some .taskletExit => true
    | _ => false

theorem State.setParent_endsUnstarted {s s' : State ν} {t : TaskletId} {parent : Option TaskletId}
    (done : s.setParent t parent = .ok s') (u : TaskletId) :
    s'.endsUnstarted u = s.endsUnstarted u := by
  have same (greenletParent taskletParent : Option TaskletId) :
      (s.modifyTasklet t (.setParents greenletParent taskletParent)).endsUnstarted u =
        s.endsUnstarted u := by
    unfold State.endsUnstarted
    by_cases is : u = t
    all_goals simp [is]
  unfold State.setParent at done
  repeat' split at done
  all_goals
    cases done
    try apply same

/-- A switch that is refused. -/
theorem Config.switchTo_refused {k : Config ν} {t : TaskletId}
    (refused : k.state.maySwitchTo t = false) (started : k.state.endsUnstarted t = false) :
    (k.switchTo t).running = k.running ∧ (k.switchTo t).control = .returning false ∧
      (k.switchTo t).exitRaised = false := by
  simp only [State.maySwitchTo] at refused
  unfold State.endsUnstarted at started
  unfold Config.switchTo
  dsimp only
  split
  · exact ⟨rfl, rfl, rfl⟩
  next arguments =>
  split
  · exact ⟨rfl, rfl, rfl⟩
  next kwArguments =>
  split
  · exact ⟨rfl, rfl, rfl⟩
  next given =>
  split
  · exact ⟨rfl, rfl, rfl⟩
  next trap =>
  split
  · next first exit =>
    rw [first, exit] at started
    cases started
  · next error other first exit =>
    refine ⟨rfl, rfl, ?_⟩
    cases error with
    | taskletExit => exact absurd rfl other
    | _ => rfl
  · next unset =>
    exfalso
    simp only [Bool.not_eq_true] at given
    have exits : ((k.state.tasklets t).firstRun && (k.state.tasklets t).exceptionState.isSome) =
        false := by
      cases first : (k.state.tasklets t).firstRun with
      | false => rfl
      | true =>
          cases exit : (k.state.tasklets t).exceptionState with
          | none => rfl
          | some error => exact absurd exit (unset error first)
    rw [given, exits] at refused
    simp [arguments, kwArguments, not_not.mp trap] at refused

/-! ## Runs -/

/-- A configuration in a run of main, and how often the run switched from main. -/
structure CountedRun (ν : Type) where
  config : Config ν
  switches : Nat

namespace CountedRun

/-- After a step of main, which switches or not. -/
def afterMain (switches : Nat) (k : Config ν) : CountedRun ν :=
  ⟨k, switches + if k.inSwitch then 1 else 0⟩

/-- One step, as long as the run is not over. -/
def step (w : CountedRun ν) (label : Option (Action ν)) : Option (CountedRun ν) :=
  if w.config.stack mainTasklet = [] then none
  else
    (w.config.step label).map fun k' =>
      if w.config.running = mainTasklet then afterMain w.switches k' else ⟨k', w.switches⟩

end CountedRun

/-- A step of a limited run does not disturb the count: when main's loop goes on, main is
current and the next tasklet was not killed before its first run, and another tasklet does
not begin or end a limited run or enter a run loop with main current. -/
def Config.keepsCount (k : Config ν) (label : Option (Action ν)) : Bool :=
  if k.running = mainTasklet then
    k.mainLoop?.all fun loop => loop.1.state.currentTasklet == mainTasklet &&
      (loop.1.state.tasklets loop.2.1).next.all fun t => !loop.1.state.endsUnstarted t
  else
    !k.setsLimits label && k.loopTasklet label != some mainTasklet

/-! ## The two runs beside each other -/

/-- Main at the head of its loop after some switches of a limited run. -/
structure AtLoop (number count : Nat) (k : Config ν) : Prop where
  running : k.running = mainTasklet
  current : k.state.currentTasklet = mainTasklet
  main : k.state.MainStarted
  stack : k.stack mainTasklet = [.runLimited false]
  limits : k.state.limits = ⟨.taskletLimited, number - count, decide (count = number)⟩
  counted : count ≤ number

/-- A limited run and the unlimited run in which the tasklets do the same. -/
inductive Paired (limits : RunLimits) (number : Nat) : CountedRun ν → CountedRun ν → Prop
  | going {k : Config ν} {frames : List Frame} {count : Nat}
      (lock : Lockstep false limits frames k)
      (limited : frames ≠ [] →
        k.state.limits = ⟨.taskletLimited, number - count, decide (count = number)⟩)
      (counted : count ≤ number) : Paired limits number ⟨k, count⟩ ⟨k.withMain limits frames, count⟩
  | refused {k : Config ν} {base : TaskletId} {endTasklet : Option TaskletId} {unblocked : Bool}
      {t : TaskletId} {count : Nat} (main : k.running = mainTasklet)
      (lock : Lockstep false limits [.run base endTasklet unblocked t] k)
      (returning : k.control = .returning false) (exits : k.exitRaised = false)
      (counted : count ≤ number) : Paired limits number ⟨k, count⟩
        ⟨k.withMain limits [.run base endTasklet unblocked t], count⟩
  | stopped {k : Config ν} {u : CountedRun ν} (left : LeftLoop false k) (more : number ≤ u.switches) :
      Paired limits number ⟨k, number⟩ u

/-- The limit test before a switch from main. -/
theorem State.testRunLimits_limited {s : State ν} {number count : Nat}
    (main : (s.tasklets s.currentTasklet).isMain = true)
    (limits : s.limits = ⟨.taskletLimited, number - count, false⟩) (left : count < number) :
    s.testRunLimits.limits =
      ⟨.taskletLimited, number - (count + 1 : Nat), decide (count + 1 = number)⟩ := by
  simp only [State.limits, Limits.mk.injEq] at limits
  obtain ⟨type, limit, unstopped⟩ := limits
  have positive : 0 < s.taskletLimit := by omega
  have less : s.taskletLimit - 1 = number - (count + 1 : Nat) := by omega
  unfold State.testRunLimits
  rw [if_pos main, type]
  dsimp only
  rw [if_pos positive]
  dsimp only
  by_cases last : count + 1 = number
  · have finished : s.taskletLimit - 1 ≤ 0 := by omega
    rw [if_pos finished, State.limits, decide_eq_true last, ← less, ← type]
  · have goes : ¬ s.taskletLimit - 1 ≤ 0 := by omega
    rw [if_neg goes, State.limits, decide_eq_false last, ← less, ← type, ← unstopped]

section MainLoop

variable {k : Config ν} {limits : RunLimits} {number count : Nat}

/-- A step of main that does not end in a switch does not count. -/
theorem CountedRun.afterMain_of_stack {frames : List Frame} (stack : k.stack mainTasklet = frames)
    (still : ∀ t rest, frames ≠ .switchTo t :: rest) : afterMain count k = ⟨k, count⟩ := by
  have idle : k.inSwitch = false := by
    unfold Config.inSwitch
    split
    · next t rest is => exact absurd (stack.symm.trans is) (still t rest)
    · rfl
  rw [afterMain, idle]
  rfl

/-- The loop of main is over in both runs. -/
theorem Paired.of_ended (lock : Lockstep false limits [] k) (counted : count ≤ number) :
    Paired limits number (.afterMain count k) (.afterMain count (k.withMain limits [])) := by
  rw [CountedRun.afterMain_of_stack lock.stack (by simp),
    CountedRun.afterMain_of_stack (Config.withMain_stack_main _ _ _) (by simp)]
  exact .going lock (absurd rfl) counted

/-- The loop of main goes on in both runs, after a limit test. -/
theorem AtLoop.goes {base : TaskletId} {endTasklet : Option TaskletId} {unblocked complete : Bool}
    {frames : List Frame} (loop : AtLoop number count k)
    (reached : k.reaches base complete = true)
    (started : ∀ t, (k.state.tasklets base).next = some t → k.state.endsUnstarted t = false)
    (lock : Lockstep false limits frames (k.runLoop base endTasklet unblocked complete)) :
    Paired limits number (.afterMain count (k.runLoop base endTasklet unblocked complete))
      (.afterMain count ((k.runLoop base endTasklet unblocked complete).withMain limits frames)) := by
  have less : count < number := by
    refine Nat.lt_of_le_of_ne loop.counted fun last => ?_
    have stop : k.state.stopScheduler = true :=
      (congrArg Limits.stopScheduler loop.limits).trans (decide_eq_true last)
    have runs := Config.runs_of_reaches reached
    rw [stop, loop.current] at runs
    cases runs
  have tests := Config.Tests.of_runLoop loop.running loop.main base endTasklet unblocked complete
  rw [reached, loop.current, beq_self_eq_true] at tests
  obtain ⟨s, main, -, before, after⟩ := tests
  have limited : (k.runLoop base endTasklet unblocked complete).state.limits =
      ⟨.taskletLimited, number - (count + 1 : Nat), decide (count + 1 = number)⟩ := by
    have unlimited : s.limits = ⟨.taskletLimited, number - count, false⟩ := by
      rw [← decide_eq_false (Nat.ne_of_lt less), ← loop.limits]
      exact congrArg RunLimits.toLimits before
    exact (congrArg RunLimits.toLimits after).trans
      (State.testRunLimits_limited main unlimited less)
  obtain ⟨t, s', next, done, looped⟩ := Config.runLoop_of_reaches reached endTasklet unblocked
  have unended := started t next
  generalize k.runLoop base endTasklet unblocked complete = k' at lock limited looped ⊢
  generalize pushed : (k.withState s'.testRunLimits).push (.run base endTasklet unblocked t) = k₁
    at looped
  have main₁ : k₁.running = mainTasklet := pushed ▸ loop.running
  have stack₁ : k₁.stack mainTasklet = [.run base endTasklet unblocked t, .runLimited false] := by
    rw [← pushed, Config.push_stack, Config.withState_running, loop.running, Function.update_self,
      Config.withState_stack, loop.stack]
  obtain ⟨suspended, -, grown, -⟩ := Config.switchTo_main main₁ t
  rw [← looped, stack₁] at grown
  have stack := lock.stack
  cases lock.shape with
  | ended =>
      rw [grown] at stack
      have lengths := congrArg List.length stack
      simp at lengths
  | looping =>
      rw [CountedRun.afterMain_of_stack stack (by simp),
        CountedRun.afterMain_of_stack (Config.withMain_stack_main _ _ _) (by simp)]
      have refused : k₁.state.maySwitchTo t = false := by
        cases may : k₁.state.maySwitchTo t with
        | false => rfl
        | true =>
            rw [looped, Config.switchTo_of_may may, Config.enterGreenlet_stack] at stack
            simp [Config.beginSwitch, main₁, stack₁] at stack
      have same : k₁.state.endsUnstarted t = k.state.endsUnstarted t := by
        rw [← State.setParent_endsUnstarted done t, ← pushed]
        rw [State.endsUnstarted, Config.push_state, Config.withState_state,
          State.testRunLimits_tasklets, ← State.endsUnstarted]
      obtain ⟨running, returning, exits⟩ := Config.switchTo_refused refused (same.trans unended)
      rw [← looped] at running returning exits
      exact .refused (running.trans main₁) lock returning exits loop.counted
  | switched =>
      have switched : k'.inSwitch = true := Config.inSwitch_of_stack stack
      rw [CountedRun.afterMain, CountedRun.afterMain, lock.inSwitch, switched]
      exact .going lock (fun _ => limited) less

/-- The loop of main goes on or ends in both runs, or the limit stops it in one. -/
theorem AtLoop.runLoop (loop : AtLoop number count k) (standard : limits.runType = .standard)
    (unstopped : limits.stopScheduler = false) {base : TaskletId}
    (started : ∀ t, (k.state.tasklets base).next = some t → k.state.endsUnstarted t = false)
    (endTasklet : Option TaskletId) (unblocked complete : Bool) :
    Paired limits number (.afterMain count (k.runLoop base endTasklet unblocked complete))
      (.afterMain count ((k.withMain limits []).runLoop base endTasklet unblocked complete)) := by
  have stop : k.state.stopScheduler = decide (count = number) :=
    congrArg Limits.stopScheduler loop.limits
  rcases Config.runLoop_lockstep loop.running loop.main loop.stack standard
    (fun stopped => absurd (unstopped.symm.trans stopped) Bool.false_ne_true) base endTasklet
    unblocked complete with ⟨frames, lock, alike, -⟩ | ⟨⟨stopped, -, -⟩, left⟩
  · rw [alike]
    cases reached : k.reaches base complete with
    | true => exact loop.goes reached started lock
    | false =>
        have ended : frames = [] := by
          have same := (Config.runLoop_of_ends reached endTasklet unblocked).2
          have stack := lock.stack
          rw [same, loop.stack] at stack
          exact List.append_cancel_right (stack.symm.trans rfl)
        subst ended
        exact .of_ended lock loop.counted
  · rw [stop, decide_eq_true_eq] at stopped
    subst stopped
    rw [CountedRun.afterMain_of_stack left.stack (by simp)]
    exact .stopped left (Nat.le_add_right _ _)

end MainLoop

/-! ## Steps of the two runs -/

/-- The limited run is over and its count is right. -/
structure Exact (limits : Limits) (number : Nat) (w u : CountedRun ν) : Prop where
  finished : w.config.stack mainTasklet = []
  limits : w.config.state.limits = limits
  count : ∀ labels v, runLabels CountedRun.step (fun _ _ => true) u labels = some v →
    w.switches = min number v.switches

theorem CountedRun.step_of_config {k k' : Config ν} {label : Option (Action ν)}
    (going : k.stack mainTasklet ≠ []) (taken : k.step label = some k') (count : Nat) :
    step ⟨k, count⟩ label =
      some (if k.running = mainTasklet then afterMain count k' else ⟨k', count⟩) := by
  rw [step, if_neg going, taken]
  rfl

theorem CountedRun.config_of_step {k : Config ν} {count : Nat} {label : Option (Action ν)}
    {w : CountedRun ν} (taken : step ⟨k, count⟩ label = some w) :
    ∃ k', k.step label = some k' ∧
      w = if k.running = mainTasklet then afterMain count k' else ⟨k', count⟩ := by
  unfold step at taken
  split at taken
  · cases taken
  · obtain ⟨k', stepped, rfl⟩ := Option.map_eq_some_iff.mp taken
    exact ⟨k', stepped, rfl⟩

/-- The count of a run only grows. -/
theorem CountedRun.switches_le {u v : CountedRun ν} {labels : List (Option (Action ν))}
    (ran : runLabels CountedRun.step (fun _ _ => true) u labels = some v) :
    u.switches ≤ v.switches := by
  induction labels generalizing u with
  | nil =>
      cases ran
      exact Nat.le_refl _
  | cons label labels ih =>
      rw [runLabels, if_pos rfl] at ran
      obtain ⟨u', taken, rest⟩ := Option.bind_eq_some_iff.mp ran
      refine Nat.le_trans ?_ (ih rest)
      obtain ⟨k', -, rfl⟩ := CountedRun.config_of_step taken
      split
      · exact Nat.le_add_right _ _
      · exact Nat.le_refl _

/-- A run that is over goes no further. -/
theorem CountedRun.eq_of_finished {u v : CountedRun ν} {allowed : CountedRun ν → Option (Action ν) → Bool}
    {labels : List (Option (Action ν))} (finished : u.config.stack mainTasklet = [])
    (ran : runLabels CountedRun.step allowed u labels = some v) : labels = [] ∧ v = u := by
  cases labels with
  | nil =>
      cases ran
      exact ⟨rfl, rfl⟩
  | cons label labels =>
      rw [runLabels] at ran
      split at ran
      · rw [CountedRun.step, if_pos finished] at ran
        cases ran
      · cases ran

theorem LeftLoop.waits {timed : Bool} {k : Config ν} (left : LeftLoop timed k) :
    k.control ≠ .python := by
  intro python
  have empty := left.rests.rests left.main python
  rw [left.stack] at empty
  cases empty

section Steps

variable {limits : RunLimits} {number : Nat}

/-- The limited run takes its limits back. -/
theorem exact_of_back {k : Config ν} {count : Nat} {u w : CountedRun ν}
    {label : Option (Action ν)} (left : LeftLoop false k)
    (counts : ∀ labels v, runLabels CountedRun.step (fun _ _ => true) u labels = some v →
      count = min number v.switches)
    (taken : CountedRun.step ⟨k, count⟩ label = some w) : Exact ⟨.standard, -1, false⟩ number w u := by
  obtain ⟨k', stepped, rfl⟩ := CountedRun.config_of_step taken
  obtain ⟨ok, -, -, rfl, popped, -⟩ := Config.step_main left.main left.waits left.stack stepped
  have finished : (k.pop.resumeFrame (.runLimited false) ok).stack mainTasklet = [] := popped
  rw [if_pos left.main, CountedRun.afterMain_of_stack finished (by simp)]
  exact ⟨popped, rfl, counts⟩

/-- A step that keeps the count is quiet. -/
theorem Config.quiet_of_keepsCount {k : Config ν} {label : Option (Action ν)}
    (keeps : k.keepsCount label = true) : k.quiet label = true := by
  unfold Config.keepsCount at keeps
  unfold Config.quiet
  split at keeps
  · next main => rw [decide_eq_true main, Bool.true_or]
  · rw [keeps, Bool.or_true]

/-- A step of a limited run and of the unlimited run beside it. -/
theorem Paired.step {w u w' : CountedRun ν} (standard : limits.runType = .standard)
    (unstopped : limits.stopScheduler = false) (paired : Paired limits number w u)
    {label : Option (Action ν)} (keeps : w.config.keepsCount label = true)
    (taken : w.step label = some w') :
    (∃ u', u.step label = some u' ∧ Paired limits number w' u') ∨
      Exact ⟨.standard, -1, false⟩ number w' u := by
  cases paired with
  | stopped left more =>
      refine .inr (exact_of_back left (fun labels v ran => ?_) taken)
      exact (Nat.min_eq_left (Nat.le_trans more (CountedRun.switches_le ran))).symm
  | @refused k base endTasklet unblocked t count main lock returning exits counted =>
      obtain ⟨k', stepped, rfl⟩ := CountedRun.config_of_step taken
      obtain ⟨ok, rfl, returns, rfl, popped, beside⟩ :=
        Config.step_main main (lock.waits main) lock.stack stepped
      cases returning.symm.trans returns
      have fails : k.pop.loopAfter? base endTasklet unblocked t false = none := by
        have exits' : k.pop.exitRaised = false := exits
        rw [Config.loopAfter?, exits']
        rfl
      obtain ⟨-, kept, running, alike⟩ := Config.runSwitched_of_none fails
      have going : (k.withMain limits [.run base endTasklet unblocked t]).stack mainTasklet ≠ [] := by
        rw [Config.withMain_stack_main]
        exact List.cons_ne_nil _ _
      refine .inl ⟨_, CountedRun.step_of_config going (beside limits []) count, ?_⟩
      rw [if_pos main, Config.withMain_running, if_pos main, Config.resumeFrame, Config.resumeFrame,
        alike limits []]
      exact .of_ended ⟨lock.rests.step stepped, .ended, kept.trans popped,
        fun stop => absurd (unstopped.symm.trans stop) Bool.false_ne_true,
        fun _ => running.trans main⟩ counted
  | @going k frames count lock limited counted =>
      by_cases ended : frames = []
      · subst ended
        refine .inr (exact_of_back ⟨lock.rests, lock.main rfl, lock.stack⟩ (fun labels v ran => ?_)
          taken)
        obtain ⟨-, rfl⟩ := CountedRun.eq_of_finished (Config.withMain_stack_main _ _ _) ran
        exact (Nat.min_eq_right counted).symm
      have quiet := Config.quiet_of_keepsCount keeps
      obtain ⟨k', stepped, rfl⟩ := CountedRun.config_of_step taken
      have going : (k.withMain limits frames).stack mainTasklet ≠ [] := by
        rw [Config.withMain_stack_main]
        exact ended
      by_cases main : k.running = mainTasklet
      · have waits := lock.waits main
        have stack := lock.stack
        rw [if_pos main]
        cases lock.shape with
        | ended => exact absurd rfl ended
        | @looping base endTasklet unblocked t =>
            obtain ⟨ok, rfl, returning, rfl, popped, beside⟩ := Config.step_main main waits stack stepped
            refine .inl ⟨_, CountedRun.step_of_config going (beside limits []) count, ?_⟩
            rw [Config.withMain_running, if_pos main, Config.resumeFrame, Config.resumeFrame]
            cases found : k.pop.loopAfter? base endTasklet unblocked t ok with
            | none =>
                obtain ⟨-, kept, running, alike⟩ := Config.runSwitched_of_none found
                rw [alike limits []]
                exact .of_ended ⟨lock.rests.step stepped, .ended, kept.trans popped,
                  fun stop => absurd (unstopped.symm.trans stop) Bool.false_ne_true,
                  fun _ => running.trans main⟩ counted
            | some loop =>
                have within := Config.loopAfter?_within found
                obtain ⟨limited', kept⟩ := Config.loopAfter?_kept found
                have beside := Config.loopAfter?_withMain limits [] k.pop base endTasklet unblocked
                  t ok
                rw [found, Option.map_some] at beside
                rw [Config.runSwitched_of_loopAfter? found, Config.runSwitched_of_loopAfter? beside]
                have reached : k.mainLoop? = some loop := by
                  rw [Config.mainLoop?, returning, stack]
                  exact (if_pos main).trans found
                unfold Config.keepsCount at keeps
                rw [if_pos main, reached, Option.all_some, Bool.and_eq_true, beq_iff_eq] at keeps
                obtain ⟨current, unended⟩ := keeps
                have loops : AtLoop number count loop.1 :=
                  ⟨within.running.trans main, current, within.ages.main lock.rests.main,
                    kept.trans popped,
                    (congrArg RunLimits.toLimits limited').trans (limited ended), counted⟩
                refine loops.runLoop standard unstopped (fun t' next => ?_) endTasklet unblocked _
                rw [next, Option.all_some, Bool.not_eq_true'] at unended
                exact unended
        | @switched base endTasklet unblocked t t' =>
            obtain ⟨ok, rfl, -, rfl, popped, beside⟩ := Config.step_main main waits stack stepped
            refine .inl ⟨_, CountedRun.step_of_config going (beside limits _) count, ?_⟩
            have back := Config.switchedBack_withMain k.pop.state.runLimits (k.pop.stack mainTasklet)
              k.pop t' ok
            rw [Config.withMain_self] at back
            obtain ⟨limits', stack'⟩ := Config.kept_of_withMain back
            rw [Config.withMain_running, if_pos main, Config.resumeFrame, Config.resumeFrame,
              Config.switchedBack_withMain, CountedRun.afterMain_of_stack (stack'.trans popped) (by simp),
              CountedRun.afterMain_of_stack (Config.withMain_stack_main _ _ _) (by simp)]
            exact .going ⟨lock.rests.step stepped, .looping, stack'.trans popped,
              fun stop => absurd (unstopped.symm.trans stop) Bool.false_ne_true,
              fun empty => absurd empty (List.cons_ne_nil _ _)⟩
              (fun _ => (congrArg RunLimits.toLimits limits').trans (limited ended)) counted
      · have tests := lock.step_tests ended quiet stepped
        rw [Config.makesTest_of_other main] at tests
        rcases lock.step ended standard quiet stepped with ⟨frames', lock', beside, -⟩ | ⟨main', -⟩
        · refine .inl ⟨_, CountedRun.step_of_config going beside count, ?_⟩
          rw [if_neg main, Config.withMain_running, if_neg main]
          exact .going lock' (fun _ => (congrArg RunLimits.toLimits tests).trans (limited ended))
            counted
        · exact absurd main' main

theorem Paired.not_finished {w u : CountedRun ν} (paired : Paired limits number w u) :
    w.config.stack mainTasklet ≠ [] := by
  intro finished
  cases paired with
  | going lock =>
      rw [lock.stack] at finished
      exact List.append_ne_nil_of_right_ne_nil _ (List.cons_ne_nil _ _) finished
  | refused _ lock =>
      rw [lock.stack] at finished
      cases finished
  | stopped left =>
      rw [left.stack] at finished
      cases finished

/-- A limited run to its end, beside the unlimited run. -/
theorem Paired.run {w u w' : CountedRun ν} (standard : limits.runType = .standard)
    (unstopped : limits.stopScheduler = false) (paired : Paired limits number w u)
    {labels : List (Option (Action ν))}
    (ran : runLabels CountedRun.step (fun w label => w.config.keepsCount label) w labels = some w')
    (finished : w'.config.stack mainTasklet = []) :
    ∃ u', runLabels CountedRun.step (fun _ _ => true) u labels.dropLast = some u' ∧
      Exact ⟨.standard, -1, false⟩ number w' u' := by
  induction labels generalizing w u with
  | nil =>
      cases ran
      exact absurd finished paired.not_finished
  | cons label labels ih =>
      rw [runLabels] at ran
      split at ran
      · next keeps =>
        obtain ⟨w₁, taken, rest⟩ := Option.bind_eq_some_iff.mp ran
        rcases paired.step standard unstopped keeps taken with ⟨u₁, beside, paired₁⟩ | exact'
        · obtain ⟨u', ran', exact'⟩ := ih paired₁ rest
          refine ⟨u', ?_, exact'⟩
          cases labels with
          | nil =>
              cases rest
              exact absurd finished paired₁.not_finished
          | cons label' labels =>
              rw [List.dropLast_cons_cons, runLabels, if_pos rfl, beside]
              exact ran'
        · obtain ⟨rfl, rfl⟩ := CountedRun.eq_of_finished exact'.finished rest
          exact ⟨u, rfl, exact'⟩
      · cases ran

end Steps

/-- A limited run that main begins with no limits set and no tasklet at the front that was
killed before its first run, and whose steps do not disturb the count, makes as many of the
switches from main as its limit allows that the unlimited run makes in which the tasklets do
the same, and it leaves the limits as they were at first. -/
theorem runNTasklets_exact {clock : Nat → Int} {nested : Bool} {k₀ : Config ν} {number : Nat}
    (reached : Reachable Config.step (fun _ _ => True) (Config.initial clock nested) k₀)
    (python : k₀.control = .python) (main : k₀.running = mainTasklet)
    (current : k₀.state.currentTasklet = mainTasklet) (standard : k₀.state.runType = .standard)
    (unstopped : k₀.state.stopScheduler = false)
    (started : ∀ t, (k₀.state.tasklets mainTasklet).next = some t →
      k₀.state.endsUnstarted t = false)
    (admitted : 0 < number) (small : number < 2 ^ 31) {labels : List (Option (Action ν))}
    {w : CountedRun ν}
    (ran : runLabels CountedRun.step (fun w label => w.config.keepsCount label)
      (.afterMain 0 (k₀.runNTasklets number)) labels = some w)
    (finished : w.config.stack mainTasklet = []) :
    (∃ u, runLabels CountedRun.step (fun _ _ => true) (.afterMain 0 (k₀.run none))
        labels.dropLast = some u ∧
      ∀ labels' v, runLabels CountedRun.step (fun _ _ => true) u labels' = some v →
        w.switches = min number v.switches) ∧
      w.config.state.limits = ⟨.standard, -1, false⟩ := by
  have rests := reachable_mainRests reached
  have empty := rests.rests main python
  obtain ⟨limit, converted⟩ : ∃ limit, Int.bmod number (2 ^ 32) = limit := ⟨_, rfl⟩
  have count : limit = number - (0 : Nat) := by
    rw [← converted, Int.bmod_eq_of_le] <;> omega
  generalize begun : (k₀.withState { k₀.state with
    taskletLimit := limit, runType := .taskletLimited }).push (.runLimited false) = k₁
  have loop : AtLoop number 0 k₁ := by
    rw [← begun]
    refine ⟨main, current, ⟨rests.main.started, rests.main.counted, rests.main.isMain⟩, ?_, ?_,
      Nat.zero_le _⟩
    · rw [Config.push_stack, Config.withState_running, main, Function.update_self,
        Config.withState_stack, empty]
    · rw [← count, decide_eq_false (Nat.ne_of_lt admitted), ← unstopped]
      rfl
  have beside : k₁.withMain k₀.state.runLimits [] = k₀ := by
    rw [← begun]
    refine (Config.withMain_push_main _ _ main _).trans ?_
    exact (congrArg (k₀.withMain k₀.state.runLimits) empty.symm).trans (Config.withMain_self k₀)
  have same : k₁.state.currentTasklet = k₀.state.currentTasklet ∧
      k₁.state.tasklets = k₀.state.tasklets := by
    rw [← begun]
    exact ⟨rfl, rfl⟩
  have startable (t : TaskletId) (next : (k₁.state.tasklets k₀.state.currentTasklet).next =
      some t) : k₁.state.endsUnstarted t = false := by
    rw [same.2, current] at next
    rw [State.endsUnstarted, same.2]
    exact started t next
  have plain : k₀.state.runLimits.runType = .standard := standard
  have paired := loop.runLoop plain unstopped startable none (k₀.state.currentTasklet == mainTasklet &&
      (k₀.state.tasklets k₀.state.currentTasklet).blocked) false
  have limited : k₁.runLoop k₀.state.currentTasklet none (k₀.state.currentTasklet == mainTasklet &&
      (k₀.state.tasklets k₀.state.currentTasklet).blocked) false = k₀.runNTasklets number := by
    rw [← begun, ← converted]
    rfl
  rw [beside, limited] at paired
  obtain ⟨u, ran', exact'⟩ := paired.run standard unstopped ran finished
  exact ⟨⟨u, ran', exact'.count⟩, exact'.limits⟩

/-- Main runs its own code and no limits are set. -/
def Config.idleMain (k : Config ν) : Bool :=
  k.control = .python ∧ k.running = mainTasklet ∧ k.state.currentTasklet = mainTasklet ∧
    k.state.limits = ⟨.standard, -1, false⟩

/-- With two tasklets, a run of one switches to the first. -/
theorem runNTasklets_exact_one :
    ∃ (k₀ : Config Unit) (w : CountedRun Unit), w.switches = 1 ∧
      (∃ u, runLabels CountedRun.step (fun _ _ => true) (.afterMain 0 (k₀.run none))
          [some .finish, none, none] = some u ∧
        ∀ labels' v, runLabels CountedRun.step (fun _ _ => true) u labels' = some v →
          w.switches = min 1 v.switches) ∧
        w.config.state.limits = ⟨.standard, -1, false⟩ := by
  have ran : (runLabels Config.step (fun _ _ => true) (Config.initial (fun _ => 0) true)
      twoTasklets).map (fun k => (k.idleMain,
        (k.state.tasklets mainTasklet).next.all fun t => !k.state.endsUnstarted t,
        (runLabels CountedRun.step (fun w label => w.config.keepsCount label)
          (.afterMain 0 (k.runNTasklets 1)) [some .finish, none, none, none]).map
            fun w => (w.config.stack mainTasklet, w.switches))) =
      some (true, true, some ([], 1)) := by
    decide +kernel
  obtain ⟨k₀, done₀, facts⟩ := Option.map_eq_some_iff.mp ran
  simp only [Prod.mk.injEq, Config.idleMain, decide_eq_true_eq] at facts
  obtain ⟨⟨python, main, current, limits⟩, started, rest⟩ := facts
  obtain ⟨w, done, ends⟩ := Option.map_eq_some_iff.mp rest
  simp only [Prod.mk.injEq] at ends
  refine ⟨k₀, w, ends.2, runNTasklets_exact
    ((Reachable.of_runLabels .refl done₀).mono fun _ _ _ => trivial) python main current
    (congrArg Limits.runType limits) (congrArg Limits.stopScheduler limits) (fun t next => ?_)
    (by decide) (by decide) done ends.1⟩
  rw [next, Option.all_some, Bool.not_eq_true'] at started
  exact started

/-- With two tasklets, a run of 2147483648 switches to the first only. -/
theorem runNTasklets_overflow :
    ¬ ∀ (k₀ : Config Unit) (number : Nat) (labels labels' : List (Option (Action Unit)))
      (w u v : CountedRun Unit),
      Reachable Config.step (fun _ _ => True) (Config.initial (fun _ => 0) true) k₀ →
      k₀.control = .python → k₀.running = mainTasklet → k₀.state.currentTasklet = mainTasklet →
      k₀.state.limits = ⟨.standard, -1, false⟩ → 0 < number → number < 2 ^ 32 →
      (∀ error, some (.raise error) ∉ labels ++ labels') →
      runLabels CountedRun.step (fun _ _ => true) (.afterMain 0 (k₀.runNTasklets number)) labels =
        some w → w.config.stack mainTasklet = [] →
      runLabels CountedRun.step (fun _ _ => true) (.afterMain 0 (k₀.run none)) labels.dropLast =
        some u → runLabels CountedRun.step (fun _ _ => true) u labels' = some v →
      v.config.stack mainTasklet = [] → w.switches = min number v.switches := by
  intro counts
  have ran : (runLabels Config.step (fun _ _ => true) (Config.initial (fun _ => 0) true)
      twoTasklets).map (fun k => (k.idleMain,
        (runLabels CountedRun.step (fun _ _ => true)
          (.afterMain 0 (k.runNTasklets (2 ^ 31))) [some .finish, none, none, none]).map
            fun w => (w.config.stack mainTasklet, w.switches),
        (runLabels CountedRun.step (fun _ _ => true)
          (.afterMain 0 (k.run none)) [some .finish, none, none]).bind fun u =>
            (runLabels CountedRun.step (fun _ _ => true) u [some .finish, none, none]).map
              fun v => (v.config.stack mainTasklet, v.switches))) =
      some (true, some ([], 1), some ([], 2)) := by
    decide +kernel
  obtain ⟨k₀, done₀, facts⟩ := Option.map_eq_some_iff.mp ran
  simp only [Prod.mk.injEq, Config.idleMain, decide_eq_true_eq] at facts
  obtain ⟨⟨python, main, current, limits⟩, limited, unlimited⟩ := facts
  obtain ⟨w, done, ends⟩ := Option.map_eq_some_iff.mp limited
  obtain ⟨u, begun, rest⟩ := Option.bind_eq_some_iff.mp unlimited
  obtain ⟨v, more, finished⟩ := Option.map_eq_some_iff.mp rest
  simp only [Prod.mk.injEq] at ends finished
  have count := counts k₀ (2 ^ 31) _ _ w u v
    ((Reachable.of_runLabels .refl done₀).mono fun _ _ _ => trivial) python main current limits
    (by decide) (by decide) (by simp) done ends.1 begun more finished.1
  rw [ends.2, finished.2] at count
  exact absurd count (by decide)

end CarbonLab.Scheduler
