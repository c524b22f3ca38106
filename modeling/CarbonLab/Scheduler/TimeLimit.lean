import CarbonLab.Scheduler.Lockstep
import Mathlib.Order.Monotone.Basic

/-!
# Runs for a time

`RunTaskletsForTime` from main, beside an unlimited `Run` from the same state in which the
tasklets do the same.  A limit test that finds the time over sets a flag that is only looked
at after the switch that follows it.
-/

namespace CarbonLab.Scheduler

open Transition

variable {ν : Type}

namespace Config

/-- The time that a limit test saw, if it was made since a number of readings. -/
def elapsed (k : Config ν) (start : Int) (reads : Nat) : Option Int :=
  if reads < k.state.clockReads then some (k.state.clock (k.state.clockReads - 1) - start) else none

/-- The switch that main just made, with the time its limit test saw. -/
def mainSwitch (k : Config ν) (start : Int) (reads : Nat) : List (Option Int) :=
  if k.inSwitch then [k.elapsed start reads] else []

/-- The time since the start that a limit test of a run from here sees, by the number of the
tests before it. -/
def testTime (k : Config ν) (number : Nat) : Int :=
  k.state.clock (k.state.clockReads + 1 + number) - k.state.clock k.state.clockReads

end Config

/-! ## Runs -/

/-- A configuration in a timed run, and what the limit tests before its switches from main
saw. -/
structure TimedRun (ν : Type) where
  config : Config ν
  switches : List (Option Int)

namespace TimedRun

/-- `RunTaskletsForTime` up to its first switch. -/
def begin (k : Config ν) (timeout : Int) : TimedRun ν :=
  let k' := k.runTaskletsForTime timeout
  ⟨k', k'.mainSwitch (k.state.clock k.state.clockReads) (k.state.clockReads + 1)⟩

/-- One step, as long as the run is not over. -/
def step (start : Int) (w : TimedRun ν) (label : Option (Action ν)) : Option (TimedRun ν) :=
  if w.config.stack mainTasklet = [] then none
  else
    (w.config.step label).map fun k' => ⟨k', w.switches ++
      if w.config.running = mainTasklet then k'.mainSwitch start w.config.state.clockReads else []⟩

end TimedRun

/-- Every switch but the first saw less than the timeout. -/
def KeepsTime (timeout : Int) (switches : List (Option Int)) : Prop :=
  ∀ seen ∈ switches.tail, ∃ time, seen = some time ∧ time < timeout

/-- A configuration in an unlimited run of main, how many limit tests a limited run makes up
to here, and the numbers of those before its switches from main. -/
structure PlainRun (ν : Type) where
  config : Config ν
  tests : Nat
  switches : List (Option Nat)

namespace PlainRun

/-- After a step of main, in which a limited run makes a limit test or not. -/
def afterMain (tests : Nat) (switches : List (Option Nat)) (tested : Bool) (k : Config ν) :
    PlainRun ν :=
  ⟨k, if tested then tests + 1 else tests,
    switches ++ if k.inSwitch then [if tested then some tests else none] else []⟩

/-- `Run` without a limit up to its first switch. -/
def begin (k : Config ν) : PlainRun ν :=
  let k := k.withState { k.state with runType := .standard }
  afterMain 0 [] (k.reaches k.state.currentTasklet false && k.state.currentTasklet == mainTasklet)
    (k.run none)

/-- One step, as long as the run is not over. -/
def step (u : PlainRun ν) (label : Option (Action ν)) : Option (PlainRun ν) :=
  if u.config.stack mainTasklet = [] then none
  else
    (u.config.step label).map fun k' =>
      if u.config.running = mainTasklet then afterMain u.tests u.switches u.config.makesTest k'
      else ⟨k', u.tests, u.switches⟩

/-- Every switch but the first comes after a limit test at which the timeout is not over. -/
def InTime (k₀ : Config ν) (timeout : Int) (u : PlainRun ν) : Prop :=
  ∀ test ∈ u.switches.tail, ∃ number, test = some number ∧ k₀.testTime number < timeout

end PlainRun

/-! ## The two runs beside each other -/

theorem State.testRunLimits_timed {s : State ν} (main : (s.tasklets s.currentTasklet).isMain = true)
    (timed : s.runType = .timeLimited) : s.testRunLimits.clockReads = s.clockReads + 1 ∧
      s.testRunLimits.runType = .timeLimited := by
  unfold State.testRunLimits
  rw [if_pos main, timed]
  dsimp only
  repeat' split
  all_goals exact ⟨rfl, rfl⟩

theorem Config.step_clock {k k' : Config ν} {label : Option (Action ν)}
    (taken : k.step label = some k') : k'.state.clock = k.state.clock := by
  rcases step_leaves taken with ⟨-, rfl⟩ | leaves
  · rfl
  · exact leaves.ages.clock

theorem Lockstep.inSwitch {timed : Bool} {limits : RunLimits} {frames : List Frame}
    {k : Config ν} (lock : Lockstep timed limits frames k) :
    (k.withMain limits frames).inSwitch = k.inSwitch := by
  rw [Config.inSwitch, Config.inSwitch, Config.withMain_stack_main, lock.stack]
  cases lock.shape <;> rfl

/-- The limits of the unlimited run. -/
def Config.plainLimits (k : Config ν) : RunLimits :=
  { k.state.runLimits with runType := .standard }

/-- The timed run took one reading for each limit test. -/
structure Clocked (k₀ k : Config ν) (tests : Nat) : Prop where
  timed : k.state.runType = .timeLimited
  clock : k.state.clock = k₀.state.clock
  reads : k.state.clockReads = k₀.state.clockReads + 1 + tests

/-- A timed run and the unlimited run in which the tasklets do the same. -/
structure TimedRun.Beside (k₀ : Config ν) (w : TimedRun ν) (u : PlainRun ν) : Prop where
  lock : ∃ frames, Lockstep true k₀.plainLimits frames w.config ∧
    u.config = w.config.withMain k₀.plainLimits frames
  clocked : Clocked k₀ w.config u.tests
  switches : w.switches = u.switches.map (Option.map k₀.testTime)

section Beside

variable {k₀ k k' : Config ν}

/-- Main's step in both runs. -/
theorem Clocked.afterMain {tests : Nat} {switches : List (Option Nat)} {tested : Bool}
    {frames : List Frame} (clocked : Clocked k₀ k tests) (changes : Config.Tests k k' tested)
    (clock : k'.state.clock = k.state.clock) (lock : Lockstep true k₀.plainLimits frames k') :
    TimedRun.Beside k₀ ⟨k', switches.map (Option.map k₀.testTime) ++
        k'.mainSwitch (k₀.state.clock k₀.state.clockReads) k.state.clockReads⟩
      (.afterMain tests switches tested (k'.withMain k₀.plainLimits frames)) := by
  have same := clock.trans clocked.clock
  have reads := clocked.reads
  rw [PlainRun.afterMain, lock.inSwitch, Config.mainSwitch, Config.elapsed]
  cases tested with
  | true =>
      obtain ⟨s, main, -, before, after⟩ := changes
      have timed : s.runType = .timeLimited :=
        (congrArg (fun limits => limits.runType) before).trans clocked.timed
      obtain ⟨more, timed'⟩ := State.testRunLimits_timed main timed
      have taken : k'.state.clockReads = k.state.clockReads + 1 := by
        refine (congrArg RunLimits.clockReads after).trans (more.trans ?_)
        exact congrArg (· + 1) (congrArg RunLimits.clockReads before)
      refine ⟨⟨frames, lock, rfl⟩, ⟨?_, same, ?_⟩, ?_⟩
      · exact (congrArg (fun limits => limits.runType) after).trans timed'
      · rw [taken, reads]
        rfl
      · rw [taken, if_pos (Nat.lt_succ_self _), Nat.add_sub_cancel, same, reads]
        cases k'.inSwitch <;> simp [Config.testTime]
  | false =>
      have kept : k'.state.runLimits = k.state.runLimits := changes
      have taken : k'.state.clockReads = k.state.clockReads := congrArg RunLimits.clockReads kept
      refine ⟨⟨frames, lock, rfl⟩, ⟨?_, same, taken.trans reads⟩, ?_⟩
      · exact (congrArg (fun limits => limits.runType) kept).trans clocked.timed
      · rw [taken, if_neg (Nat.lt_irrefl _)]
        cases k'.inSwitch <;> simp

/-- The timed run left its loop. -/
structure TimedRun.Over (w : TimedRun ν) : Prop where
  rests : MainRests w.config
  main : w.config.running = mainTasklet
  stack : w.config.stack mainTasklet = [.runLimited true] ∨ w.config.stack mainTasklet = []

variable {w w' : TimedRun ν} {u : PlainRun ν} {start : Int} {label : Option (Action ν)}

theorem TimedRun.config_of_step (taken : w.step start label = some w') :
    w.config.stack mainTasklet ≠ [] ∧ ∃ k', w.config.step label = some k' ∧
      w' = ⟨k', w.switches ++
        if w.config.running = mainTasklet then k'.mainSwitch start w.config.state.clockReads
        else []⟩ := by
  unfold TimedRun.step at taken
  split at taken
  · cases taken
  · next going =>
    obtain ⟨k', stepped, rfl⟩ := Option.map_eq_some_iff.mp taken
    exact ⟨going, k', stepped, rfl⟩

/-- After its loop a timed run only takes its limits back. -/
theorem TimedRun.Over.step (over' : w.Over) (taken : w.step start label = some w') :
    w'.Over ∧ w'.switches = w.switches := by
  obtain ⟨going, k', stepped, rfl⟩ := TimedRun.config_of_step taken
  have stack := over'.stack.resolve_right going
  have waits : w.config.control ≠ .python := fun python =>
    going (over'.rests.rests over'.main python)
  obtain ⟨ok, rfl, -, rfl, popped, -⟩ := Config.step_main over'.main waits stack stepped
  have empty : (w.config.pop.resumeFrame (.runLimited true) ok).stack mainTasklet = [] := popped
  refine ⟨⟨over'.rests.step stepped, over'.main, .inr empty⟩, ?_⟩
  rw [if_pos over'.main, Config.mainSwitch, Config.inSwitch, empty]
  exact List.append_nil _

theorem TimedRun.Over.run {allowed : TimedRun ν → Option (Action ν) → Prop} (over' : w.Over)
    (reached : Reachable (TimedRun.step start) allowed w w') :
    w'.Over ∧ w'.switches = w.switches := by
  induction reached with
  | refl => exact ⟨over', rfl⟩
  | tail _ _ taken ih =>
      obtain ⟨still, same⟩ := ih.1.step taken
      exact ⟨still, same.trans ih.2⟩

theorem PlainRun.step_of_config {k k' : Config ν} {label : Option (Action ν)} {tests : Nat}
    {switches : List (Option Nat)} (going : k.stack mainTasklet ≠ [])
    (taken : k.step label = some k') : step ⟨k, tests, switches⟩ label =
      some (if k.running = mainTasklet then afterMain tests switches k.makesTest k'
        else ⟨k', tests, switches⟩) := by
  rw [step, if_neg going, taken]
  rfl

/-- A step of a timed run is one of the unlimited run beside it, or the timed run left its
loop. -/
theorem TimedRun.Beside.step (beside : Beside k₀ w u) (quiet : w.config.quiet label = true)
    (taken : w.step (k₀.state.clock k₀.state.clockReads) label = some w') :
    (∃ u', u.step label = some u' ∧ Beside k₀ w' u') ∨ (w'.Over ∧ w'.switches = w.switches) := by
  obtain ⟨going, k', stepped, rfl⟩ := TimedRun.config_of_step taken
  obtain ⟨⟨frames, lock, unlimited⟩, clocked, switches⟩ := beside
  obtain ⟨plain, tests, numbers⟩ := u
  dsimp only at unlimited clocked switches
  subst unlimited
  by_cases ended : frames = []
  · -- both loops are over
    subst ended
    exact .inr (Over.step ⟨lock.rests, lock.main rfl, .inl lock.stack⟩ taken)
  · have going' : (w.config.withMain k₀.plainLimits frames).stack mainTasklet ≠ [] := by
      rw [Config.withMain_stack_main]
      exact ended
    rcases lock.step ended rfl quiet stepped with ⟨frames', lock', beside, test⟩ | ⟨-, left⟩
    · refine .inl ⟨_, PlainRun.step_of_config going' beside, ?_⟩
      rw [Config.withMain_running, test]
      by_cases main : w.config.running = mainTasklet
      · rw [if_pos main, if_pos main, switches]
        exact clocked.afterMain (lock.step_tests ended quiet stepped) (Config.step_clock stepped)
          lock'
      · rw [if_neg main, if_neg main, List.append_nil]
        have kept : k'.state.runLimits = w.config.state.runLimits := by
          have tests := lock.step_tests ended quiet stepped
          rw [Config.makesTest_of_other main] at tests
          exact tests
        refine ⟨⟨frames', lock', rfl⟩, ⟨?_, ?_, ?_⟩, switches⟩
        · exact (congrArg (fun limits => limits.runType) kept).trans clocked.timed
        · exact (Config.step_clock stepped).trans clocked.clock
        · exact (congrArg RunLimits.clockReads kept).trans clocked.reads
    · refine .inr ⟨⟨left.rests, left.main, .inl left.stack⟩, ?_⟩
      dsimp only
      split
      · rw [Config.mainSwitch, Config.inSwitch, left.stack]
        exact List.append_nil _
      · exact List.append_nil _

/-- Both runs begin beside each other. -/
theorem TimedRun.begin_beside {timeout : Int} (rests : MainRests k₀) (python : k₀.control = .python)
    (main : k₀.running = mainTasklet) :
    Beside k₀ (TimedRun.begin k₀ timeout) (PlainRun.begin k₀) := by
  generalize limited : (k₀.withState { k₀.state with
    totalTaskletRunTimeLimit := timeout
    firstTimeLimitTestSkipped := false
    runType := .timeLimited
    startTime := k₀.state.clock k₀.state.clockReads
    clockReads := k₀.state.clockReads + 1 }).push (.runLimited true) = k₁
  have main₁ : k₁.running = mainTasklet := by
    rw [← limited]
    exact main
  have started : k₁.state.MainStarted := by
    rw [← limited]
    exact ⟨rests.main.started, rests.main.counted, rests.main.isMain⟩
  have stack : k₁.stack mainTasklet = [.runLimited true] := by
    rw [← limited, Config.push_stack, Config.withState_running, main, Function.update_self,
      Config.withState_stack, rests.rests main python]
  have current : k₁.state.currentTasklet = k₀.state.currentTasklet := by
    rw [← limited]
    rfl
  have stop : k₀.plainLimits.stopScheduler = k₁.state.stopScheduler := by
    rw [← limited]
    rfl
  have clocked : Clocked k₀ k₁ 0 := by
    rw [← limited]
    exact ⟨rfl, rfl, rfl⟩
  have plain : k₁.withMain k₀.plainLimits [] =
      k₀.withState { k₀.state with runType := .standard } := by
    have empty : Function.update k₀.stack mainTasklet [] = k₀.stack := by
      rw [← rests.rests main python, Function.update_eq_self]
    rw [← limited]
    refine (Config.withMain_push_main _ _ (k := k₀.withState _) main _).trans ?_
    simp only [Config.withMain, Config.withState_stack, empty]
    rfl
  have begun : TimedRun.begin k₀ timeout = ⟨k₁.runLoop k₀.state.currentTasklet none
      (k₀.state.currentTasklet == mainTasklet && (k₀.state.tasklets k₀.state.currentTasklet).blocked)
      false, (k₁.runLoop k₀.state.currentTasklet none (k₀.state.currentTasklet == mainTasklet &&
        (k₀.state.tasklets k₀.state.currentTasklet).blocked) false).mainSwitch
          (k₀.state.clock k₀.state.clockReads) k₁.state.clockReads⟩ := by
    rw [← limited]
    rfl
  have tests := Config.Tests.of_runLoop main₁ started k₀.state.currentTasklet none
    (k₀.state.currentTasklet == mainTasklet && (k₀.state.tasklets k₀.state.currentTasklet).blocked)
    false
  have ages := (Within.refl k₁).runLoop k₀.state.currentTasklet none
    (k₀.state.currentTasklet == mainTasklet && (k₀.state.tasklets k₀.state.currentTasklet).blocked)
    false
  have standard : k₀.plainLimits.runType = .standard := rfl
  rcases Config.runLoop_lockstep main₁ started stack standard
    (fun stopped => stop ▸ stopped) k₀.state.currentTasklet none
    (k₀.state.currentTasklet == mainTasklet && (k₀.state.tasklets k₀.state.currentTasklet).blocked)
    false with ⟨frames, lock, alike, reaches⟩ | ⟨⟨stopped, -, goes⟩, -⟩
  · have beside := @Clocked.afterMain _ k₀ k₁ _ 0 [] _ _ clocked tests ages.ages.clock lock
    rw [begun]
    rw [← alike, ← reaches, plain, current] at beside
    exact beside
  · rw [stop, stopped] at goes
    cases goes

/-- A timed run is beside the unlimited run up to the end of its loop. -/
theorem TimedRun.Beside.run {labels : List (Option (Action ν))} (beside : Beside k₀ w u)
    (ran : runLabels (TimedRun.step (k₀.state.clock k₀.state.clockReads))
      (fun w label => w.config.quiet label) w labels = some w') :
    ∃ n u', runLabels PlainRun.step (fun _ _ => true) u (labels.take n) = some u' ∧
      w'.switches = u'.switches.map (Option.map k₀.testTime) ∧
      (1 < (w'.config.stack mainTasklet).length → labels.take n = labels) := by
  induction labels generalizing w u with
  | nil =>
      cases ran
      exact ⟨0, u, rfl, beside.switches, fun _ => rfl⟩
  | cons label labels ih =>
      rw [runLabels] at ran
      split at ran
      · next quiet =>
        obtain ⟨w₁, taken, rest⟩ := Option.bind_eq_some_iff.mp ran
        rcases beside.step quiet taken with ⟨u₁, stepped, beside₁⟩ | ⟨left, same⟩
        · obtain ⟨n, u', ran', switches, all⟩ := ih beside₁ rest
          refine ⟨n + 1, u', ?_, switches, fun looping => ?_⟩
          · rw [List.take_succ_cons, runLabels, if_pos rfl, stepped]
            exact ran'
          · rw [List.take_succ_cons, all looping]
        · have ended := left.run (Reachable.of_runLabels .refl rest)
          refine ⟨0, u, rfl, (ended.2.trans same).trans beside.switches, fun looping => ?_⟩
          rcases ended.1.stack with stack | stack
          · rw [stack] at looping
            exact absurd looping (Nat.lt_irrefl 1)
          · rw [stack] at looping
            exact absurd looping (Nat.not_lt_zero 1)
      · cases ran

/-- The switches of a timed run only grow. -/
theorem TimedRun.switches_length {allowed : TimedRun ν → Option (Action ν) → Prop}
    (reached : Reachable (TimedRun.step start) allowed w w') :
    w.switches.length ≤ w'.switches.length := by
  induction reached with
  | refl => exact Nat.le_refl _
  | tail _ _ taken ih =>
      obtain ⟨-, k', -, rfl⟩ := TimedRun.config_of_step taken
      rw [List.length_append]
      exact Nat.le_trans ih (Nat.le_add_right _ _)

theorem PlainRun.inTime_iff {timeout : Int} (k₀ : Config ν) (u : PlainRun ν) :
    u.InTime k₀ timeout ↔ KeepsTime timeout (u.switches.map (Option.map k₀.testTime)) := by
  simp [PlainRun.InTime, KeepsTime, ← List.map_tail, Option.map_eq_some_iff]

/-- Without time there is no second switch. -/
theorem PlainRun.InTime.atMostOne {timeout : Int} (inTime : u.InTime k₀ timeout)
    (monotone : Monotone k₀.state.clock) (untimed : timeout ≤ 0) : u.switches.length ≤ 1 := by
  rcases switches : u.switches with _ | ⟨first, _ | ⟨second, rest⟩⟩
  · exact Nat.zero_le 1
  · exact Nat.le_refl 1
  · obtain ⟨number, -, short⟩ := inTime second (by simp [switches])
    have onward := monotone (show k₀.state.clockReads ≤ k₀.state.clockReads + 1 + number by omega)
    rw [Config.testTime] at short
    omega

end Beside

/-- The loop of main goes on to a switch. -/
theorem Config.runLoop_goesOn {k : Config ν} {base : TaskletId} {complete : Bool}
    (main : k.running = mainTasklet) (goes : k.goesOn base complete = true)
    (endTasklet : Option TaskletId) (unblocked : Bool) :
    (k.runLoop base endTasklet unblocked complete).inSwitch = true := by
  rw [Config.goesOn, Bool.and_eq_true] at goes
  obtain ⟨reached, may⟩ := goes
  obtain ⟨t, s, next, done, looped⟩ := Config.runLoop_of_reaches reached endTasklet unblocked
  rw [next, Option.any_some] at may
  have may' : ((k.withState s.testRunLimits).push
      (.run base endTasklet unblocked t)).state.maySwitchTo t = true := by
    have tested := State.testRunLimits_withLimits_self s s.testRunLimits.runLimits
    rw [State.withLimits_self] at tested
    rw [Config.push_state, Config.withState_state, tested, State.setParent_some done]
    simpa [State.maySwitchTo] using may
  have grown : (((k.withState s.testRunLimits).push
      (.run base endTasklet unblocked t)).beginSwitch t).stack mainTasklet =
        .switchTo t :: .run base endTasklet unblocked t :: k.stack mainTasklet := by
    simp [Config.beginSwitch, main]
  rw [looped, Config.switchTo_of_may may', Config.inSwitch, Config.enterGreenlet_stack, grown]

/-- A first switch that can be made is made, whatever the time. -/
theorem TimedRun.begin_switches {k₀ : Config ν} (rests : MainRests k₀) (python : k₀.control = .python)
    (main : k₀.running = mainTasklet) (goes : k₀.goesOn k₀.state.currentTasklet false = true)
    (timeout : Int) : (TimedRun.begin k₀ timeout).switches.length = 1 := by
  generalize limited : (k₀.withState { k₀.state with
    totalTaskletRunTimeLimit := timeout
    firstTimeLimitTestSkipped := false
    runType := .timeLimited
    startTime := k₀.state.clock k₀.state.clockReads
    clockReads := k₀.state.clockReads + 1 }).push (.runLimited true) = k₁
  have begun : (TimedRun.begin k₀ timeout).config = k₁.runLoop k₀.state.currentTasklet none
      (k₀.state.currentTasklet == mainTasklet && (k₀.state.tasklets k₀.state.currentTasklet).blocked)
      false := by
    rw [← limited]
    rfl
  have back : k₁.withMain k₀.state.runLimits [] = k₀ := by
    rw [← limited]
    refine (Config.withMain_push_main _ _ (k := k₀.withState _) main _).trans ?_
    have same := Config.withMain_self k₀
    rw [rests.rests main python] at same
    exact same
  have stop : k₀.state.runLimits.stopScheduler = k₁.state.stopScheduler := by
    rw [← limited]
    rfl
  have going : ¬ k₁.StopsLoop k₀.state.runLimits := by
    rintro ⟨stopped, -, unstopped⟩
    rw [stop, stopped] at unstopped
    cases unstopped
  have reaches : (k₁.withMain k₀.state.runLimits []).reaches k₀.state.currentTasklet false =
      k₁.reaches k₀.state.currentTasklet false :=
    Config.reaches_withMain [] (fun stopped => stop ▸ stopped) going _ false
  have goes₁ : k₁.goesOn k₀.state.currentTasklet false = true := by
    rw [Config.goesOn, ← reaches, back]
    rw [← limited]
    exact goes
  have main₁ : k₁.running = mainTasklet := by
    rw [← limited]
    exact main
  have switched := Config.runLoop_goesOn main₁ goes₁ none
    (k₀.state.currentTasklet == mainTasklet && (k₀.state.tasklets k₀.state.currentTasklet).blocked)
  rw [← begun] at switched
  have switches : (TimedRun.begin k₀ timeout).switches =
      (TimedRun.begin k₀ timeout).config.mainSwitch (k₀.state.clock k₀.state.clockReads)
        (k₀.state.clockReads + 1) := rfl
  rw [switches, Config.mainSwitch, switched]
  rfl

/-- A timed run in which no tasklet begins or ends a limited run of its own or enters a run
loop with main current: where the unlimited run in which the tasklets do the same makes every
switch but the first in time, every switch of the timed run but the first saw less than the
timeout, and with no time there is exactly one if the first can be made.  Up to the end of its
loop this is exact. -/
theorem timeLimit_exact {clock : Nat → Int} {nested : Bool} {k₀ : Config ν} {timeout : Int}
    (reached : Reachable Config.step (fun _ _ => True) (Config.initial clock nested) k₀)
    (python : k₀.control = .python) (main : k₀.running = mainTasklet)
    {labels : List (Option (Action ν))} {w : TimedRun ν}
    (ran : runLabels (TimedRun.step (k₀.state.clock k₀.state.clockReads))
      (fun w label => w.config.quiet label) (TimedRun.begin k₀ timeout) labels = some w) :
    ((∀ n u, runLabels PlainRun.step (fun _ _ => true) (PlainRun.begin k₀) (labels.take n) = some u →
        u.InTime k₀ timeout) →
      KeepsTime timeout w.switches ∧
        (Monotone clock → timeout ≤ 0 → w.switches.length ≤ 1 ∧
          (k₀.goesOn k₀.state.currentTasklet false = true → w.switches.length = 1))) ∧
    (1 < (w.config.stack mainTasklet).length →
      ∃ u, runLabels PlainRun.step (fun _ _ => true) (PlainRun.begin k₀) labels = some u ∧
        (KeepsTime timeout w.switches ↔ u.InTime k₀ timeout)) := by
  have rests := reachable_mainRests reached
  have begun : TimedRun.Beside k₀ (TimedRun.begin k₀ timeout) (PlainRun.begin k₀) :=
    TimedRun.begin_beside rests python main
  obtain ⟨n, u, ran', switches, all⟩ := begun.run ran
  have exact_ : KeepsTime timeout w.switches ↔ u.InTime k₀ timeout := by
    rw [switches, u.inTime_iff]
  refine ⟨fun inTime => ?_, fun looping => ⟨u, all looping ▸ ran', exact_⟩⟩
  have inTime := inTime n u ran'
  refine ⟨exact_.mpr inTime, fun monotone untimed => ?_⟩
  rw [← reachable_clock reached] at monotone
  have atMost : w.switches.length ≤ 1 := by
    rw [switches, List.length_map]
    exact inTime.atMostOne monotone untimed
  refine ⟨atMost, fun goes => ?_⟩
  have grown := TimedRun.switches_length (Reachable.of_runLabels .refl ran)
  rw [TimedRun.begin_switches rests python main goes] at grown
  exact Nat.le_antisymm atMost grown

/-- Two tasklets are set up. -/
def twoTasklets : List (Option (Action Unit)) :=
  [some (.create true), none, some (.setup 1 (some true) none), none, some (.create true), none,
    some (.setup 2 (some true) none), none]

/-- Both tasklets return at once. -/
def twoFinish : List (Option (Action Unit)) :=
  [some .finish, none, none, some .finish, none, none, none]

/-- With time for both of two tasklets a run switches to both, and without time to one that is
alone. -/
theorem timeLimit_exact_two :
    (∃ w : TimedRun Unit, w.config.stack mainTasklet = [] ∧ w.switches = [some 1, some 2] ∧
      KeepsTime 3 w.switches) ∧
    ∃ w : TimedRun Unit, w.config.stack mainTasklet = [] ∧ w.switches.length = 1 := by
  constructor
  · have ran : (runLabels Config.step (fun _ _ => true) (Config.initial (fun n => n) true)
        twoTasklets).map (fun k => (k.control, k.running,
          (runLabels (TimedRun.step (k.state.clock k.state.clockReads))
            (fun w label => w.config.quiet label) (TimedRun.begin k 3) twoFinish).map
              fun w => decide (w.config.stack mainTasklet = [] ∧ w.switches = [some 1, some 2]))) =
        some (.python, mainTasklet, some true) := by
      decide +kernel
    have plain : (runLabels Config.step (fun _ _ => true) (Config.initial (fun n => n) true)
        twoTasklets).all (fun k => k.state.clockReads == 0 && (List.range 8).all fun n =>
          (runLabels PlainRun.step (fun _ _ => true) (PlainRun.begin k) (twoFinish.take n)).all
            fun u => u.switches.tail.all (· == some 1)) = true := by
      decide +kernel
    obtain ⟨k₀, done₀, facts⟩ := Option.map_eq_some_iff.mp ran
    simp only [Prod.mk.injEq] at facts
    obtain ⟨python, main, rest⟩ := facts
    obtain ⟨w, done, ends⟩ := Option.map_eq_some_iff.mp rest
    rw [decide_eq_true_iff] at ends
    have reached : Reachable Config.step (fun _ _ => True) (Config.initial (fun n => n) true) k₀ :=
      (Reachable.of_runLabels .refl done₀).mono fun _ _ _ => trivial
    refine ⟨w, ends.1, ends.2, ((timeLimit_exact reached python main done).1 ?_).1⟩
    intro n u ran'
    rw [done₀, Option.all_some, Bool.and_eq_true, beq_iff_eq, List.all_eq_true] at plain
    obtain ⟨reads, plain⟩ := plain
    have short : twoFinish.take n = twoFinish.take (min n 7) := List.take_eq_take_min.trans rfl
    have second := plain (min n 7) (List.mem_range.mpr (by omega))
    rw [← short, ran', Option.all_some, List.all_eq_true] at second
    intro test member
    refine ⟨1, beq_iff_eq.mp (second test member), ?_⟩
    rw [Config.testTime, reachable_clock reached, reads]
    decide
  · have ran : (runLabels Config.step (fun _ _ => true) (Config.initial (fun n => n) true)
        (twoTasklets.take 4)).map (fun k => (k.control, k.running,
          k.goesOn k.state.currentTasklet false,
          (runLabels (TimedRun.step (k.state.clock k.state.clockReads))
            (fun w label => w.config.quiet label) (TimedRun.begin k 0)
            [some .finish, none, none, none]).map fun w => w.config.stack mainTasklet)) =
        some (.python, mainTasklet, true, some []) := by
      decide +kernel
    have plain : (runLabels Config.step (fun _ _ => true) (Config.initial (fun n => n) true)
        (twoTasklets.take 4)).all (fun k => (List.range 5).all fun n =>
          (runLabels PlainRun.step (fun _ _ => true) (PlainRun.begin k)
            ([some .finish, none, none, none].take n)).all fun u => u.switches.tail == []) = true := by
      decide +kernel
    obtain ⟨k₀, done₀, facts⟩ := Option.map_eq_some_iff.mp ran
    simp only [Prod.mk.injEq] at facts
    obtain ⟨python, main, goes, rest⟩ := facts
    obtain ⟨w, done, ends⟩ := Option.map_eq_some_iff.mp rest
    have reached : Reachable Config.step (fun _ _ => True) (Config.initial (fun n => n) true) k₀ :=
      (Reachable.of_runLabels .refl done₀).mono fun _ _ _ => trivial
    refine ⟨w, ends, (((timeLimit_exact reached python main done).1 ?_).2
      Nat.mono_cast (le_refl 0)).2 goes⟩
    intro n u ran' test member
    rw [done₀, Option.all_some, List.all_eq_true] at plain
    have short : [some .finish, none, none, none].take n =
        ([some .finish, none, none, none] : List (Option (Action Unit))).take (min n 4) :=
      List.take_eq_take_min.trans rfl
    have first := plain (min n 4) (List.mem_range.mpr (by omega))
    rw [← short, ran', Option.all_some, beq_iff_eq] at first
    rw [first] at member
    cases member

/-- With two tasklets, a run without time switches to both of them. -/
theorem timeLimit_overrun :
    ¬ ∀ (k₀ : Config Unit) (w : TimedRun Unit),
      Reachable Config.step (fun _ _ => True) (Config.initial (fun _ => 0) true) k₀ →
      k₀.control = .python → k₀.running = mainTasklet →
      Reachable (TimedRun.step (k₀.state.clock k₀.state.clockReads)) (fun _ _ => True)
        (TimedRun.begin k₀ 0) w → KeepsTime 0 w.switches := by
  intro keeps
  have ran : (runLabels Config.step (fun _ _ => true) (Config.initial (fun _ => 0) true)
      twoTasklets).map (fun k => (k.control, k.running,
        (runLabels (TimedRun.step (k.state.clock k.state.clockReads)) (fun _ _ => true)
          (TimedRun.begin k 0) [some .finish, none, none]).map TimedRun.switches)) =
      some (.python, mainTasklet, some [some 0, some 0]) := by
    decide +kernel
  obtain ⟨k₀, done₀, facts⟩ := Option.map_eq_some_iff.mp ran
  simp only [Prod.mk.injEq] at facts
  obtain ⟨python, main, rest⟩ := facts
  obtain ⟨w, done, switches⟩ := Option.map_eq_some_iff.mp rest
  have kept := keeps k₀ w ((Reachable.of_runLabels .refl done₀).mono fun _ _ _ => trivial) python main
    ((Reachable.of_runLabels .refl done).mono fun _ _ _ => trivial)
  obtain ⟨time, is, short⟩ := kept (some 0) (by simp [switches])
  cases is
  exact absurd short (by decide)

end CarbonLab.Scheduler
