import CarbonLab.Scheduler.LimitsSteps
import CarbonLab.Scheduler.MainLoop

/-!
# A limited run beside an unlimited one

A limited run of main and the run without a limit in which the tasklets do the same take
the same steps, until the stop flag of the limited run ends its loop.
-/

namespace CarbonLab.Scheduler

variable {ν : Type}

/-! ## Main with other limits -/

theorem State.withLimits_self (s : State ν) : s.withLimits s.runLimits = s :=
  rfl

namespace Config

variable {k : Config ν} (limits : RunLimits) (frames : List Frame)

theorem withMain_self (k : Config ν) : k.withMain k.state.runLimits (k.stack mainTasklet) = k := by
  simp only [withMain, Function.update_eq_self]
  rfl

theorem withMain_stack_main (k : Config ν) :
    (k.withMain limits frames).stack mainTasklet = frames := by
  rw [withMain_stack, Function.update_self]

/-- A call that comes out the same with every stack of main and all limits leaves both as
they are. -/
theorem kept_of_withMain {k' : Config ν}
    (same : k' = k'.withMain k.state.runLimits (k.stack mainTasklet)) :
    k'.state.runLimits = k.state.runLimits ∧ k'.stack mainTasklet = k.stack mainTasklet := by
  refine ⟨?_, ?_⟩
  · rw [same]
    rfl
  · rw [same, withMain_stack, Function.update_self]

theorem push_withMain_main (main : k.running = mainTasklet) (frame : Frame) :
    (k.withMain limits frames).push frame =
      (k.push frame).withMain limits (frame :: frames) := by
  simp only [push, withMain, main, Function.update_self, Function.update_idem]

/-- What main's stack was does not matter. -/
theorem withMain_push_main (main : k.running = mainTasklet) (frame : Frame) :
    (k.push frame).withMain limits frames = k.withMain limits frames := by
  have finished : Function.update (Function.update k.stack k.running (frame :: k.stack k.running))
      mainTasklet frames = Function.update k.stack mainTasklet frames := by
    rw [main, Function.update_idem]
  simp only [withMain, push, finished]

theorem pop_withMain_main (main : k.running = mainTasklet) :
    (k.withMain limits frames).pop = k.pop.withMain limits frames.tail := by
  simp only [pop, withMain, main, Function.update_self, Function.update_idem]

theorem beginSwitch_withMain_main (main : k.running = mainTasklet) (t : TaskletId) :
    (k.withMain limits frames).beginSwitch t =
      (k.beginSwitch t).withMain limits (.switchTo t :: frames) := by
  generalize before : ((k.withState (k.state.setCurrentTasklet t)).modifyTasklet t
    (.setPaused false)).modifyTasklet t (.setFirstRun false) = k'
  have main' : k'.running = mainTasklet := before ▸ main
  have pushed := push_withMain_main limits frames main' (.switchTo t)
  rw [← before] at pushed
  exact pushed

/-- `SwitchTo` from main suspends main in it or not, whatever main's limits and calls are. -/
theorem switchTo_main (main : k.running = mainTasklet) (t : TaskletId) :
    ∃ suspended : List Frame, (suspended = [] ∨ suspended = [.switchTo t]) ∧
      (k.switchTo t).stack mainTasklet = suspended ++ k.stack mainTasklet ∧
      (k.switchTo t).state.runLimits = k.state.runLimits ∧
      ∀ limits frames, (k.withMain limits frames).switchTo t =
        (k.switchTo t).withMain limits (suspended ++ frames) := by
  unfold switchTo
  simp only [withMain_state, State.withLimits_tasklets, State.withLimits_switchTrapLevel]
  split
  · exact ⟨[], .inl rfl, rfl, rfl, fun _ _ => rfl⟩
  split
  · exact ⟨[], .inl rfl, rfl, rfl, fun _ _ => rfl⟩
  split
  · exact ⟨[], .inl rfl, rfl, rfl, fun _ _ => rfl⟩
  split
  · exact ⟨[], .inl rfl, rfl, rfl, fun _ _ => rfl⟩
  split
  · exact ⟨[], .inl rfl, rfl, rfl, fun _ _ => rfl⟩
  · exact ⟨[], .inl rfl, rfl, rfl, fun _ _ => rfl⟩
  · have begun : (k.beginSwitch t).stack mainTasklet = .switchTo t :: k.stack mainTasklet := by
      simp [beginSwitch, main]
    have kept := enterGreenlet_withMain (k.beginSwitch t).state.runLimits
      ((k.beginSwitch t).stack mainTasklet) (k.beginSwitch t) none (k.state.taskletCount + 1) t
    rw [withMain_self] at kept
    obtain ⟨limited, stack⟩ := kept_of_withMain kept
    refine ⟨[.switchTo t], .inr rfl, stack.trans begun, limited, fun limits frames => ?_⟩
    rw [beginSwitch_withMain_main limits frames main, enterGreenlet_withMain]
    rfl

end Config

/-! ## The limit test -/

theorem State.setParent_runLimits {s s' : State ν} {t : TaskletId} {parent : Option TaskletId}
    (done : s.setParent t parent = .ok s') : s'.runLimits = s.runLimits := by
  have same := State.setParent_withLimits s s.runLimits t parent
  rw [State.withLimits_self, done, Except.map, Except.ok.injEq] at same
  rw [same]
  rfl

/-- A loop that does not get to a limit test leaves the limits as they are, and one that does
leaves what the test made of them. -/
theorem Config.runLoop_runLimits {k : Config ν} (main : k.running = mainTasklet)
    (started : k.state.MainStarted) (base : TaskletId) (endTasklet : Option TaskletId)
    (unblocked complete : Bool) :
    (k.reaches base complete = false ∧
      (k.runLoop base endTasklet unblocked complete).state.runLimits = k.state.runLimits ∧
      (k.runLoop base endTasklet unblocked complete).stack = k.stack) ∨
    (k.reaches base complete = true ∧ ∃ s : State ν, s.MainStarted ∧ s.clock = k.state.clock ∧
      s.runLimits = k.state.runLimits ∧ s.currentTasklet = k.state.currentTasklet ∧
      (k.runLoop base endTasklet unblocked complete).state.runLimits =
        s.testRunLimits.runLimits) := by
  cases reached : k.reaches base complete with
  | false =>
      obtain ⟨same, stack⟩ := Config.runLoop_of_ends reached endTasklet unblocked
      exact .inl ⟨rfl, congrArg State.runLimits same, stack⟩
  | true =>
      obtain ⟨t, s, -, done, looped⟩ := Config.runLoop_of_reaches reached endTasklet unblocked
      have ages := State.setParent_ages done
      obtain ⟨-, -, -, limits, -⟩ := Config.switchTo_main
        (k := (k.withState s.testRunLimits).push (.run base endTasklet unblocked t)) main t
      exact .inr ⟨rfl, s, ages.main started, ages.clock, State.setParent_runLimits done,
        State.setParent_current done, looped ▸ limits⟩

/-! ## Two runs in step -/

/-- The calls of an unlimited run of main. -/
inductive PlainStack : List Frame → Prop
  | ended : PlainStack []
  | looping {base : TaskletId} {endTasklet : Option TaskletId} {unblocked : Bool} {t : TaskletId} :
      PlainStack [.run base endTasklet unblocked t]
  | switched {base : TaskletId} {endTasklet : Option TaskletId} {unblocked : Bool} {t t' : TaskletId} :
      PlainStack [.switchTo t', .run base endTasklet unblocked t]

/-- A configuration of a limited run that is in step with the unlimited one: with other
limits and without the call that takes the limits back, it is a configuration of the latter. -/
structure Lockstep (timed : Bool) (limits : RunLimits) (frames : List Frame) (k : Config ν) :
    Prop where
  rests : MainRests k
  shape : PlainStack frames
  stack : k.stack mainTasklet = frames ++ [.runLimited timed]
  stops : limits.stopScheduler = true → k.state.stopScheduler = true
  main : frames = [] → k.running = mainTasklet

/-- The stop flag ends the loop of the limited run, and not that of the unlimited one. -/
def Config.StopsLoop (k : Config ν) (limits : RunLimits) : Prop :=
  k.state.stopScheduler = true ∧ k.state.currentTasklet = mainTasklet ∧
    limits.stopScheduler = false

/-- The limited run left its loop. -/
structure LeftLoop (timed : Bool) (k : Config ν) : Prop where
  rests : MainRests k
  main : k.running = mainTasklet
  stack : k.stack mainTasklet = [.runLimited timed]

section MainLoop

variable {timed : Bool} {limits : RunLimits} {k : Config ν}

/-- The loops of both runs look at their stop flags alike. -/
theorem Config.stops_withMain
    (stops : limits.stopScheduler = true → k.state.stopScheduler = true)
    (goes : ¬ k.StopsLoop limits) : (limits.stopScheduler && k.state.currentTasklet == mainTasklet) =
      (k.state.stopScheduler && k.state.currentTasklet == mainTasklet) := by
  cases unlimited : limits.stopScheduler with
  | true => rw [stops unlimited]
  | false =>
      cases limited : k.state.stopScheduler && k.state.currentTasklet == mainTasklet with
      | true =>
          rw [Bool.and_eq_true, beq_iff_eq] at limited
          exact absurd ⟨limited.1, limited.2, unlimited⟩ goes
      | false => rfl

theorem Config.reaches_withMain (frames : List Frame)
    (stops : limits.stopScheduler = true → k.state.stopScheduler = true)
    (goes : ¬ k.StopsLoop limits) (base : TaskletId) (complete : Bool) :
    (k.withMain limits frames).reaches base complete = k.reaches base complete := by
  have stop := Config.stops_withMain stops goes
  unfold Config.reaches
  simp only [Config.withMain_state, State.withLimits_tasklets, State.withLimits_currentTasklet,
    State.withLimits_stopScheduler, stop, State.setParent_withLimits]
  cases (k.state.tasklets base).next with
  | none => rfl
  | some t =>
      dsimp only
      cases k.state.setParent t k.state.currentTasklet <;> rfl

/-- A limit test does not clear the stop flag. -/
theorem State.testRunLimits_stops {s : State ν} (stopped : s.stopScheduler = true) :
    s.testRunLimits.stopScheduler = true := by
  unfold State.testRunLimits
  split
  · split
    · dsimp only
      repeat' split
      all_goals first | rfl | exact stopped
    · dsimp only
      repeat' split
      all_goals first | rfl | exact stopped
    · exact stopped
  · exact stopped

/-- A limit test changes only the limits. -/
theorem State.testRunLimits_withLimits_self (s : State ν) (limits : RunLimits) :
    s.testRunLimits.withLimits limits = s.withLimits limits := by
  unfold State.testRunLimits
  dsimp only
  repeat' split
  all_goals rfl

theorem State.testRunLimits_tasklets (s : State ν) : s.testRunLimits.tasklets = s.tasklets := by
  have same := congrArg State.tasklets (State.testRunLimits_withLimits_self s s.runLimits)
  exact same

/-- The loop of main comes out the same in both runs, or the stop flag ends it in one. -/
theorem Config.runLoop_lockstep (main : k.running = mainTasklet) (started : k.state.MainStarted)
    (stack : k.stack mainTasklet = [.runLimited timed]) (standard : limits.runType = .standard)
    (stops : limits.stopScheduler = true → k.state.stopScheduler = true) (base : TaskletId)
    (endTasklet : Option TaskletId) (unblocked complete : Bool) :
    (∃ frames, Lockstep timed limits frames (k.runLoop base endTasklet unblocked complete) ∧
      (k.withMain limits []).runLoop base endTasklet unblocked complete =
        (k.runLoop base endTasklet unblocked complete).withMain limits frames ∧
      (k.withMain limits []).reaches base complete = k.reaches base complete) ∨
    (k.StopsLoop limits ∧ LeftLoop timed (k.runLoop base endTasklet unblocked complete)) := by
  have leaves := (Within.refl k).runLoop base endTasklet unblocked complete
  have rests : MainRests (k.runLoop base endTasklet unblocked complete) :=
    ⟨leaves.ages.main started, fun main' python => absurd python (leaves.python started main')⟩
  generalize is : k.runLoop base endTasklet unblocked complete = k' at rests
  generalize beside : (k.withMain limits []).runLoop base endTasklet unblocked complete = u'
  have ended (same : k'.stack = k.stack ∧ k'.running = k.running) (limited : k'.state = k.state)
      (alike : u' = k'.withMain limits [])
      (reaches : (k.withMain limits []).reaches base complete = k.reaches base complete) :
      ∃ frames, Lockstep timed limits frames k' ∧ u' = k'.withMain limits frames ∧
        (k.withMain limits []).reaches base complete = k.reaches base complete := by
    refine ⟨[], ⟨rests, .ended, (congrFun same.1 mainTasklet).trans stack, ?_, ?_⟩, alike, reaches⟩
    · rw [limited]
      exact stops
    · exact fun _ => same.2.trans main
  unfold Config.runLoop at is beside
  simp only [Config.withMain_state, State.withLimits_tasklets, State.withLimits_currentTasklet,
    State.withLimits_stopScheduler, State.setParent_withLimits] at beside
  cases next : (k.state.tasklets base).next with
  | none =>
      simp only [next] at is beside
      subst is beside
      refine .inl (ended ⟨rfl, rfl⟩ rfl rfl ?_)
      simp [Config.reaches, next]
  | some t =>
      cases complete with
      | true =>
          simp only [next] at is beside
          subst is beside
          refine .inl (ended ⟨rfl, rfl⟩ rfl rfl ?_)
          simp [Config.reaches, next]
      | false =>
          simp only [next] at is beside
          by_cases stopped : k.StopsLoop limits
          · -- the flag ends one of the loops
            obtain ⟨stop, current, -⟩ := id stopped
            rw [stop, current, beq_self_eq_true, Bool.and_self, if_pos rfl] at is
            subst is
            exact .inr ⟨stopped, rests, main, stack⟩
          · have reaches := Config.reaches_withMain [] stops stopped base false
            rw [Config.stops_withMain stops stopped] at beside
            by_cases stop : (k.state.stopScheduler && k.state.currentTasklet == mainTasklet) = true
            · rw [if_pos stop] at is beside
              subst is beside
              exact .inl (ended ⟨rfl, rfl⟩ rfl rfl reaches)
            rw [if_neg stop] at is beside
            by_cases same : k.state.currentTasklet = t
            · rw [if_pos same] at is beside
              subst is beside
              exact .inl (ended ⟨rfl, rfl⟩ rfl rfl reaches)
            rw [if_neg same] at is beside
            cases done : k.state.setParent t k.state.currentTasklet with
            | error error =>
                rw [done] at is beside
                subst is beside
                exact .inl (ended ⟨rfl, rfl⟩ rfl rfl reaches)
            | ok s =>
                simp only [done, Except.map] at is beside
                have pushed : ((k.withMain limits []).withState (s.withLimits limits).testRunLimits).push
                    (.run base endTasklet unblocked t) = ((k.withState s.testRunLimits).push
                      (.run base endTasklet unblocked t)).withMain limits
                        [.run base endTasklet unblocked t] := by
                  rw [State.testRunLimits_standard (s := s.withLimits limits) standard,
                    ← State.testRunLimits_withLimits_self s limits]
                  exact Config.push_withMain_main (k := k.withState s.testRunLimits) limits [] main _
                obtain ⟨suspended, shape, grown, limited, alike⟩ := Config.switchTo_main
                  (k := (k.withState s.testRunLimits).push (.run base endTasklet unblocked t)) main t
                rw [pushed, alike, is] at beside
                rw [is, Config.push_stack, Config.withState_running, main, Function.update_self,
                  Config.withState_stack, stack] at grown
                refine .inl ⟨suspended ++ [.run base endTasklet unblocked t], ⟨rests, ?_, ?_, ?_, ?_⟩,
                  beside.symm, reaches⟩
                · rcases shape with rfl | rfl
                  · exact .looping
                  · exact .switched
                · rw [grown, List.append_assoc]
                  rfl
                · intro stop
                  have kept : k'.state.stopScheduler = s.testRunLimits.stopScheduler := by
                    rw [← is]
                    exact congrArg (fun limits => limits.stopScheduler) limited
                  have before : s.stopScheduler = k.state.stopScheduler :=
                    congrArg (fun limits => limits.stopScheduler) (State.setParent_runLimits done)
                  rw [kept]
                  exact State.testRunLimits_stops (before.trans (stops stop))
                · exact fun empty => absurd empty (by simp)

end MainLoop

/-! ## Steps of main -/

namespace Config

theorem loopAfter?_withMain (limits : RunLimits) (frames : List Frame) (k : Config ν)
    (base : TaskletId) (endTasklet : Option TaskletId) (unblocked : Bool) (t : TaskletId) (ok : Bool) :
    (k.withMain limits frames).loopAfter? base endTasklet unblocked t ok =
      (k.loopAfter? base endTasklet unblocked t ok).map fun loop =>
        (loop.1.withMain limits frames, loop.2) := by
  have exits : (k.withMain limits frames).exitRaised = k.exitRaised := rfl
  unfold loopAfter?
  rw [exits, catchExit_withMain]
  split
  · dsimp only
    rw [withMain_state, State.runPostSwitch_withLimits]
    cases (k.catchExit t).state.runPostSwitch t with
    | none => rfl
    | some s =>
        have same : (if (s.tasklets t).alive then s.withLimits limits
              else (s.withLimits limits).clearParent t) =
            (if (s.tasklets t).alive then s else s.clearParent t).withLimits limits := by
          rw [State.clearParent_withLimits]
          split <;> rfl
        simp only [Option.map_some, State.withLimits_tasklets, same]
        rfl
  · rfl

variable {k : Config ν} {base t : TaskletId} {endTasklet : Option TaskletId} {unblocked ok : Bool}

/-- Main's loop has the limits and the calls that main had. -/
theorem loopAfter?_kept {loop : Config ν × TaskletId × Bool}
    (found : k.loopAfter? base endTasklet unblocked t ok = some loop) :
    loop.1.state.runLimits = k.state.runLimits ∧ loop.1.stack mainTasklet = k.stack mainTasklet := by
  have same := loopAfter?_withMain k.state.runLimits (k.stack mainTasklet) k base endTasklet
    unblocked t ok
  rw [withMain_self, found, Option.map_some, Option.some.injEq] at same
  exact kept_of_withMain (congrArg Prod.fst same)

theorem loopAfter?_within {loop : Config ν × TaskletId × Bool}
    (found : k.loopAfter? base endTasklet unblocked t ok = some loop) : Within k loop.1 := by
  unfold loopAfter? at found
  split at found
  · obtain ⟨s, done, rfl⟩ := Option.map_eq_some_iff.mp found
    have ages := State.runPostSwitch_ages done
    refine ((Within.refl k).catchExit t).withState (ages.trans ?_)
    split
    · exact .refl s
    · exact State.clearParent_ages s t
  · cases found

/-- Where the loop of `Run` goes on after a switch, it begins its next iteration. -/
theorem runSwitched_of_loopAfter? {loop : Config ν × TaskletId × Bool}
    (found : k.loopAfter? base endTasklet unblocked t ok = some loop) :
    k.runSwitched base endTasklet unblocked t ok =
      loop.1.runLoop loop.2.1 endTasklet unblocked loop.2.2 := by
  unfold loopAfter? at found
  unfold runSwitched
  split at found
  · next passes =>
    rw [if_pos passes]
    obtain ⟨s, done, rfl⟩ := Option.map_eq_some_iff.mp found
    rw [runGoesOn, done]
  · cases found

theorem runFailed_running (k : Config ν) (t : TaskletId) :
    (k.runFailed t).running = k.running := by
  unfold runFailed
  repeat' split
  all_goals rfl

/-- Where it does not go on, its call is over with and without limits. -/
theorem runSwitched_of_none (found : k.loopAfter? base endTasklet unblocked t ok = none) :
    (k.runSwitched base endTasklet unblocked t ok).state.runLimits = k.state.runLimits ∧
      (k.runSwitched base endTasklet unblocked t ok).stack mainTasklet = k.stack mainTasklet ∧
      (k.runSwitched base endTasklet unblocked t ok).running = k.running ∧
      ∀ limits frames, (k.withMain limits frames).runSwitched base endTasklet unblocked t ok =
        (k.runSwitched base endTasklet unblocked t ok).withMain limits frames := by
  have alike (limits : RunLimits) (frames : List Frame) :
      (k.withMain limits frames).runSwitched base endTasklet unblocked t ok =
        (k.runSwitched base endTasklet unblocked t ok).withMain limits frames := by
    have exits : (k.withMain limits frames).exitRaised = k.exitRaised := rfl
    unfold loopAfter? at found
    unfold runSwitched
    rw [exits]
    split at found
    · next passes =>
      rw [if_pos passes, if_pos passes, catchExit_withMain]
      simp only [runGoesOn, withMain_state, State.runPostSwitch_withLimits,
        Option.map_eq_none_iff.mp found]
      rfl
    · next fails =>
      rw [if_neg fails, if_neg fails, runFailed_withMain]
  have same := alike k.state.runLimits (k.stack mainTasklet)
  rw [withMain_self] at same
  obtain ⟨limited, stack⟩ := kept_of_withMain same
  refine ⟨limited, stack, ?_, alike⟩
  unfold loopAfter? at found
  unfold runSwitched
  split at found
  · next passes =>
    rw [if_pos passes, runGoesOn, Option.map_eq_none_iff.mp found]
    exact ((Within.refl k).catchExit t).running
  · next fails =>
    rw [if_neg fails]
    exact runFailed_running k t

/-- Main returns from the frame on top of its stack. -/
theorem step_main {k' : Config ν} {label : Option (Action ν)} {frame : Frame}
    {rest : List Frame} (main : k.running = mainTasklet) (waits : k.control ≠ .python)
    (stack : k.stack mainTasklet = frame :: rest) (taken : k.step label = some k') :
    ∃ ok, label = none ∧ k.control = .returning ok ∧ k' = k.pop.resumeFrame frame ok ∧
      k.pop.stack mainTasklet = rest ∧
      ∀ limits frames, (k.withMain limits (frame :: frames)).step none =
        some ((k.pop.withMain limits frames).resumeFrame frame ok) := by
  cases label with
  | some action =>
      rw [step, stepWith, if_neg fun both => waits both.1] at taken
      cases taken
  | none =>
      simp only [step, stepWith] at taken
      split at taken
      · next ok returning =>
        cases taken
        refine ⟨ok, rfl, returning, ?_, ?_, fun limits frames => ?_⟩
        · rw [resume, main, stack]
        · rw [pop_stack, main, Function.update_self, stack]
          rfl
        · have popped := pop_withMain_main limits (frame :: frames) main
          simp only [step, stepWith, withMain_control, returning, resume,
            withMain_running, main, withMain_stack_main, popped, List.tail_cons]
      · cases taken

/-- Main makes a limit test in this step. -/
def makesTest (k : Config ν) : Bool :=
  k.mainLoop?.any fun loop => loop.1.reaches loop.2.1 loop.2.2 &&
    loop.1.state.currentTasklet == mainTasklet

theorem makesTest_of_run {rest : List Frame} (main : k.running = mainTasklet)
    (returning : k.control = .returning ok)
    (stack : k.stack mainTasklet = .run base endTasklet unblocked t :: rest) :
    k.makesTest = (k.pop.loopAfter? base endTasklet unblocked t ok).any fun loop =>
      loop.1.reaches loop.2.1 loop.2.2 && loop.1.state.currentTasklet == mainTasklet := by
  rw [makesTest, mainLoop?, returning, stack]
  dsimp only
  rw [if_pos main]

theorem makesTest_of_switchTo {rest : List Frame} (returning : k.control = .returning ok)
    (stack : k.stack mainTasklet = .switchTo t :: rest) : k.makesTest = false := by
  rw [makesTest, mainLoop?, returning, stack]
  rfl

theorem makesTest_of_other (other : k.running ≠ mainTasklet) : k.makesTest = false := by
  rw [makesTest, mainLoop?_of_other other]
  rfl

/-- Another tasklet does not begin or end a limited run in this step, or enter a run loop with
main current. -/
def quiet (k : Config ν) (label : Option (Action ν)) : Bool :=
  k.running = mainTasklet || !k.setsLimits label && k.loopTasklet label != some mainTasklet

/-- The limits after a step: main's limit test changed them if it was made. -/
def Tests (k k' : Config ν) (tested : Bool) : Prop :=
  if tested then
    ∃ s : State ν, (s.tasklets s.currentTasklet).isMain = true ∧ s.clock = k.state.clock ∧
      s.runLimits = k.state.runLimits ∧ k'.state.runLimits = s.testRunLimits.runLimits
  else k'.state.runLimits = k.state.runLimits

theorem Tests.of_runLoop (main : k.running = mainTasklet) (started : k.state.MainStarted)
    (base : TaskletId) (endTasklet : Option TaskletId) (unblocked complete : Bool) :
    Tests k (k.runLoop base endTasklet unblocked complete)
      (k.reaches base complete && k.state.currentTasklet == mainTasklet) := by
  rcases runLoop_runLimits main started base endTasklet unblocked complete with
    ⟨ends, limited, -⟩ | ⟨goes, s, started', clock, same, current, limited⟩
  · rw [ends]
    exact limited
  · rw [goes, Bool.true_and, Tests, ← current]
    cases onMain : s.currentTasklet == mainTasklet with
    | true => exact ⟨s, (started'.isMain _).mpr (beq_iff_eq.mp onMain), clock, same, limited⟩
    | false =>
        have untested : s.testRunLimits = s :=
          if_neg fun is => ne_of_beq_false onMain ((started'.isMain _).mp is)
        rw [untested] at limited
        exact limited.trans same

theorem Tests.of_same {k₁ k' : Config ν} {tested : Bool} (tests : Tests k₁ k' tested)
    (clock : k₁.state.clock = k.state.clock) (limited : k₁.state.runLimits = k.state.runLimits) :
    Tests k k' tested := by
  cases tested with
  | false => exact (show k'.state.runLimits = k₁.state.runLimits from tests).trans limited
  | true =>
      obtain ⟨s, main, same, before, after⟩ := tests
      exact ⟨s, main, same.trans clock, before.trans limited, after⟩

end Config

section Steps

variable {timed : Bool} {limits : RunLimits} {frames : List Frame} {k k' : Config ν}
  {label : Option (Action ν)}

/-- Main waits for the return of a call as long as the unlimited run is not over. -/
theorem Lockstep.waits (lock : Lockstep timed limits frames k) (main : k.running = mainTasklet) :
    k.control ≠ .python := by
  intro python
  have empty := lock.rests.rests main python
  rw [lock.stack] at empty
  exact List.append_ne_nil_of_right_ne_nil _ (List.cons_ne_nil _ _) empty

/-- A step of a limited run makes main's limit test or leaves the limits. -/
theorem Lockstep.step_tests (lock : Lockstep timed limits frames k) (going : frames ≠ [])
    (quiet : k.quiet label = true) (taken : k.step label = some k') :
    Config.Tests k k' k.makesTest := by
  by_cases main : k.running = mainTasklet
  · have waits := lock.waits main
    have stack := lock.stack
    cases lock.shape with
    | ended => exact absurd rfl going
    | @looping base endTasklet unblocked t =>
        obtain ⟨ok, rfl, returning, rfl, -, -⟩ := Config.step_main main waits stack taken
        rw [Config.makesTest_of_run main returning stack, Config.resumeFrame]
        cases found : k.pop.loopAfter? base endTasklet unblocked t ok with
        | none => exact (Config.runSwitched_of_none found).1
        | some loop =>
            have within := Config.loopAfter?_within found
            rw [Config.runSwitched_of_loopAfter? found]
            exact (Config.Tests.of_runLoop (within.running.trans main)
              (within.ages.main lock.rests.main) _ _ _ _).of_same within.ages.clock
                (Config.loopAfter?_kept found).1
    | @switched base endTasklet unblocked t t' =>
        obtain ⟨ok, rfl, returning, rfl, -, -⟩ := Config.step_main main waits stack taken
        rw [Config.makesTest_of_switchTo returning stack]
        have back := Config.switchedBack_withMain k.pop.state.runLimits (k.pop.stack mainTasklet)
          k.pop t' ok
        rw [Config.withMain_self] at back
        exact (Config.kept_of_withMain back).1
  · rw [Config.quiet, decide_eq_false main, Bool.false_or, Bool.and_eq_true, Bool.not_eq_true',
      bne_iff_ne] at quiet
    have kept := Config.step_withMain k.state.runLimits (k.stack mainTasklet) main lock.rests.main
      quiet.1 quiet.2
    rw [Config.withMain_self, taken, Option.map_some, Option.some.injEq] at kept
    rw [Config.makesTest_of_other main]
    exact (Config.kept_of_withMain kept).1

/-- A configuration with main's loop in step: it goes on in both runs, or the stop flag ends it
in one. -/
theorem Lockstep.of_loop {loop : Config ν × TaskletId × Bool} {base t : TaskletId}
    {endTasklet : Option TaskletId} {unblocked ok : Bool} (main : k.running = mainTasklet)
    (started : k.state.MainStarted) (stack : k.stack mainTasklet = [.runLimited timed])
    (standard : limits.runType = .standard)
    (stops : limits.stopScheduler = true → k.state.stopScheduler = true)
    (found : k.loopAfter? base endTasklet unblocked t ok = some loop) :
    (∃ frames, Lockstep timed limits frames (k.runSwitched base endTasklet unblocked t ok) ∧
      (k.withMain limits []).runSwitched base endTasklet unblocked t ok =
        (k.runSwitched base endTasklet unblocked t ok).withMain limits frames ∧
      (loop.1.withMain limits []).reaches loop.2.1 loop.2.2 = loop.1.reaches loop.2.1 loop.2.2) ∨
    LeftLoop timed (k.runSwitched base endTasklet unblocked t ok) := by
  have within := Config.loopAfter?_within found
  obtain ⟨limited, kept⟩ := Config.loopAfter?_kept found
  have stop : loop.1.state.stopScheduler = k.state.stopScheduler :=
    congrArg (fun limits => limits.stopScheduler) limited
  have stops' : limits.stopScheduler = true → loop.1.state.stopScheduler = true :=
    fun unlimited => stop.trans (stops unlimited)
  have beside := Config.loopAfter?_withMain limits [] k base endTasklet unblocked t ok
  rw [found, Option.map_some] at beside
  rw [Config.runSwitched_of_loopAfter? found, Config.runSwitched_of_loopAfter? beside]
  rcases Config.runLoop_lockstep (within.running.trans main) (within.ages.main started)
    (kept.trans stack) standard stops' loop.2.1 endTasklet unblocked loop.2.2 with
    lock | ⟨-, left⟩
  · exact .inl lock
  · exact .inr left

theorem Lockstep.step (lock : Lockstep timed limits frames k) (going : frames ≠ [])
    (standard : limits.runType = .standard) (quiet : k.quiet label = true)
    (taken : k.step label = some k') :
    (∃ frames', Lockstep timed limits frames' k' ∧
      (k.withMain limits frames).step label = some (k'.withMain limits frames') ∧
      (k.withMain limits frames).makesTest = k.makesTest) ∨
    (k.running = mainTasklet ∧ LeftLoop timed k') := by
  by_cases main : k.running = mainTasklet
  · have waits := lock.waits main
    have stack := lock.stack
    have rests := lock.rests.step taken
    cases lock.shape with
    | ended => exact absurd rfl going
    | @looping base endTasklet unblocked t =>
        obtain ⟨ok, rfl, returning, rfl, popped, beside⟩ :=
          Config.step_main main waits stack taken
        have plain := beside limits []
        rw [Config.makesTest_of_run main returning stack, Config.makesTest_of_run
          (k := k.withMain limits _) main returning (Config.withMain_stack_main limits _ k),
          Config.pop_withMain_main limits _ main, List.tail_cons, Config.loopAfter?_withMain,
          Option.any_map]
        rw [Config.resumeFrame] at plain rests ⊢
        cases found : k.pop.loopAfter? base endTasklet unblocked t ok with
        | none =>
            obtain ⟨limited, kept, running, alike⟩ := Config.runSwitched_of_none found
            refine .inl ⟨[], ⟨rests, .ended, kept.trans popped, fun unlimited => ?_,
              fun _ => running.trans main⟩, ?_, rfl⟩
            · exact (congrArg (fun limits => limits.stopScheduler) limited).trans
                (lock.stops unlimited)
            · exact plain.trans (congrArg some (alike limits []))
        | some loop =>
            rcases Lockstep.of_loop (k := k.pop) main lock.rests.main popped standard lock.stops
              found with ⟨frames', lock', alike, reaches⟩ | left
            · refine .inl ⟨frames', lock', plain.trans (congrArg some alike), ?_⟩
              rw [Option.any_some, Option.any_some]
              exact congrArg (fun reached => reached && loop.1.state.currentTasklet == mainTasklet)
                reaches
            · exact .inr ⟨main, left⟩
    | @switched base endTasklet unblocked t t' =>
        obtain ⟨ok, rfl, returning, rfl, popped, beside⟩ :=
          Config.step_main main waits stack taken
        have back := Config.switchedBack_withMain k.pop.state.runLimits (k.pop.stack mainTasklet)
          k.pop t' ok
        rw [Config.withMain_self] at back
        obtain ⟨limited, kept⟩ := Config.kept_of_withMain back
        refine .inl ⟨[.run base endTasklet unblocked t], ⟨rests, .looping, kept.trans popped,
          fun unlimited => ?_, fun empty => absurd empty (List.cons_ne_nil _ _)⟩, ?_, ?_⟩
        · exact (congrArg (fun limits => limits.stopScheduler) limited).trans
            (lock.stops unlimited)
        · refine (beside limits _).trans (congrArg some ?_)
          exact Config.switchedBack_withMain limits _ k.pop t' ok
        · rw [Config.makesTest_of_switchTo returning stack, Config.makesTest_of_switchTo
            (k := k.withMain limits _) returning (Config.withMain_stack_main limits _ k)]
  · rw [Config.quiet, decide_eq_false main, Bool.false_or, Bool.and_eq_true, Bool.not_eq_true',
      bne_iff_ne] at quiet
    have beside := Config.step_withMain limits frames main lock.rests.main quiet.1 quiet.2
    have same := Config.step_withMain k.state.runLimits (k.stack mainTasklet) main lock.rests.main
      quiet.1 quiet.2
    rw [Config.withMain_self, taken, Option.map_some, Option.some.injEq] at same
    obtain ⟨limited, kept⟩ := Config.kept_of_withMain same
    refine .inl ⟨frames, ⟨lock.rests.step taken, lock.shape, kept.trans lock.stack,
      fun unlimited => ?_, fun empty => absurd empty going⟩, ?_, ?_⟩
    · exact (congrArg (fun limits => limits.stopScheduler) limited).trans (lock.stops unlimited)
    · rw [beside, taken, Option.map_some]
    · rw [Config.makesTest_of_other main,
        Config.makesTest_of_other (k := k.withMain limits frames) main]

end Steps

end CarbonLab.Scheduler
