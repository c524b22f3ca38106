import CarbonLab.Scheduler.BesideSteps

/-!
# The loop of main

While main runs tasklets, it does nothing but its run loop.  When it gets control back, the
loop goes on to one more limit test and switch, or it ends.
-/

namespace CarbonLab.Scheduler

variable {ν : Type}

/-- `SwitchTo` has nothing against a tasklet. -/
def State.maySwitchTo (s : State ν) (t : TaskletId) : Bool :=
  let tasklet := s.tasklets t
  tasklet.arguments ≠ some false && tasklet.kwArguments ≠ some false &&
    !(tasklet.firstRun && t != mainTasklet &&
      !(tasklet.kwArguments.isSome || tasklet.arguments.isSome)) &&
    s.switchTrapLevel = 0 && !(tasklet.firstRun && tasklet.exceptionState.isSome)

namespace Config

/-- The loop of `Run` gets to the limit test and the switch of an iteration. -/
def reaches (k : Config ν) (base : TaskletId) (complete : Bool) : Bool :=
  match (k.state.tasklets base).next with
  | none => false
  | some t =>
      !complete && !(k.state.stopScheduler && k.state.currentTasklet == mainTasklet) &&
        k.state.currentTasklet ≠ t &&
        match k.state.setParent t k.state.currentTasklet with
        | .error _ => false
        | .ok _ => true

/-- The loop of `Run` switches to the tasklet after its base. -/
def goesOn (k : Config ν) (base : TaskletId) (complete : Bool) : Bool :=
  k.reaches base complete && (k.state.tasklets base).next.any k.state.maySwitchTo

/-- The loop of `Run` after the switch of an iteration, when it goes on: the configuration, the
base of the loop and whether the loop is complete. -/
def loopAfter? (k : Config ν) (base : TaskletId) (endTasklet : Option TaskletId)
    (unblocked : Bool) (t : TaskletId) (ok : Bool) : Option (Config ν × TaskletId × Bool) :=
  if ok || k.exitRaised then
    let k := k.catchExit t
    (k.state.runPostSwitch t).map fun s =>
      (k.withState (if (s.tasklets t).alive then s else s.clearParent t), base,
        (unblocked && !(k.state.tasklets mainTasklet).blocked) || endTasklet == some t)
  else none

/-- The loop of `Run` in main when main gets control back from a switch. -/
def mainLoop? (k : Config ν) : Option (Config ν × TaskletId × Bool) :=
  match k.control, k.stack mainTasklet with
  | .returning ok, .run base endTasklet unblocked t :: _ =>
      if k.running = mainTasklet then k.pop.loopAfter? base endTasklet unblocked t ok else none
  | _, _ => none

/-- Main is suspended in a switch. -/
def inSwitch (k : Config ν) : Bool :=
  match k.stack mainTasklet with
  | .switchTo _ :: _ => true
  | _ => false

end Config

theorem Config.enterGreenlet_stack (k : Config ν) (error : Option (PyError ν)) (fuel : Nat)
    (t : TaskletId) : (k.enterGreenlet error fuel t).stack = k.stack := by
  induction fuel generalizing k t with
  | zero => rfl
  | succ fuel ih =>
      rw [Config.enterGreenlet]
      split
      · rfl
      · rfl
      · split
        · exact ih _ _
        · rfl
      · split
        · split <;> rfl
        · split
          · exact ih _ _
          · rfl

theorem Config.switchTo_of_may {k : Config ν} {t : TaskletId} (may : k.state.maySwitchTo t = true) :
    k.switchTo t = (k.beginSwitch t).enterGreenlet none (k.state.taskletCount + 1) t := by
  simp only [State.maySwitchTo, Bool.and_eq_true, decide_eq_true_eq, Bool.not_eq_true'] at may
  obtain ⟨⟨⟨⟨arguments, kwArguments⟩, given⟩, trap⟩, exits⟩ := may
  unfold Config.switchTo
  dsimp only
  rw [if_neg arguments, if_neg kwArguments, if_neg (by rw [given]; exact Bool.false_ne_true),
    if_neg (not_not.mpr trap)]
  split
  · next first exit =>
    rw [first, exit] at exits
    cases exits
  · next error first exit =>
    rw [first, exit] at exits
    cases exits
  · rfl

/-- A parent is set without a look at the clock and the limits. -/
theorem State.setParent_some {s s' : State ν} {t parent : TaskletId}
    (done : s.setParent t (some parent) = .ok s') :
    s' = s.modifyTasklet t (.setParents parent parent) := by
  simp only [State.setParent] at done
  split at done
  · cases done
  split at done
  · cases done
  split at done
  · cases done
  · exact (Except.ok.inj done).symm

/-- A loop that gets to the switch of an iteration makes it. -/
theorem Config.runLoop_of_reaches {k : Config ν} {base : TaskletId} {complete : Bool}
    (reached : k.reaches base complete = true) (endTasklet : Option TaskletId) (unblocked : Bool) :
    ∃ t s, (k.state.tasklets base).next = some t ∧
      k.state.setParent t k.state.currentTasklet = .ok s ∧
      k.runLoop base endTasklet unblocked complete =
        ((k.withState s.testRunLimits).push (.run base endTasklet unblocked t)).switchTo t := by
  unfold Config.reaches at reached
  cases next : (k.state.tasklets base).next with
  | none =>
      rw [next] at reached
      cases reached
  | some t =>
      simp only [next, Bool.and_eq_true, Bool.not_eq_true', decide_eq_true_eq] at reached
      obtain ⟨⟨⟨rfl, runs⟩, other⟩, parented⟩ := reached
      cases done : k.state.setParent t k.state.currentTasklet with
      | error error =>
          rw [done] at parented
          cases parented
      | ok s =>
          refine ⟨t, s, rfl, done, ?_⟩
          simp only [Config.runLoop, next, runs, Bool.false_eq_true, if_false, if_neg other, done]

theorem Config.runs_of_reaches {k : Config ν} {base : TaskletId} {complete : Bool}
    (reached : k.reaches base complete = true) :
    (k.state.stopScheduler && k.state.currentTasklet == mainTasklet) = false := by
  unfold Config.reaches at reached
  split at reached
  · cases reached
  · simp only [Bool.and_eq_true, Bool.not_eq_true'] at reached
    exact reached.1.1.2

/-- A loop that does not get there is over. -/
theorem Config.runLoop_of_ends {k : Config ν} {base : TaskletId} {complete : Bool}
    (ends : k.reaches base complete = false) (endTasklet : Option TaskletId) (unblocked : Bool) :
    (k.runLoop base endTasklet unblocked complete).state = k.state ∧
      (k.runLoop base endTasklet unblocked complete).stack = k.stack := by
  unfold Config.runLoop
  split
  · exact ⟨rfl, rfl⟩
  · exact ⟨rfl, rfl⟩
  next t next =>
  split
  · exact ⟨rfl, rfl⟩
  next runs =>
  split
  · exact ⟨rfl, rfl⟩
  next other =>
  split
  · exact ⟨rfl, rfl⟩
  next s done =>
  rw [Config.reaches, next] at ends
  simp [runs, other, done] at ends

theorem Config.mainLoop?_of_other {k : Config ν} (other : k.running ≠ mainTasklet) :
    k.mainLoop? = none := by
  unfold Config.mainLoop?
  split
  · exact if_neg other
  · rfl

theorem Config.inSwitch_of_stack {k : Config ν} {t : TaskletId} {rest : List Frame}
    (stack : k.stack mainTasklet = .switchTo t :: rest) : k.inSwitch = true := by
  rw [Config.inSwitch, stack]

end CarbonLab.Scheduler
