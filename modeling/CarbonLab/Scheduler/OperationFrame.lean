import CarbonLab.Scheduler.ChannelFrame

/-!
# Operations that leave the channels alone

Run loops and yields, and every operation of Python code other than a channel
operation or a kill, touch no channel and block no tasklet.
-/

namespace CarbonLab.Scheduler

variable {ν : Type}

namespace Spares

variable {k k' k'' : Config ν}

/-- The loop of `Run`, up to the switch. -/
theorem runLoop (before : Spares k k') (base : TaskletId) (endTasklet : Option TaskletId)
    (unblocked complete : Bool) : Spares k (k'.runLoop base endTasklet unblocked complete) := by
  unfold Config.runLoop
  split
  · exact before.ret true
  · exact before.ret true
  split
  · exact before.ret true
  split
  · exact before.ret true
  split
  · exact before.fail _
  next done =>
    have limited := (State.setParent_spares done).trans (State.testRunLimits_spares _)
    exact switchTo ((before.withState limited).push _) _

/-- `ScheduleManager::Run`. -/
theorem run (before : Spares k k') (start : Option TaskletId) : Spares k (k'.run start) := by
  unfold Config.run
  dsimp only
  split
  · split
    · exact before.runLoop _ _ _ _
    · exact before.crash
  · exact before.runLoop _ _ _ _

/-- `ScheduleManager::Yield`. -/
theorem yield (before : Spares k k') : Spares k k'.yield := by
  unfold Config.yield
  dsimp only
  split
  · split
    · split
      · exact before.fail _
      · exact (before.push _).run none
    · exact before.run none
  · split
    · exact (before.push _).switchTo _
    · exact before.crash

/-- The re-entry loop of `Yield`. -/
theorem yieldSwitched (before : Spares k k') (t : TaskletId) (ok : Bool) :
    Spares k (k'.yieldSwitched t ok) := by
  unfold Config.yieldSwitched
  split
  · exact before.ret false
  split
  · split
    · exact (before.push _).switchTo _
    · exact before.crash
  · exact before.ret true

/-- The yield of the blocked main tasklet after its run. -/
theorem yieldRan (before : Spares k k') (ok : Bool) : Spares k (k'.yieldRan ok) :=
  ite (before.ret false) (ite (before.fail _) (before.ret true))

/-- The end of `Run` after a failure. -/
theorem runFailed (before : Spares k k') (t : TaskletId) : Spares k (k'.runFailed t) := by
  unfold Config.runFailed
  split
  · split
    · exact before.crash
    · next parent _ =>
      have current : k'.state.Spares (k'.state.setCurrentTasklet parent) :=
        (State.Spares.refl _).goesOn rfl rfl
      have left := current.trans (State.removeTasklet_spares _ t)
      generalize (k'.state.setCurrentTasklet parent).removeTasklet t = result at left ⊢
      obtain ⟨s', reported⟩ := result
      refine (before.withState ?_).ret false
      split
      · exact left.trans (State.clearParent_spares s' t)
      · exact left
  · exact (before.withState (State.clearParent_spares _ t)).ret false

/-- The iteration of `Run` after a successful switch. -/
theorem runGoesOn (before : Spares k k') (base : TaskletId) (endTasklet : Option TaskletId)
    (unblocked : Bool) (t : TaskletId) :
    Spares k (k'.runGoesOn base endTasklet unblocked t) := by
  unfold Config.runGoesOn
  dsimp only
  split
  · exact before.crash
  · next s' done =>
      have placed := State.runPostSwitch_spares done
      refine (before.withState ?_).runLoop _ _ _ _
      split
      · exact placed
      · exact placed.trans (State.clearParent_spares s' t)

/-- The iteration of `Run` after its switch. -/
theorem runSwitched (before : Spares k k') (base : TaskletId) (endTasklet : Option TaskletId)
    (unblocked : Bool) (t : TaskletId) (ok : Bool) :
    Spares k (k'.runSwitched base endTasklet unblocked t ok) := by
  have cleared := before.modifyTasklet t .clearException fun _ => .inl rfl
  have caught : Spares k (k'.catchExit t) := ite (cleared.goesOn rfl rfl) before
  exact ite (caught.runGoesOn _ _ _ _) (before.runFailed t)

/-- `ScheduleManager::Schedule`. -/
theorem schedule (before : Spares k k') (position : RescheduleType) (remove : Bool) :
    Spares k (k'.schedule position remove) := by
  refine (before.modifyTasklet _ _ ?_).yield
  intro tasklet
  cases remove
  · exact .inl rfl
  · exact .inl rfl

/-- An insertion into the run queue and what follows it. -/
theorem afterInsert (before : Spares k k') {t : TaskletId} {next : Config ν → Config ν}
    (goes : ∀ s, k'.state.Spares s → Spares k (next (k'.withState s))) :
    Spares k (k'.afterInsert (k'.state.insertTasklet t) next) := by
  unfold Config.afterInsert
  split
  · next s' done => exact goes s' (State.insertTasklet_spares done)
  · exact before.crash

/-- `Tasklet::Run`. -/
theorem taskletRun (before : Spares k k') (t : TaskletId) : Spares k (k'.taskletRun t) := by
  unfold Config.taskletRun
  dsimp only
  refine ite (before.fail _) (ite (before.fail _) (ite (ite (before.run _) ?_) ?_))
  · exact before.afterInsert fun s spared => (before.withState spared).run _
  · refine (before.withState (State.Spares.trans ?_
      (State.insertTaskletToRunNext_spares _ t))).schedule _ _
    split
    · exact State.removeTasklet_spares _ t
    · exact .refl _

/-- `Tasklet::SwitchImplementation`. -/
theorem switchImplementation (before : Spares k k') (t : TaskletId) :
    Spares k (k'.switchImplementation t) := by
  have paused := before.modifyTasklet k'.state.currentTasklet (.setPaused true) fun _ => .inl rfl
  unfold Config.switchImplementation
  dsimp only
  refine ite (before.fail _) (ite (before.fail _) (ite ((paused.push _).run _) ?_))
  exact paused.afterInsert fun s spared => ((paused.withState spared).push _).run _

/-- `Tasklet::ThrowException`. -/
theorem throwException (before : Spares k k') (t : TaskletId) (exception : PyError ν)
    (pending : Bool) : Spares k (k'.throwException t exception pending) := by
  have set := before.modifyTasklet t (.setExceptionState exception) fun _ => .inl rfl
  have cleared := set.modifyTasklet t .clearException fun _ => .inl rfl
  unfold Config.throwException
  dsimp only
  refine ite (cleared.raise _) (ite (ite ?_ (ite (cleared.ret true) (cleared.fail _)))
    (ite ?_ (ite (set.taskletRun t) (ite (cleared.ret true) (cleared.fail _)))))
  · exact set.afterInsert fun s spared => (set.withState spared).ret true
  · exact ((set.modifyTasklet t .unblock fun _ => .inr rfl).push _).taskletRun t

/-- `Tasklet::Insert`. -/
theorem insert (before : Spares k k') (t : TaskletId) : Spares k (k'.insert t) :=
  ite (before.fail _) (ite (before.fail _) (before.afterInsert fun _ spared =>
    ((before.withState spared).modifyTasklet t _ (by exact fun _ => .inl rfl)).ret true))

/-- `Tasklet::Remove`. -/
theorem remove (before : Spares k k') (t : TaskletId) : Spares k (k'.remove t) :=
  ite (((before.withState (State.removeTasklet_spares _ t)).modifyTasklet t _
    (by exact fun _ => .inl rfl)).ret true)
    (before.ret true)

/-- `TaskletInit`. -/
theorem create (before : Spares k k') (callable : Bool) : Spares k (k'.create callable) := by
  have counted : Spares k
      (k'.withState { k'.state with taskletCount := k'.state.taskletCount + 1 }) :=
    before.goesOn rfl rfl
  exact (counted.modifyTasklet _ _ fun _ => .inr rfl).ret true

/-- `Tasklet::Bind`. -/
theorem bind (before : Spares k k') {t : TaskletId} {callable : Bool}
    {arguments kwArguments : Option Bool} (done : k'.bind .never t callable arguments kwArguments = some k'') :
    Spares k k'' := by
  have called : Spares k (if callable then k'.modifyTasklet t (.setCallable true) else k') :=
    ite (before.modifyTasklet t (.setCallable true) fun _ => .inl rfl) before
  simp only [Config.bind, Option.bind_eq_bind] at done
  generalize (if callable then k'.modifyTasklet t (.setCallable true) else k') = k₁ at called done
  have given := called.modifyTasklet t (.setArguments (arguments.or (k₁.state.tasklets t).arguments)
    (kwArguments.or (k₁.state.tasklets t).kwArguments)) fun _ => .inl rfl
  split at done
  · obtain ⟨_, dropped, made⟩ := Option.bind_eq_some_iff.mp done
    obtain ⟨-, rfl⟩ := Config.dropGreenlet_never.mp dropped
    cases made
    exact ((given.modifyTasklet t (.initialise _) fun _ => .inl rfl).modifyTasklet t
      (.setAlive true) fun _ => .inl rfl).ret true
  · cases done
    exact given.ret true

/-- `Tasklet::UnBind`. -/
theorem unBind (before : Spares k k') {t : TaskletId} (done : k'.unBind .never t = some k'') :
    Spares k k'' := by
  simp only [Config.unBind, Option.bind_eq_bind] at done
  split at done
  · cases done
    exact before.fail _
  split at done
  · cases done
    exact before.fail _
  obtain ⟨_, dropped, made⟩ := Option.bind_eq_some_iff.mp done
  obtain ⟨-, rfl⟩ := Config.dropGreenlet_never.mp dropped
  cases made
  exact (((before.modifyTasklet t (.setCallable false) fun _ => .inl rfl).modifyTasklet t
    (.setArguments none _) fun _ => .inl rfl).modifyTasklet t .uninitialise
      fun _ => .inl rfl).ret true

/-- `Tasklet::Setup`. -/
theorem setup (before : Spares k k') {t : TaskletId} {arguments kwArguments : Option Bool}
    (done : k'.setup .never t arguments kwArguments = some k'') : Spares k k'' := by
  have bound := ((before.modifyTasklet t (.setArguments arguments kwArguments)
    fun _ => .inl rfl).modifyTasklet t
    (.initialise k'.running) fun _ => .inl rfl).modifyTasklet t (.setAlive true) fun _ => .inl rfl
  simp only [Config.setup, Option.bind_eq_bind] at done
  split at done
  · cases done
    exact before.fail _
  obtain ⟨_, dropped, made⟩ := Option.bind_eq_some_iff.mp done
  obtain ⟨-, rfl⟩ := Config.dropGreenlet_never.mp dropped
  split at made
  · cases made
    exact ((bound.modifyTasklet t .uninitialise fun _ => .inl rfl).modifyTasklet t
      (.setArguments none none) fun _ => .inl rfl).fail _
  · obtain rfl := Option.some.inj made
    exact bound.insert t

/-- The end of the running tasklet's body. -/
theorem endBody (before : Spares k k') {error : Option (PyError ν)}
    (done : k'.endBody error = some k'') : Spares k k'' := by
  unfold Config.endBody at done
  split at done
  · cases done
  split at done
  · cases done
  · next parent _ =>
    cases done
    exact (before.modifyTasklet k'.running (.setGreenlet .dead)
      fun _ => .inl rfl).enterGreenlet error _ parent

/-- `ScheduleManager::RunNTasklets`. -/
theorem runNTasklets (before : Spares k k') (number : Nat) :
    Spares k (k'.runNTasklets number) := by
  have limited : Spares k
      (k'.withState { k'.state with
        taskletLimit := Int.bmod number (2 ^ 32), runType := .taskletLimited }) :=
    before.goesOn rfl rfl
  exact (limited.push _).run none

/-- `ScheduleManager::RunTaskletsForTime`. -/
theorem runTaskletsForTime (before : Spares k k') (timeout : Int) :
    Spares k (k'.runTaskletsForTime timeout) := by
  have limited : Spares k (k'.withState { k'.state with
      totalTaskletRunTimeLimit := timeout
      firstTimeLimitTestSkipped := false
      runType := .timeLimited
      startTime := k'.state.clock k'.state.clockReads
      clockReads := k'.state.clockReads + 1 }) :=
    before.goesOn rfl rfl
  exact (limited.push _).run none

end Spares

end CarbonLab.Scheduler
