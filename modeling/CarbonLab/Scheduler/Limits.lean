import CarbonLab.Scheduler.Machine

/-!
# What does not look at the run limits

Only the run loop of main reads the limits of a run, its stop flag and its timer.
Everything that another tasklet does comes out the same with other ones, and with another
stack of main.
-/

namespace CarbonLab.Scheduler

variable {ν : Type}

/-- The limit on the number of tasklets, and the stop flag that it sets. -/
structure Limits where
  runType : RunType
  taskletLimit : Int
  stopScheduler : Bool
  deriving DecidableEq

/-- The limits, and the timer of a run for a time. -/
structure RunLimits extends Limits where
  totalTaskletRunTimeLimit : Int
  firstTimeLimitTestSkipped : Bool
  startTime : Int
  clockReads : Nat

/-- The limits of a state. -/
def State.limits (s : State ν) : Limits := ⟨s.runType, s.taskletLimit, s.stopScheduler⟩

/-- The limits and the timer of a state. -/
def State.runLimits (s : State ν) : RunLimits :=
  ⟨s.limits, s.totalTaskletRunTimeLimit, s.firstTimeLimitTestSkipped, s.startTime, s.clockReads⟩

/-- The state with other limits and another timer. -/
@[simps -fullyApplied]
def State.withLimits (s : State ν) (limits : RunLimits) : State ν :=
  { s with
    runType := limits.runType
    taskletLimit := limits.taskletLimit
    stopScheduler := limits.stopScheduler
    totalTaskletRunTimeLimit := limits.totalTaskletRunTimeLimit
    firstTimeLimitTestSkipped := limits.firstTimeLimitTestSkipped
    startTime := limits.startTime
    clockReads := limits.clockReads }

/-- The configuration with other limits and another stack of main. -/
@[simps -fullyApplied]
def Config.withMain (k : Config ν) (limits : RunLimits) (frames : List Frame) : Config ν :=
  { k with
    state := k.state.withLimits limits
    stack := Function.update k.stack mainTasklet frames }

namespace State

variable (s : State ν) (limits : RunLimits)

theorem modifyTasklet_withLimits (t : TaskletId) (change : Tasklet ν → Tasklet ν) :
    (s.withLimits limits).modifyTasklet t change = (s.modifyTasklet t change).withLimits limits :=
  rfl

theorem modifyTasklet?_withLimits (t : Option TaskletId) (change : Tasklet ν → Tasklet ν) :
    (s.withLimits limits).modifyTasklet? t change = (s.modifyTasklet? t change).withLimits limits := by
  cases t <;> rfl

theorem insertTaskletToRunNext_withLimits (t : TaskletId) :
    (s.withLimits limits).insertTaskletToRunNext t =
      (s.insertTaskletToRunNext t).withLimits limits := by
  have placed (s : State ν) : (if ((s.withLimits limits).tasklets t).previous =
        (s.withLimits limits).previousTasklet then (s.withLimits limits).setPreviousTasklet t
      else s.withLimits limits) =
      (if (s.tasklets t).previous = s.previousTasklet then s.setPreviousTasklet t
        else s).withLimits limits := by
    simp only [withLimits_tasklets, withLimits_previousTasklet]
    split <;> rfl
  simp only [insertTaskletToRunNext, withLimits_tasklets, withLimits_currentTasklet,
    modifyTasklet_withLimits]
  split
  · rfl
  · split
    all_goals
      rw [placed]
      rfl

theorem insertTasklet_withLimits (t : TaskletId) :
    (s.withLimits limits).insertTasklet t =
      (s.insertTasklet t).map fun s => s.withLimits limits := by
  simp only [insertTasklet, withLimits_tasklets, withLimits_previousTasklet]
  split
  · rfl
  · split <;> rfl

theorem removeTasklet_withLimits (t : TaskletId) :
    (s.withLimits limits).removeTasklet t =
      ((s.removeTasklet t).1.withLimits limits, (s.removeTasklet t).2) := by
  simp only [removeTasklet, withLimits_tasklets]
  split
  · rfl
  · cases (s.tasklets t).previous <;> cases (s.tasklets t).next <;> rfl

theorem hasAncestor_withLimits (fuel : Nat) (p t : TaskletId) :
    (s.withLimits limits).hasAncestor fuel p t = s.hasAncestor fuel p t := by
  induction fuel generalizing p with
  | zero => rfl
  | succ fuel ih =>
      rw [hasAncestor, hasAncestor, withLimits_tasklets]
      cases (s.tasklets p).greenletParent with
      | none => rfl
      | some parent =>
          dsimp only
          rw [ih]

theorem setParent_withLimits (t : TaskletId) (parent : Option TaskletId) :
    (s.withLimits limits).setParent t parent =
      (s.setParent t parent).map fun s => s.withLimits limits := by
  simp only [setParent, withLimits_tasklets, withLimits_taskletCount, hasAncestor_withLimits]
  split
  · repeat' split
    all_goals rfl
  · split <;> rfl

theorem clearParent_withLimits (t : TaskletId) :
    (s.withLimits limits).clearParent t = (s.clearParent t).withLimits limits := by
  unfold clearParent
  rw [setParent_withLimits]
  cases s.setParent t none <;> rfl

theorem leaveQueue_withLimits (t parent : TaskletId) :
    (s.withLimits limits).leaveQueue t parent = (s.leaveQueue t parent).withLimits limits := by
  have current : (s.withLimits limits).setCurrentTasklet parent =
      (s.setCurrentTasklet parent).withLimits limits := rfl
  have last (s : State ν) (p : Option TaskletId) : (s.withLimits limits).setPreviousTasklet p =
      (s.setPreviousTasklet p).withLimits limits := rfl
  simp only [leaveQueue, current, withLimits_tasklets, last]
  split
  all_goals
    rw [removeTasklet_withLimits]
    rfl

theorem rescheduleTasklet_withLimits (t : TaskletId) :
    (s.withLimits limits).rescheduleTasklet t =
      (s.rescheduleTasklet t).map fun s => s.withLimits limits := by
  simp only [rescheduleTasklet, withLimits_tasklets, withLimits_currentTasklet]
  split
  · rw [insertTasklet_withLimits]
    cases s.insertTasklet t <;> rfl
  · cases (s.tasklets s.currentTasklet).next with
    | none => rfl
    | some front =>
        simp only [Option.bind_eq_bind, Option.bind_some, Option.pure_def, Option.map_some]
        rw [removeTasklet_withLimits, insertTaskletToRunNext_withLimits,
          insertTaskletToRunNext_withLimits]
        rfl
  · rfl

theorem runPostSwitch_withLimits (t : TaskletId) :
    (s.withLimits limits).runPostSwitch t =
      (s.runPostSwitch t).map fun s => s.withLimits limits := by
  unfold runPostSwitch
  rw [withLimits_tasklets]
  cases (s.tasklets t).taskletParent with
  | none => rfl
  | some parent =>
      simp only [Option.bind_eq_bind, Option.bind_some]
      rw [leaveQueue_withLimits, rescheduleTasklet_withLimits]

theorem removeTaskletFromBlocked_withLimits (c : ChannelId) (t : TaskletId) :
    (s.withLimits limits).removeTaskletFromBlocked c t =
      (s.removeTaskletFromBlocked c t).withLimits limits := by
  have last (s : State ν) (d : ChannelDirection) : (s.withLimits limits).detachLast d c t =
      ((s.detachLast d c t).1.withLimits limits, (s.detachLast d c t).2) := by
    simp only [detachLast, withLimits_tasklets, withLimits_channels]
    split
    · cases (s.tasklets t).nextBlocked <;> rfl
    · rfl
  have first (s : State ν) (d : ChannelDirection) : (s.withLimits limits).detachFirst d c t =
      ((s.detachFirst d c t).1.withLimits limits, (s.detachFirst d c t).2) := by
    simp only [detachFirst, withLimits_tasklets, withLimits_channels]
    split
    · cases (s.tasklets t).previousBlocked <;> rfl
    · rfl
  have middle (s : State ν) : (s.withLimits limits).detachMiddle t =
      (s.detachMiddle t).withLimits limits := by
    simp only [detachMiddle, withLimits_tasklets, modifyTasklet?_withLimits]
  have cleared (s : State ν) : (s.withLimits limits).clearBlockedFields c t =
      (s.clearBlockedFields c t).withLimits limits := by
    simp only [clearBlockedFields, modifyTasklet_withLimits, withLimits_tasklets]
    split <;> rfl
  have ends : (s.withLimits limits).detachEnds c t =
      ((s.detachEnds c t).1.withLimits limits, (s.detachEnds c t).2) := by
    simp only [detachEnds, last, first]
  simp only [removeTaskletFromBlocked, ends, middle]
  cases (s.detachEnds c t).2 with
  | true => exact cleared _
  | false => exact cleared _

theorem addTaskletToWaiting_withLimits (d : ChannelDirection) (c : ChannelId) (t : TaskletId) :
    (s.withLimits limits).addTaskletToWaiting d c t =
      (s.addTaskletToWaiting d c t).withLimits limits := by
  simp only [addTaskletToWaiting, withLimits_channels]
  split <;> rfl

theorem popNextTaskletBlocked_withLimits (d : ChannelDirection) (c : ChannelId) :
    (s.withLimits limits).popNextTaskletBlocked d c =
      ((s.popNextTaskletBlocked d c).1.withLimits limits, (s.popNextTaskletBlocked d c).2) := by
  simp only [popNextTaskletBlocked, withLimits_channels]
  split
  · rw [removeTaskletFromBlocked_withLimits]
  · rfl

theorem addTaskletToWaitingToSend_withLimits (c : ChannelId) (t : TaskletId) :
    (s.withLimits limits).addTaskletToWaitingToSend c t =
      (s.addTaskletToWaitingToSend c t).withLimits limits := by
  unfold addTaskletToWaitingToSend
  rw [addTaskletToWaiting_withLimits]
  rfl

theorem addTaskletToWaitingToReceive_withLimits (c : ChannelId) (t : TaskletId) :
    (s.withLimits limits).addTaskletToWaitingToReceive c t =
      (s.addTaskletToWaitingToReceive c t).withLimits limits := by
  unfold addTaskletToWaitingToReceive
  rw [addTaskletToWaiting_withLimits]
  rfl

/-- The limit test of another tasklet than main. -/
theorem testRunLimits_withLimits (other : (s.tasklets s.currentTasklet).isMain = false) :
    (s.withLimits limits).testRunLimits = s.withLimits limits ∧ s.testRunLimits = s := by
  have untested : ¬ (s.tasklets s.currentTasklet).isMain = true := by
    rw [other]
    exact Bool.false_ne_true
  exact ⟨if_neg untested, if_neg untested⟩

end State

/-! ## The greenlet of another tasklet -/

namespace Config

variable (k : Config ν) (limits : RunLimits) (frames : List Frame)

theorem withState_withMain (s : State ν) :
    (k.withMain limits frames).withState (s.withLimits limits) =
      (k.withState s).withMain limits frames :=
  rfl

theorem modifyTasklet_withMain (t : TaskletId) (change : Tasklet ν → Tasklet ν) :
    (k.withMain limits frames).modifyTasklet t change =
      (k.modifyTasklet t change).withMain limits frames :=
  rfl

theorem recordCall_withMain (c : ChannelId) (operation : ChannelCall ν) :
    (k.withMain limits frames).recordCall c operation =
      (k.recordCall c operation).withMain limits frames :=
  rfl

variable {k}

theorem withMain_stack_other (other : k.running ≠ mainTasklet) :
    (k.withMain limits frames).stack k.running = k.stack k.running :=
  Function.update_of_ne other _ _

theorem push_withMain (other : k.running ≠ mainTasklet) (frame : Frame) :
    (k.withMain limits frames).push frame = (k.push frame).withMain limits frames := by
  simp only [push, withMain, Function.update_of_ne other]
  rw [Function.update_comm other]

theorem pop_withMain (other : k.running ≠ mainTasklet) :
    (k.withMain limits frames).pop = k.pop.withMain limits frames := by
  simp only [pop, withMain, Function.update_of_ne other]
  rw [Function.update_comm other]

/-! ## Switches -/

theorem enterGreenlet_withMain (k : Config ν) (error : Option (PyError ν)) (fuel : Nat)
    (t : TaskletId) : (k.withMain limits frames).enterGreenlet error fuel t =
      (k.enterGreenlet error fuel t).withMain limits frames := by
  induction fuel generalizing k t with
  | zero => rfl
  | succ fuel ih =>
      rw [enterGreenlet, enterGreenlet]
      simp only [withMain_state, State.withLimits_tasklets]
      cases (k.state.tasklets t).greenlet with
      | null => rfl
      | started => rfl
      | dead =>
          cases (k.state.tasklets t).greenletParent with
          | none => rfl
          | some parent => exact ih k parent
      | fresh runnable =>
          cases error with
          | none => cases runnable <;> rfl
          | some error =>
              cases (k.state.tasklets t).greenletParent with
              | none => rfl
              | some parent => exact ih (k.modifyTasklet t (.setGreenlet .dead)) parent

theorem beginSwitch_withMain (other : k.running ≠ mainTasklet) (t : TaskletId) :
    (k.withMain limits frames).beginSwitch t = (k.beginSwitch t).withMain limits frames := by
  generalize before : ((k.withState (k.state.setCurrentTasklet t)).modifyTasklet t
    (.setPaused false)).modifyTasklet t (.setFirstRun false) = k'
  have other' : k'.running ≠ mainTasklet := before ▸ other
  have pushed := push_withMain limits frames other' (.switchTo t)
  rw [← before] at pushed
  exact pushed

theorem switchTo_withMain (other : k.running ≠ mainTasklet) (t : TaskletId) :
    (k.withMain limits frames).switchTo t = (k.switchTo t).withMain limits frames := by
  simp only [switchTo, withMain_state, State.withLimits_tasklets, State.withLimits_switchTrapLevel,
    State.withLimits_taskletCount, beginSwitch_withMain limits frames other, enterGreenlet_withMain]
  repeat' split
  all_goals rfl

end Config

end CarbonLab.Scheduler
