import CarbonLab.Scheduler.Machine

/-!
# What tasklets do beside main

While main waits in its own calls, other tasklets run.  They never touch its stack, they
never give it back its Python code, and the clock only goes on.  This holds in every
configuration.
-/

namespace CarbonLab.Scheduler

variable {ν : Type}

/-- Main has its greenlet, and no other tasklet is main. -/
structure State.MainStarted (s : State ν) : Prop where
  started : (s.tasklets mainTasklet).greenlet = .started
  counted : 0 < s.taskletCount
  isMain : ∀ t, (s.tasklets t).isMain = true ↔ t = mainTasklet

/-- The change makes no tasklet main. -/
def KeepsMain (change : Tasklet ν → Tasklet ν) : Prop :=
  ∀ tasklet, (change tasklet).isMain = tasklet.isMain

/-- The change leaves the greenlet as it is, and makes no tasklet main. -/
def KeepsGreenlet (change : Tasklet ν → Tasklet ν) : Prop :=
  ∀ tasklet, (change tasklet).greenlet = tasklet.greenlet ∧
    (change tasklet).isMain = tasklet.isMain

theorem State.isMain_modifyTasklet {s : State ν} {t : TaskletId} {change : Tasklet ν → Tasklet ν}
    (keeps : KeepsMain change) (u : TaskletId) :
    ((s.modifyTasklet t change).tasklets u).isMain = (s.tasklets u).isMain := by
  rw [State.modifyTasklet_tasklets, Function.update_apply]
  split
  · next same => rw [keeps, same]
  · rfl

/-- The clock is the same, no reading is taken back, and main keeps its greenlet. -/
structure State.Ages (s s' : State ν) : Prop where
  clock : s'.clock = s.clock
  clockReads : s.clockReads ≤ s'.clockReads
  main : s.MainStarted → s'.MainStarted

namespace State

namespace Ages

variable {s s' s'' : State ν}

theorem refl (s : State ν) : Ages s s :=
  ⟨rfl, Nat.le_refl _, fun main => main⟩

theorem trans (first : Ages s s') (second : Ages s' s'') : Ages s s'' :=
  ⟨second.clock.trans first.clock, Nat.le_trans first.clockReads second.clockReads,
    fun main => second.main (first.main main)⟩

/-- Only the clock and the tasklets matter. -/
theorem goesOn (before : Ages s s') (clock : s''.clock = s'.clock)
    (clockReads : s'.clockReads ≤ s''.clockReads) (tasklets : s''.tasklets = s'.tasklets)
    (count : s''.taskletCount = s'.taskletCount) : Ages s s'' :=
  before.trans ⟨clock, clockReads, fun main =>
    ⟨by rw [tasklets]; exact main.started, by rw [count]; exact main.counted,
      by rw [tasklets]; exact main.isMain⟩⟩

theorem modifyTasklet (before : Ages s s') (t : TaskletId) (change : Tasklet ν → Tasklet ν)
    (keeps : KeepsGreenlet change) : Ages s (s'.modifyTasklet t change) := by
  refine before.trans ⟨rfl, Nat.le_refl _, fun main => ⟨?_, main.counted, fun u => ?_⟩⟩
  · rw [modifyTasklet_tasklets, Function.update_apply]
    split
    · next same =>
        rw [(keeps _).1, ← same]
        exact main.started
    · exact main.started
  · rw [isMain_modifyTasklet fun tasklet => (keeps tasklet).2]
    exact main.isMain u

theorem modifyTasklet? (before : Ages s s') (t : Option TaskletId)
    (change : Tasklet ν → Tasklet ν) (keeps : KeepsGreenlet change) :
    Ages s (s'.modifyTasklet? t change) := by
  cases t with
  | none => exact before
  | some t => exact before.modifyTasklet t change keeps

/-- A greenlet other than main's changes. -/
theorem modifyOther (before : Ages s s') (t : TaskletId) (change : Tasklet ν → Tasklet ν)
    (other : s.MainStarted → t ≠ mainTasklet) (only : KeepsMain change) :
    Ages s (s'.modifyTasklet t change) := by
  refine ⟨before.clock, before.clockReads, fun main => ?_⟩
  have later := before.main main
  refine ⟨?_, later.counted, fun u => ?_⟩
  · rw [modifyTasklet_tasklets, Function.update_of_ne (Ne.symm (other main))]
    exact later.started
  · rw [isMain_modifyTasklet only]
    exact later.isMain u

theorem modifyChannel (before : Ages s s') (c : ChannelId) (change : Channel → Channel) :
    Ages s (s'.modifyChannel c change) :=
  before.goesOn rfl (Nat.le_refl _) rfl rfl

theorem setPreviousTasklet (before : Ages s s') (t : Option TaskletId) :
    Ages s (s'.setPreviousTasklet t) :=
  before.goesOn rfl (Nat.le_refl _) rfl rfl

theorem ite {condition : Prop} [Decidable condition] (first : Ages s s') (second : Ages s s'') :
    Ages s (if condition then s' else s'') := by
  split
  · exact first
  · exact second

/-- The end of an insertion. -/
theorem linked (before : Ages s s') (t : TaskletId) :
    Ages s (((s'.modifyTasklet t .unblock).modifyTasklet t (.setScheduled true)).setNumberOfTaskletsInQueue
      (s'.numberOfTaskletsInQueue + 1)) :=
  ((before.modifyTasklet t .unblock fun _ => ⟨rfl, rfl⟩).modifyTasklet t (.setScheduled true)
    fun _ => ⟨rfl, rfl⟩).goesOn rfl
    (Nat.le_refl _) rfl rfl

end Ages

variable {s s' : State ν}

/-! ## The run queue -/

theorem insertTaskletToRunNext_ages (s : State ν) (t : TaskletId) :
    s.Ages (s.insertTaskletToRunNext t) := by
  have placed := ((((Ages.refl s).modifyTasklet t
    (.setNext (s.tasklets s.currentTasklet).next) fun _ => ⟨rfl, rfl⟩).modifyTasklet t
    (.setPrevious s.currentTasklet) fun _ => ⟨rfl, rfl⟩).modifyTasklet s.currentTasklet (.setNext t)
      fun _ => ⟨rfl, rfl⟩)
  unfold insertTaskletToRunNext
  split
  · exact (Ages.refl s).modifyTasklet t (.setReschedule .back) fun _ => ⟨rfl, rfl⟩
  · dsimp only
    split
    · next next _ =>
      have before := placed.modifyTasklet next (.setPrevious t) fun _ => ⟨rfl, rfl⟩
      exact Ages.linked (Ages.ite (before.setPreviousTasklet _) before) t
    · exact Ages.linked (Ages.ite (placed.setPreviousTasklet _) placed) t

theorem insertTasklet_ages {t : TaskletId} (done : s.insertTasklet t = some s') : s.Ages s' := by
  unfold insertTasklet at done
  split at done
  · cases done
    exact (Ages.refl s).modifyTasklet t (.setReschedule .back) fun _ => ⟨rfl, rfl⟩
  · split at done
    · cases done
    · next last _ =>
      cases done
      have placed := (((Ages.refl s).modifyTasklet last (.setNext t)
        fun _ => ⟨rfl, rfl⟩).modifyTasklet t
        (.setPrevious last) fun _ => ⟨rfl, rfl⟩).modifyTasklet t (.setNext none) fun _ => ⟨rfl, rfl⟩
      exact Ages.linked (placed.setPreviousTasklet t) t

theorem removeTasklet_ages (s : State ν) (t : TaskletId) : s.Ages (s.removeTasklet t).1 := by
  have left : ∀ {s' : State ν}, s.Ages s' →
      s.Ages (((s'.modifyTasklet t (.setNext none)).modifyTasklet t (.setPrevious none)).modifyTasklet t
        (.setScheduled false)) := fun before =>
    ((before.modifyTasklet t (.setNext none) fun _ => ⟨rfl, rfl⟩).modifyTasklet t
      (.setPrevious none) fun _ => ⟨rfl, rfl⟩).modifyTasklet t
      (.setScheduled false) fun _ => ⟨rfl, rfl⟩
  have linked := (Ages.refl s).modifyTasklet? (s.tasklets t).previous
    (.setNext (s.tasklets t).next) fun _ => ⟨rfl, rfl⟩
  unfold removeTasklet
  dsimp only
  split
  · exact .refl s
  · split
    · next next _ =>
      have before := linked.modifyTasklet next (.setPrevious (s.tasklets t).previous)
        fun _ => ⟨rfl, rfl⟩
      exact left (before.goesOn rfl (Nat.le_refl _) rfl rfl)
    · exact left (linked.goesOn rfl (Nat.le_refl _) rfl rfl)

theorem setParent_ages {t : TaskletId} {parent : Option TaskletId}
    (done : s.setParent t parent = .ok s') : s.Ages s' := by
  unfold setParent at done
  split at done
  · split at done
    · cases done
    · split at done
      · cases done
      · split at done
        · cases done
        · cases done
          exact (Ages.refl s).modifyTasklet t _ (by exact fun _ => ⟨rfl, rfl⟩)
  · split at done
    · cases done
      exact (Ages.refl s).modifyTasklet t _ (by exact fun _ => ⟨rfl, rfl⟩)
    · cases done
      exact (Ages.refl s).modifyTasklet t _ (by exact fun _ => ⟨rfl, rfl⟩)

theorem clearParent_ages (s : State ν) (t : TaskletId) : s.Ages (s.clearParent t) := by
  unfold clearParent
  split
  · next done => exact setParent_ages done
  · exact .refl s

theorem testRunLimits_ages (s : State ν) : s.Ages s.testRunLimits := by
  simp only [testRunLimits]
  repeat' split
  all_goals exact (Ages.refl s).goesOn rfl (by simp) rfl rfl

theorem leaveQueue_ages (s : State ν) (t parent : TaskletId) : s.Ages (s.leaveQueue t parent) := by
  unfold leaveQueue
  dsimp only
  refine Ages.modifyTasklet (Ages.trans ?_ (removeTasklet_ages _ t)) t (.setScheduled false)
    fun _ => ⟨rfl, rfl⟩
  exact Ages.ite ((Ages.refl s).goesOn rfl (Nat.le_refl _) rfl rfl)
    ((Ages.refl s).goesOn rfl (Nat.le_refl _) rfl rfl)

theorem rescheduleTasklet_ages {t : TaskletId} (done : s.rescheduleTasklet t = some s') :
    s.Ages s' := by
  rw [rescheduleTasklet] at done
  split at done
  · obtain ⟨s₁, inserted, rest⟩ := Option.bind_eq_some_iff.mp done
    cases rest
    exact (insertTasklet_ages inserted).modifyTasklet t (.setReschedule .none) fun _ => ⟨rfl, rfl⟩
  · obtain ⟨front, _, rest⟩ := Option.bind_eq_some_iff.mp done
    cases rest
    exact (((removeTasklet_ages s front).trans (insertTaskletToRunNext_ages _ t)).trans
      (insertTaskletToRunNext_ages _ front)).modifyTasklet t (.setReschedule .none)
        fun _ => ⟨rfl, rfl⟩
  · cases done
    exact .refl s

theorem runPostSwitch_ages {t : TaskletId} (done : s.runPostSwitch t = some s') : s.Ages s' := by
  obtain ⟨parent, _, rest⟩ := Option.bind_eq_some_iff.mp done
  exact (leaveQueue_ages s t parent).trans (rescheduleTasklet_ages rest)

/-! ## Channels -/

theorem updateCloseState_ages (s : State ν) (c : ChannelId) : s.Ages (s.updateCloseState c) :=
  (Ages.refl s).modifyChannel c _

theorem detachLast_ages (s : State ν) (d : ChannelDirection) (c : ChannelId) (t : TaskletId) :
    s.Ages (s.detachLast d c t).1 := by
  unfold detachLast
  split
  · exact ((Ages.refl s).modifyChannel c _).modifyTasklet? _ _ (by exact fun _ => ⟨rfl, rfl⟩)
  · exact .refl s

theorem detachFirst_ages (s : State ν) (d : ChannelDirection) (c : ChannelId) (t : TaskletId) :
    s.Ages (s.detachFirst d c t).1 := by
  unfold detachFirst
  split
  · exact ((Ages.refl s).modifyChannel c _).modifyTasklet? _ _ (by exact fun _ => ⟨rfl, rfl⟩)
  · exact .refl s

theorem detachEnds_ages (s : State ν) (c : ChannelId) (t : TaskletId) :
    s.Ages (s.detachEnds c t).1 :=
  (((detachLast_ages s .receiver c t).trans (detachLast_ages _ .sender c t)).trans
    (detachFirst_ages _ .receiver c t)).trans (detachFirst_ages _ .sender c t)

theorem detachMiddle_ages (s : State ν) (t : TaskletId) : s.Ages (s.detachMiddle t) :=
  ((Ages.refl s).modifyTasklet? _ _ (by exact fun _ => ⟨rfl, rfl⟩)).modifyTasklet? _ _
    (by exact fun _ => ⟨rfl, rfl⟩)

theorem clearBlockedFields_ages (s : State ν) (c : ChannelId) (t : TaskletId) :
    s.Ages (s.clearBlockedFields c t) := by
  have unlinked := (Ages.refl s).modifyTasklet t
    (fun tasklet => { tasklet with nextBlocked := none, previousBlocked := none })
    fun _ => ⟨rfl, rfl⟩
  unfold clearBlockedFields
  refine Ages.modifyTasklet ?_ t _ (by exact fun _ => ⟨rfl, rfl⟩)
  split
  · exact unlinked.modifyChannel c _
  · exact unlinked.modifyChannel c _
  · exact unlinked

theorem removeTaskletFromBlocked_ages (s : State ν) (c : ChannelId) (t : TaskletId) :
    s.Ages (s.removeTaskletFromBlocked c t) := by
  have ends := detachEnds_ages s c t
  unfold removeTaskletFromBlocked
  dsimp only
  refine Ages.trans ?_ (clearBlockedFields_ages _ c t)
  split
  · exact ends
  · exact ends.trans (detachMiddle_ages _ t)

theorem addTaskletToWaiting_ages (s : State ν) (d : ChannelDirection) (c : ChannelId)
    (t : TaskletId) : s.Ages (s.addTaskletToWaiting d c t) := by
  unfold addTaskletToWaiting
  refine Ages.modifyTasklet ?_ t _ (by exact fun _ => ⟨rfl, rfl⟩)
  split
  · exact ((Ages.refl s).modifyChannel c _).modifyChannel c _
  · exact (((Ages.refl s).modifyTasklet _ _ (by exact fun _ => ⟨rfl, rfl⟩)).modifyTasklet _ _
      (by exact fun _ => ⟨rfl, rfl⟩)).modifyChannel c _

theorem addTaskletToWaitingToSend_ages (s : State ν) (c : ChannelId) (t : TaskletId) :
    s.Ages (s.addTaskletToWaitingToSend c t) := by
  unfold addTaskletToWaitingToSend
  exact (addTaskletToWaiting_ages s .sender c t).modifyChannel c _

theorem addTaskletToWaitingToReceive_ages (s : State ν) (c : ChannelId) (t : TaskletId) :
    s.Ages (s.addTaskletToWaitingToReceive c t) := by
  unfold addTaskletToWaitingToReceive
  exact (addTaskletToWaiting_ages s .receiver c t).modifyChannel c _

theorem popNextTaskletBlocked_ages (s : State ν) (d : ChannelDirection) (c : ChannelId) :
    s.Ages (s.popNextTaskletBlocked d c).1 := by
  unfold popNextTaskletBlocked
  split
  · exact removeTaskletFromBlocked_ages s c _
  · exact .refl s

end State

/-! ## Calls -/

/-- The same greenlet goes on in its call. -/
structure Within (k k' : Config ν) : Prop where
  ages : k.state.Ages k'.state
  running : k'.running = k.running
  stack : k.running ≠ mainTasklet → k'.stack mainTasklet = k.stack mainTasklet

/-- The call is over or another greenlet runs, and main runs no Python code. -/
structure Leaves (k k' : Config ν) : Prop where
  ages : k.state.Ages k'.state
  stack : k.running ≠ mainTasklet → k'.stack mainTasklet = k.stack mainTasklet
  python : k.state.MainStarted → k'.running = mainTasklet → k'.control ≠ .python

theorem Leaves.ite {k k' k'' : Config ν} {condition : Prop} [Decidable condition]
    (first : Leaves k k') (second : Leaves k k'') : Leaves k (if condition then k' else k'') := by
  split
  · exact first
  · exact second

namespace Within

variable {k k' k'' : Config ν}

theorem refl (k : Config ν) : Within k k :=
  ⟨.refl _, rfl, fun _ => rfl⟩

theorem withState (before : Within k k') {s : State ν} (ages : k'.state.Ages s) :
    Within k (k'.withState s) :=
  ⟨before.ages.trans ages, before.running, before.stack⟩

/-- Only the clock, the tasklets, the greenlet and the stacks matter. -/
theorem goesOn (before : Within k k') (ages : k'.state.Ages k''.state)
    (running : k''.running = k'.running) (stack : k''.stack = k'.stack) : Within k k'' where
  ages := before.ages.trans ages
  running := running.trans before.running
  stack := fun other => by
    rw [stack]
    exact before.stack other

theorem modifyTasklet (before : Within k k') (t : TaskletId) (change : Tasklet ν → Tasklet ν)
    (keeps : KeepsGreenlet change) : Within k (k'.modifyTasklet t change) :=
  ⟨before.ages.modifyTasklet t change keeps, before.running, before.stack⟩

theorem push (before : Within k k') (frame : Frame) : Within k (k'.push frame) where
  ages := before.ages
  running := before.running
  stack := fun other => by
    rw [Config.push_stack, before.running, Function.update_of_ne (Ne.symm other)]
    exact before.stack other

theorem pop (before : Within k k') : Within k k'.pop where
  ages := before.ages
  running := before.running
  stack := fun other => by
    rw [Config.pop_stack, before.running, Function.update_of_ne (Ne.symm other)]
    exact before.stack other

theorem record (before : Within k k') (event : Event ν) : Within k (k'.record event) :=
  ⟨before.ages, before.running, before.stack⟩

theorem recordCall (before : Within k k') (c : ChannelId) (operation : ChannelCall ν) :
    Within k (k'.recordCall c operation) :=
  ⟨before.ages, before.running, before.stack⟩

theorem updateCloseState (before : Within k k') (c : ChannelId) :
    Within k (k'.withState (k'.state.updateCloseState c)) :=
  before.withState (State.updateCloseState_ages _ c)

theorem ite {condition : Prop} [Decidable condition] (first : Within k k') (second : Within k k'') :
    Within k (if condition then k' else k'') := by
  split
  · exact first
  · exact second

theorem ret (before : Within k k') (ok : Bool) : Leaves k (k'.ret ok) :=
  ⟨before.ages, before.stack, fun _ _ => Control.noConfusion⟩

theorem raise (before : Within k k') (error : PyError ν) : Leaves k (k'.raise error) :=
  ⟨before.ages, before.stack, fun _ _ => Control.noConfusion⟩

theorem fail (before : Within k k') (error : SchedulerError) : Leaves k (k'.fail error) :=
  ⟨before.ages, before.stack, fun _ _ => Control.noConfusion⟩

theorem crash (before : Within k k') : Leaves k k'.crash :=
  ⟨before.ages, before.stack, fun _ _ => Control.noConfusion⟩

/-! ## Switches -/

/-- A switch or throw into a greenlet. -/
theorem enterGreenlet (before : Within k k') (error : Option (PyError ν)) (fuel : Nat)
    (t : TaskletId) : Leaves k (k'.enterGreenlet error fuel t) := by
  induction fuel generalizing k' t with
  | zero => exact before.crash
  | succ fuel ih =>
      rw [Config.enterGreenlet]
      split
      · exact before.fail _
      · exact ⟨before.ages, before.stack, fun _ _ => Control.noConfusion⟩
      · split
        · exact ih before _
        · exact before.crash
      · next runnable fresh =>
        have other (main : k.state.MainStarted) : t ≠ mainTasklet := by
          intro same
          rw [same, (before.ages.main main).started] at fresh
          cases fresh
        split
        · split
          · exact ⟨before.ages.modifyOther t _ other fun _ => rfl, before.stack,
              fun main same => absurd same (other main)⟩
          · exact before.fail _
        · split
          · have ended : Within k (k'.modifyTasklet t (.setGreenlet .dead)) :=
              ⟨before.ages.modifyOther t _ other fun _ => rfl, before.running, before.stack⟩
            exact ih ended _
          · exact before.crash

/-- The part of `SwitchTo` right before the switch. -/
theorem beginSwitch (before : Within k k') (t : TaskletId) : Within k (k'.beginSwitch t) := by
  have current : Within k (k'.withState (k'.state.setCurrentTasklet t)) :=
    before.withState ((State.Ages.refl _).goesOn rfl (Nat.le_refl _) rfl rfl)
  exact ((current.modifyTasklet t (.setPaused false) fun _ => ⟨rfl, rfl⟩).modifyTasklet t
    (.setFirstRun false) fun _ => ⟨rfl, rfl⟩).push _

/-- `Tasklet::SwitchTo`, up to the switch. -/
theorem switchTo (before : Within k k') (t : TaskletId) : Leaves k (k'.switchTo t) := by
  have entered := before.beginSwitch t
  unfold Config.switchTo
  dsimp only
  apply Leaves.ite (before.fail _)
  apply Leaves.ite (before.fail _)
  apply Leaves.ite (before.fail _)
  apply Leaves.ite (before.fail _)
  split
  · exact (before.modifyTasklet t _ (by exact fun _ => ⟨rfl, rfl⟩)).ret true
  · exact ((before.modifyTasklet t _ (by exact fun _ => ⟨rfl, rfl⟩)).modifyTasklet t _
      (by exact fun _ => ⟨rfl, rfl⟩)).raise _
  · exact entered.enterGreenlet none _ t

/-- `Tasklet::SwitchTo` after the switch came back. -/
theorem switchedBack (before : Within k k') (t : TaskletId) (ok : Bool) :
    Leaves k (k'.switchedBack t ok) := by
  have cleared := before.modifyTasklet t (.setArguments none none) fun _ => ⟨rfl, rfl⟩
  unfold Config.switchedBack
  dsimp only
  split
  · exact (cleared.modifyTasklet _ _ (by exact fun _ => ⟨rfl, rfl⟩)).raise _
  · refine ret (ite ?_ (modifyTasklet ?_ _ _ (by exact fun _ => ⟨rfl, rfl⟩))) ok
    all_goals
      refine modifyTasklet (ite (modifyTasklet ?_ _ _ (by exact fun _ => ⟨rfl, rfl⟩)) ?_) _ _
        (by exact fun _ => ⟨rfl, rfl⟩)
      all_goals exact ite (cleared.modifyTasklet _ _ (by exact fun _ => ⟨rfl, rfl⟩)) cleared

/-! ## The run loop -/

/-- The loop of `Run`, up to the switch. -/
theorem runLoop (before : Within k k') (base : TaskletId) (endTasklet : Option TaskletId)
    (unblocked complete : Bool) : Leaves k (k'.runLoop base endTasklet unblocked complete) := by
  unfold Config.runLoop
  split
  · exact before.ret true
  · exact before.ret true
  split
  · exact before.ret true
  split
  · exact before.ret true
  split
  · exact before.fail _
  next done =>
    have limited := (State.setParent_ages done).trans (State.testRunLimits_ages _)
    exact switchTo ((before.withState limited).push _) _

/-- `ScheduleManager::Run`. -/
theorem run (before : Within k k') (start : Option TaskletId) : Leaves k (k'.run start) := by
  unfold Config.run
  dsimp only
  split
  · split
    · exact before.runLoop _ _ _ _
    · exact before.crash
  · exact before.runLoop _ _ _ _

/-- `ScheduleManager::Yield`. -/
theorem yield (before : Within k k') : Leaves k k'.yield := by
  unfold Config.yield
  dsimp only
  split
  · split
    · split
      · exact before.fail _
      · exact (before.push _).run none
    · exact before.run none
  · split
    · exact (before.push _).switchTo _
    · exact before.crash

/-- The re-entry loop of `Yield`. -/
theorem yieldSwitched (before : Within k k') (t : TaskletId) (ok : Bool) :
    Leaves k (k'.yieldSwitched t ok) := by
  unfold Config.yieldSwitched
  split
  · exact before.ret false
  split
  · split
    · exact (before.push _).switchTo _
    · exact before.crash
  · exact before.ret true

/-- The yield of the blocked main tasklet after its run. -/
theorem yieldRan (before : Within k k') (ok : Bool) : Leaves k (k'.yieldRan ok) :=
  .ite (before.ret false) (.ite (before.fail _) (before.ret true))

/-- The end of `Run` after a failure. -/
theorem runFailed (before : Within k k') (t : TaskletId) : Leaves k (k'.runFailed t) := by
  unfold Config.runFailed
  split
  · split
    · exact before.crash
    · next parent _ =>
      have current : k'.state.Ages (k'.state.setCurrentTasklet parent) :=
        (State.Ages.refl _).goesOn rfl (Nat.le_refl _) rfl rfl
      have left := current.trans (State.removeTasklet_ages _ t)
      generalize (k'.state.setCurrentTasklet parent).removeTasklet t = result at left ⊢
      obtain ⟨s', reported⟩ := result
      exact (before.withState (.ite (left.trans (State.clearParent_ages s' t)) left)).ret false
  · exact (before.withState (State.clearParent_ages _ t)).ret false

/-- `TaskletExit` ends a tasklet without an error. -/
theorem catchExit (before : Within k k') (t : TaskletId) : Within k (k'.catchExit t) := by
  have cleared := before.modifyTasklet t .clearException fun _ => ⟨rfl, rfl⟩
  exact ite ⟨cleared.ages, cleared.running, cleared.stack⟩ before

/-- The iteration of `Run` after a successful switch. -/
theorem runGoesOn (before : Within k k') (base : TaskletId) (endTasklet : Option TaskletId)
    (unblocked : Bool) (t : TaskletId) :
    Leaves k (k'.runGoesOn base endTasklet unblocked t) := by
  unfold Config.runGoesOn
  dsimp only
  split
  · exact before.crash
  · next s' done =>
      have placed := State.runPostSwitch_ages done
      exact (before.withState (.ite placed (placed.trans (State.clearParent_ages s' t)))).runLoop
        _ _ _ _

/-- The iteration of `Run` after its switch. -/
theorem runSwitched (before : Within k k') (base : TaskletId) (endTasklet : Option TaskletId)
    (unblocked : Bool) (t : TaskletId) (ok : Bool) :
    Leaves k (k'.runSwitched base endTasklet unblocked t ok) :=
  .ite ((before.catchExit t).runGoesOn _ _ _ _) (before.runFailed t)

/-- `ScheduleManager::Schedule`. -/
theorem schedule (before : Within k k') (position : RescheduleType) (remove : Bool) :
    Leaves k (k'.schedule position remove) := by
  refine (before.modifyTasklet _ _ ?_).yield
  intro tasklet
  cases remove <;> exact ⟨rfl, rfl⟩

end Within

end CarbonLab.Scheduler
