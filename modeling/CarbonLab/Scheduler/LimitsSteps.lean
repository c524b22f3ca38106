import CarbonLab.Scheduler.Limits
import CarbonLab.Scheduler.OffMain

/-!
# Operations that do not look at the run limits

Every operation that another tasklet does while main waits comes out the same with other
limits and another stack of main, unless it begins or ends a limited run of its own.
-/

namespace CarbonLab.Scheduler

variable {ν : Type}

namespace Config

variable {k : Config ν} (limits : RunLimits) (frames : List Frame)

/-! ## The run loop -/

theorem runLoop_withMain (off : k.OffMain) (base : TaskletId) (endTasklet : Option TaskletId)
    (unblocked complete : Bool) :
    (k.withMain limits frames).runLoop base endTasklet unblocked complete =
      (k.runLoop base endTasklet unblocked complete).withMain limits frames := by
  unfold runLoop
  simp only [withMain_state, State.withLimits_tasklets, State.withLimits_currentTasklet]
  split
  · rfl
  · rfl
  next t _ =>
    have elsewhere : (k.state.currentTasklet == mainTasklet) = false := beq_false_of_ne off.state.current
    rw [elsewhere, Bool.and_false, Bool.and_false, if_neg Bool.false_ne_true,
      if_neg Bool.false_ne_true]
    by_cases same : k.state.currentTasklet = t
    · rw [if_pos same, if_pos same]
      rfl
    · rw [if_neg same, if_neg same, State.setParent_withLimits]
      cases done : k.state.setParent t k.state.currentTasklet with
      | error error => rfl
      | ok s =>
          have notMain := (off.state.goesOn (State.setParent_ages done)
            (State.setParent_current done)).notMain
          obtain ⟨limited, unlimited⟩ := State.testRunLimits_withLimits s limits notMain
          have other : ((k.withState s).push (.run base endTasklet unblocked t)).running ≠
            mainTasklet := off.running
          simp only [Except.map]
          rw [limited, unlimited, withState_withMain,
            push_withMain (k := k.withState s) limits frames off.running,
            switchTo_withMain limits frames other]

theorem run_withMain (off : k.OffMain) (start : Option TaskletId) :
    (k.withMain limits frames).run start = (k.run start).withMain limits frames := by
  cases start with
  | none => exact runLoop_withMain limits frames off _ _ _ _
  | some start =>
      simp only [run, withMain_state, State.withLimits_tasklets]
      cases (k.state.tasklets start).previous with
      | none => rfl
      | some base => exact runLoop_withMain limits frames off _ _ _ _

theorem switchedBack_withMain (k : Config ν) (t : TaskletId) (ok : Bool) :
    (k.withMain limits frames).switchedBack t ok =
      (k.switchedBack t ok).withMain limits frames := by
  simp only [switchedBack, modifyTasklet_withMain, withMain_state, State.withLimits_tasklets,
    State.withLimits_currentTasklet]
  split
  · rfl
  · repeat' split
    all_goals rfl

theorem yield_withMain (off : k.OffMain) :
    (k.withMain limits frames).yield = k.yield.withMain limits frames := by
  simp only [yield, withMain_state, State.withLimits_tasklets, State.withLimits_currentTasklet,
    push_withMain limits frames off.running]
  rw [if_neg off.state.current, if_neg off.state.current]
  split
  · exact switchTo_withMain limits frames (off.push _).running _
  · rfl

theorem unblockedParent_withLimits (s : State ν) (fuel : Nat) (t : TaskletId) :
    unblockedParent (s.withLimits limits) fuel t = unblockedParent s fuel t := by
  induction fuel generalizing t with
  | zero => rfl
  | succ fuel ih =>
      rw [unblockedParent, unblockedParent, State.withLimits_tasklets]
      cases (s.tasklets t).taskletParent with
      | none => rfl
      | some parent =>
          dsimp only
          rw [ih]

theorem yieldSwitched_withMain (other : k.running ≠ mainTasklet) (t : TaskletId) (ok : Bool) :
    (k.withMain limits frames).yieldSwitched t ok =
      (k.yieldSwitched t ok).withMain limits frames := by
  simp only [yieldSwitched, withMain_state, State.withLimits_tasklets,
    State.withLimits_taskletCount, unblockedParent_withLimits,
    push_withMain limits frames other]
  repeat' split
  all_goals first
    | rfl
    | exact @switchTo_withMain _ (k.push _) limits frames other _

theorem yieldRan_withMain (k : Config ν) (ok : Bool) :
    (k.withMain limits frames).yieldRan ok = (k.yieldRan ok).withMain limits frames := by
  simp only [yieldRan, withMain_state, State.withLimits_tasklets]
  repeat' split
  all_goals rfl

theorem schedule_withMain (off : k.OffMain) (position : RescheduleType) (remove : Bool) :
    (k.withMain limits frames).schedule position remove =
      (k.schedule position remove).withMain limits frames := by
  simp only [schedule, withMain_state, State.withLimits_currentTasklet, modifyTasklet_withMain]
  refine yield_withMain limits frames (off.modifyTasklet _ _ ?_)
  intro tasklet
  cases remove <;> exact ⟨rfl, rfl⟩

/-- What follows a switch of a loop whose tasklet is not main. -/
theorem runGoesOn_withMain (other : k.running ≠ mainTasklet) (main : k.state.MainStarted)
    {t parent : TaskletId} (child : (k.state.tasklets t).taskletParent = some parent)
    (notMain : parent ≠ mainTasklet) (base : TaskletId) (endTasklet : Option TaskletId) (unblocked : Bool) :
    (k.withMain limits frames).runGoesOn base endTasklet unblocked t =
      (k.runGoesOn base endTasklet unblocked t).withMain limits frames := by
  simp only [runGoesOn, withMain_state, State.withLimits_tasklets, State.runPostSwitch_withLimits]
  cases done : k.state.runPostSwitch t with
  | none => rfl
  | some s =>
      have placed : s.OffMain := by
        refine ⟨?_, (State.runPostSwitch_ages done).main main⟩
        rw [State.runPostSwitch_current child done]
        exact notMain
      simp only [Option.map_some, State.withLimits_tasklets, State.clearParent_withLimits]
      by_cases alive : (s.tasklets t).alive = true
      · rw [if_pos alive, if_pos alive]
        exact runLoop_withMain limits frames (k := k.withState s) ⟨other, placed⟩ _ _ _ _
      · rw [if_neg alive, if_neg alive]
        exact runLoop_withMain limits frames (k := k.withState (s.clearParent t))
          ⟨other, placed.goesOn (State.clearParent_ages s t) (State.clearParent_current s t)⟩ _ _ _ _

theorem runFailed_withMain (k : Config ν) (t : TaskletId) :
    (k.withMain limits frames).runFailed t = (k.runFailed t).withMain limits frames := by
  have current (s : State ν) (parent : TaskletId) : (s.withLimits limits).setCurrentTasklet parent =
      (s.setCurrentTasklet parent).withLimits limits := rfl
  simp only [runFailed, withMain_state, State.withLimits_tasklets, current,
    State.removeTasklet_withLimits, State.clearParent_withLimits]
  split
  · split
    · rfl
    · split <;> rfl
  · rfl

theorem catchExit_withMain (k : Config ν) (t : TaskletId) :
    (k.withMain limits frames).catchExit t = (k.catchExit t).withMain limits frames := by
  have exits : (k.withMain limits frames).exitRaised = k.exitRaised := rfl
  unfold catchExit
  rw [exits]
  split <;> rfl

/-! ## Tasklets -/

theorem afterInsert_withMain {t : TaskletId} {next : Config ν → Config ν}
    (goes : ∀ s, k.state.Ages s → s.currentTasklet = k.state.currentTasklet → next ((k.withState s).withMain limits frames) =
      (next (k.withState s)).withMain limits frames) :
    (k.withMain limits frames).afterInsert
        ((k.state.insertTasklet t).map fun s => s.withLimits limits) next =
      (k.afterInsert (k.state.insertTasklet t) next).withMain limits frames := by
  unfold afterInsert
  cases inserted : k.state.insertTasklet t with
  | none => rfl
  | some s => exact goes s (State.insertTasklet_ages inserted) (State.insertTasklet_current inserted)

theorem taskletRun_withMain (off : k.OffMain) (t : TaskletId) :
    (k.withMain limits frames).taskletRun t = (k.taskletRun t).withMain limits frames := by
  simp only [taskletRun, withMain_state, State.withLimits_tasklets,
    State.withLimits_useNestedTasklets, State.insertTasklet_withLimits]
  split
  · rfl
  split
  · rfl
  split
  · split
    · exact run_withMain limits frames off _
    · apply afterInsert_withMain
      intro s ages current
      exact run_withMain limits frames (off.withState ages current) _
  · split
    · rw [State.removeTasklet_withLimits, State.insertTaskletToRunNext_withLimits]
      apply schedule_withMain (k := k.withState _)
      exact off.withState ((State.removeTasklet_ages _ t).trans
        (State.insertTaskletToRunNext_ages _ t))
        ((State.insertTaskletToRunNext_current _ t).trans (State.removeTasklet_current _ t))
    · rw [State.insertTaskletToRunNext_withLimits]
      apply schedule_withMain (k := k.withState _)
      exact off.withState (State.insertTaskletToRunNext_ages _ t)
        (State.insertTaskletToRunNext_current _ t)

theorem switchImplementation_withMain (off : k.OffMain) (t : TaskletId) :
    (k.withMain limits frames).switchImplementation t =
      (k.switchImplementation t).withMain limits frames := by
  have paused := off.modifyTasklet k.state.currentTasklet (.setPaused true) fun _ => ⟨rfl, rfl⟩
  simp only [switchImplementation, withMain_state, State.withLimits_tasklets,
    State.withLimits_currentTasklet, modifyTasklet_withMain, State.insertTasklet_withLimits,
    push_withMain limits frames paused.running]
  split
  · rfl
  split
  · rfl
  split
  · exact run_withMain limits frames (paused.push _) _
  · apply afterInsert_withMain
    intro s ages current
    have placed := paused.withState ages current
    rw [push_withMain limits frames placed.running, run_withMain limits frames (placed.push _)]

theorem kill_withMain (off : k.OffMain) (t : TaskletId) (pending : Bool) :
    (k.withMain limits frames).kill t pending = (k.kill t pending).withMain limits frames := by
  have freed : (if (k.state.tasklets t).blocked then k.modifyTasklet t .unblock else k).OffMain := by
    split
    · exact off.modifyTasklet t .unblock fun _ => ⟨rfl, rfl⟩
    · exact off
  have same : (if (k.state.tasklets t).blocked then
        (k.withMain limits frames).modifyTasklet t .unblock else k.withMain limits frames) =
      (if (k.state.tasklets t).blocked then k.modifyTasklet t .unblock else k).withMain limits
        frames := by
    split <;> rfl
  simp only [kill, withMain_state, State.withLimits_tasklets, same]
  generalize (if (k.state.tasklets t).blocked then k.modifyTasklet t .unblock else k) = k₁
    at freed
  have exits := freed.modifyTasklet t (.setExceptionState .taskletExit) fun _ => ⟨rfl, rfl⟩
  have rescheduled := exits.modifyTasklet t (.setReschedule .none) fun _ => ⟨rfl, rfl⟩
  simp only [modifyTasklet_withMain, withMain_state, State.withLimits_currentTasklet,
    State.insertTasklet_withLimits, push_withMain limits frames rescheduled.running]
  split
  · rfl
  split
  · rfl
  split
  · apply afterInsert_withMain
    intro s _ _
    simp only [modifyTasklet_withMain, withMain_state, State.removeTaskletFromBlocked_withLimits]
    split
    · split <;> rfl
    · rfl
  · exact taskletRun_withMain limits frames (rescheduled.push _) t

theorem throwException_withMain (off : k.OffMain) (t : TaskletId) (exception : PyError ν)
    (pending : Bool) : (k.withMain limits frames).throwException t exception pending =
      (k.throwException t exception pending).withMain limits frames := by
  have set := off.modifyTasklet t (.setExceptionState exception) fun _ => ⟨rfl, rfl⟩
  have freed := set.modifyTasklet t .unblock fun _ => ⟨rfl, rfl⟩
  simp only [throwException, withMain_state, State.withLimits_tasklets, modifyTasklet_withMain,
    State.withLimits_currentTasklet, State.insertTasklet_withLimits,
    push_withMain limits frames freed.running]
  split
  · rfl
  split
  · split
    · exact afterInsert_withMain limits frames fun _ _ _ => rfl
    · split <;> rfl
  split
  · exact taskletRun_withMain limits frames (freed.push _) t
  split
  · exact taskletRun_withMain limits frames set t
  · split <;> rfl

theorem insert_withMain (k : Config ν) (t : TaskletId) :
    (k.withMain limits frames).insert t = (k.insert t).withMain limits frames := by
  simp only [insert, withMain_state, State.withLimits_tasklets, State.insertTasklet_withLimits]
  split
  · rfl
  split
  · rfl
  · exact afterInsert_withMain limits frames fun _ _ _ => rfl

theorem remove_withMain (k : Config ν) (t : TaskletId) :
    (k.withMain limits frames).remove t = (k.remove t).withMain limits frames := by
  simp only [remove, withMain_state, State.withLimits_tasklets, State.removeTasklet_withLimits]
  split <;> rfl

theorem hasLiveGreenlet_withMain (k : Config ν) (t : TaskletId) :
    (k.withMain limits frames).HasLiveGreenlet t = k.HasLiveGreenlet t :=
  rfl

/-- What follows the release of a greenlet that is not live. -/
theorem dropGreenlet_bind_withMain (k : Config ν) (t : TaskletId) {goOn : Config ν → Option (Config ν)}
    (same : goOn (k.withMain limits frames) = (goOn k).map fun k => k.withMain limits frames) :
    ((k.withMain limits frames).dropGreenlet .never t).bind goOn =
      ((k.dropGreenlet .never t).bind goOn).map fun k => k.withMain limits frames := by
  rw [dropGreenlet, dropGreenlet, hasLiveGreenlet_withMain]
  split
  · rfl
  · exact same

theorem bind_withMain (k : Config ν) (t : TaskletId) (callable : Bool)
    (arguments kwArguments : Option Bool) :
    (k.withMain limits frames).bind .never t callable arguments kwArguments =
      (k.bind .never t callable arguments kwArguments).map fun k => k.withMain limits frames := by
  have same : (if callable then (k.withMain limits frames).modifyTasklet t (.setCallable true)
        else k.withMain limits frames) =
      (if callable then k.modifyTasklet t (.setCallable true) else k).withMain limits frames := by
    split <;> rfl
  simp only [bind, same]
  generalize (if callable then k.modifyTasklet t (.setCallable true) else k) = k₁
  simp only [modifyTasklet_withMain, withMain_state, State.withLimits_tasklets]
  split
  · exact dropGreenlet_bind_withMain limits frames _ t rfl
  · rfl

theorem unBind_withMain (k : Config ν) (t : TaskletId) :
    (k.withMain limits frames).unBind .never t =
      (k.unBind .never t).map fun k => k.withMain limits frames := by
  simp only [unBind, modifyTasklet_withMain, withMain_state, State.withLimits_tasklets,
    State.withLimits_currentTasklet]
  split
  · rfl
  split
  · rfl
  · exact dropGreenlet_bind_withMain limits frames _ t rfl

theorem setup_withMain (k : Config ν) (t : TaskletId) (arguments kwArguments : Option Bool) :
    (k.withMain limits frames).setup .never t arguments kwArguments =
      (k.setup .never t arguments kwArguments).map fun k => k.withMain limits frames := by
  simp only [setup, modifyTasklet_withMain, withMain_state, State.withLimits_tasklets]
  split
  · rfl
  refine dropGreenlet_bind_withMain limits frames _ t ?_
  simp only [modifyTasklet_withMain, withMain_state, withMain_running, State.withLimits_tasklets,
    insert_withMain]
  split <;> rfl

theorem endBody_withMain (k : Config ν) (error : Option (PyError ν)) :
    (k.withMain limits frames).endBody error =
      (k.endBody error).map fun k => k.withMain limits frames := by
  simp only [endBody, withMain_running, withMain_state, State.withLimits_tasklets,
    State.withLimits_taskletCount, modifyTasklet_withMain, enterGreenlet_withMain]
  split
  · rfl
  · cases (k.state.tasklets k.running).greenletParent <;> rfl

/-! ## Channels -/

theorem sendBlocks_withMain (off : k.OffMain) (c : ChannelId) (current : TaskletId)
    (message : Message ν) : (k.withMain limits frames).sendBlocks c current message =
      (k.sendBlocks c current message).withMain limits frames := by
  simp only [sendBlocks, withMain_state, State.withLimits_tasklets, State.withLimits_channels,
    State.addTaskletToWaitingToSend_withLimits]
  split
  · rfl
  split
  · rfl
  · have waits := ((off.withState (State.addTaskletToWaitingToSend_ages _ c current)
      (State.addTaskletToWaitingToSend_current _ c current)).modifyTasklet current
      (.block c) fun _ => ⟨rfl, rfl⟩).withState (State.updateCloseState_ages _ c) rfl
    have given := waits.modifyTasklet current
      (.setTransferArguments message.arguments message.exception message.restore)
        fun _ => ⟨rfl, rfl⟩
    rw [← yield_withMain limits frames (given.push _), ← push_withMain limits frames given.running]
    rfl

theorem resumeReceiver_withMain (off : k.OffMain) (c : ChannelId) (current receiving : TaskletId) :
    (k.withMain limits frames).resumeReceiver c current receiving =
      (k.resumeReceiver c current receiving).withMain limits frames := by
  simp only [resumeReceiver, withMain_state, State.withLimits_channels,
    State.insertTaskletToRunNext_withLimits, State.insertTasklet_withLimits]
  split
  · have placed := off.withState (State.insertTaskletToRunNext_ages k.state receiving)
      (State.insertTaskletToRunNext_current k.state receiving)
    rw [withState_withMain, push_withMain limits frames placed.running,
      schedule_withMain limits frames (placed.push _)]
  · exact afterInsert_withMain limits frames fun _ _ _ => rfl

theorem sendTo_withMain (off : k.OffMain) (c : ChannelId) (current receiving : TaskletId)
    (message : Message ν) : (k.withMain limits frames).sendTo c current receiving message =
      (k.sendTo c current receiving message).withMain limits frames := by
  have given := (off.modifyTasklet receiving .unblock fun _ => ⟨rfl, rfl⟩).modifyTasklet receiving
    (.setTransferArguments message.arguments message.exception message.restore) fun _ => ⟨rfl, rfl⟩
  have closed := (given.record (.handed (k.calls current) (k.calls receiving))).withState
    (State.updateCloseState_ages _ c) rfl
  exact resumeReceiver_withMain limits frames closed c current receiving

theorem send_withMain (off : k.OffMain) (c : ChannelId) (message : Message ν) :
    (k.withMain limits frames).send c message = (k.send c message).withMain limits frames := by
  have called := (off.recordCall c (.send message)).modifyTasklet k.state.currentTasklet
    (.setTransferInProgress true) fun _ => ⟨rfl, rfl⟩
  simp only [send, withMain_state, State.withLimits_currentTasklet, recordCall_withMain,
    modifyTasklet_withMain]
  generalize (k.recordCall c (.send message)).modifyTasklet k.state.currentTasklet
    (.setTransferInProgress true) = k₁ at called
  have ages := State.popNextTaskletBlocked_ages k₁.state .receiver c
  have current := State.popNextTaskletBlocked_current k₁.state .receiver c
  unfold State.popNextTaskletBlockedOnReceive
  rw [State.popNextTaskletBlocked_withLimits]
  generalize k₁.state.popNextTaskletBlocked .receiver c = result at ages current
  obtain ⟨s, receiving⟩ := result
  cases receiving with
  | none => exact sendBlocks_withMain limits frames called c _ message
  | some receiving => exact sendTo_withMain limits frames (called.withState ages current) c _ receiving message

theorem sendFailed_withMain (k : Config ν) (c : ChannelId) (current : TaskletId) :
    (k.withMain limits frames).sendFailed c current =
      (k.sendFailed c current).withMain limits frames := by
  simp only [sendFailed, modifyTasklet_withMain, withMain_state,
    State.removeTaskletFromBlocked_withLimits]
  rfl

theorem receiveDone_withMain (k : Config ν) (c : ChannelId) (current : TaskletId) :
    (k.withMain limits frames).receiveDone c current =
      (k.receiveDone c current).withMain limits frames := by
  simp only [receiveDone, withMain_state, State.withLimits_tasklets]
  split
  all_goals rfl

theorem receiveFailed_withMain (k : Config ν) (c : ChannelId) (current : TaskletId) :
    (k.withMain limits frames).receiveFailed c current =
      (k.receiveFailed c current).withMain limits frames := by
  simp only [receiveFailed, withMain_state, State.removeTaskletFromBlocked_withLimits]
  rfl

theorem receiveBlocks_withMain (off : k.OffMain) (c : ChannelId) (current : TaskletId) :
    (k.withMain limits frames).receiveBlocks c current =
      (k.receiveBlocks c current).withMain limits frames := by
  have waits := off.withState (State.addTaskletToWaitingToReceive_ages _ c current)
    (State.addTaskletToWaitingToReceive_current _ c current)
  have blocked := (waits.modifyTasklet current (.block c) fun _ => ⟨rfl, rfl⟩).withState
    (State.updateCloseState_ages _ c) rfl
  simp only [receiveBlocks, withMain_state, State.addTaskletToWaitingToReceive_withLimits,
    withState_withMain]
  generalize k.withState (k.state.addTaskletToWaitingToReceive c current) = k₁ at waits blocked
  simp only [State.withLimits_tasklets, State.withLimits_channels]
  split
  · simp only [refuseReceive, withMain_state, State.removeTaskletFromBlocked_withLimits]
    rfl
  split
  · simp only [refuseReceive, withMain_state, State.removeTaskletFromBlocked_withLimits]
    rfl
  · rw [← yield_withMain limits frames (blocked.push _), ← push_withMain limits frames blocked.running]
    rfl

theorem resumeSender_withMain (off : k.OffMain) (c : ChannelId) (current sending : TaskletId) :
    (k.withMain limits frames).resumeSender c current sending =
      (k.resumeSender c current sending).withMain limits frames := by
  simp only [resumeSender, withMain_state, State.withLimits_channels,
    State.insertTaskletToRunNext_withLimits, State.insertTasklet_withLimits]
  split
  · have placed := off.withState (State.insertTaskletToRunNext_ages k.state sending)
      (State.insertTaskletToRunNext_current k.state sending)
    rw [withState_withMain, push_withMain limits frames placed.running,
      schedule_withMain limits frames (placed.push _)]
  · apply afterInsert_withMain
    intro s _ _
    exact receiveDone_withMain limits frames _ c current

theorem receiveFrom_withMain (off : k.OffMain) (c : ChannelId) (current sending : TaskletId) :
    (k.withMain limits frames).receiveFrom c current sending =
      (k.receiveFrom c current sending).withMain limits frames := by
  have freed := (off.modifyTasklet sending .unblock fun _ => ⟨rfl, rfl⟩).modifyTasklet sending
    (.setTransferInProgress false) fun _ => ⟨rfl, rfl⟩
  simp only [receiveFrom, modifyTasklet_withMain]
  generalize (k.modifyTasklet sending .unblock).modifyTasklet sending
    (.setTransferInProgress false) = k₁ at freed
  simp only [withMain_state, State.withLimits_tasklets]
  cases (k₁.state.tasklets sending).transferArguments with
  | none => rfl
  | some arguments =>
      have given := (freed.modifyTasklet current (.setTransferArguments arguments
        (k₁.state.tasklets sending).transferException
        (k₁.state.tasklets sending).restoreException)
          fun _ => ⟨rfl, rfl⟩).modifyTasklet sending .clearTransferArguments fun _ => ⟨rfl, rfl⟩
      have closed := (given.record (.handed (k₁.calls sending) (k₁.calls current))).withState
        (State.updateCloseState_ages _ c) rfl
      exact resumeSender_withMain limits frames closed c current sending

theorem receive_withMain (off : k.OffMain) (c : ChannelId) :
    (k.withMain limits frames).receive c = (k.receive c).withMain limits frames := by
  have called := (off.recordCall c .receive).modifyTasklet k.state.currentTasklet
    (.setTransferInProgress true) fun _ => ⟨rfl, rfl⟩
  simp only [receive, withMain_state, State.withLimits_currentTasklet, recordCall_withMain,
    modifyTasklet_withMain]
  generalize (k.recordCall c .receive).modifyTasklet k.state.currentTasklet
    (.setTransferInProgress true) = k₁ at called
  have ages := State.popNextTaskletBlocked_ages k₁.state .sender c
  have current := State.popNextTaskletBlocked_current k₁.state .sender c
  unfold State.popNextTaskletBlockedOnSend
  rw [State.popNextTaskletBlocked_withLimits]
  generalize k₁.state.popNextTaskletBlocked .sender c = result at ages current
  obtain ⟨s, sending⟩ := result
  cases sending with
  | none => exact receiveBlocks_withMain limits frames called c _
  | some sending => exact receiveFrom_withMain limits frames (called.withState ages current) c _ sending

theorem clearSenders_withMain (off : k.OffMain) (c : ChannelId) (pending : Bool) :
    (k.withMain limits frames).clearSenders c pending =
      (k.clearSenders c pending).withMain limits frames := by
  simp only [clearSenders, withMain_state, State.withLimits_channels,
    push_withMain limits frames off.running]
  split
  · exact kill_withMain limits frames (off.push _) _ pending
  · rfl

theorem clearBlocked_withMain (off : k.OffMain) (c : ChannelId) (pending : Bool) :
    (k.withMain limits frames).clearBlocked c pending =
      (k.clearBlocked c pending).withMain limits frames := by
  simp only [clearBlocked, withMain_state, State.withLimits_channels,
    push_withMain limits frames off.running]
  split
  · exact kill_withMain limits frames (off.push _) _ pending
  · exact clearSenders_withMain limits frames off c pending

end Config

/-! ## Steps -/

/-- The call sets limits of its own. -/
def Action.setsLimits : Action ν → Bool
  | .runNTasklets _ | .runTaskletsForTime _ => true
  | _ => false

/-- The end of the call takes the limits back. -/
def Frame.setsLimits : Frame → Bool
  | .runLimited _ => true
  | _ => false

namespace Config

/-- The step begins or ends a limited run. -/
def setsLimits (k : Config ν) : Option (Action ν) → Bool
  | some action => action.setsLimits
  | none => (k.stack k.running).head?.any Frame.setsLimits

/-- The tasklet that is current when the step enters a run loop, if it does. -/
def loopTasklet (k : Config ν) : Option (Action ν) → Option TaskletId
  | some _ => some k.state.currentTasklet
  | none =>
      match k.stack k.running with
      | .run _ _ _ t :: _ => (k.state.tasklets t).taskletParent
      | _ => some k.state.currentTasklet

variable {k : Config ν} (limits : RunLimits) (frames : List Frame)

theorem runSwitched_withMain (other : k.running ≠ mainTasklet) (main : k.state.MainStarted)
    {t : TaskletId} (notMain : (k.state.tasklets t).taskletParent ≠ some mainTasklet)
    (base : TaskletId) (endTasklet : Option TaskletId) (unblocked ok : Bool) :
    (k.withMain limits frames).runSwitched base endTasklet unblocked t ok =
      (k.runSwitched base endTasklet unblocked t ok).withMain limits frames := by
  have exits : (k.withMain limits frames).exitRaised = k.exitRaised := rfl
  unfold runSwitched
  rw [exits]
  split
  · have caught : (k.catchExit t).running = k.running ∧ (k.catchExit t).state.MainStarted ∧
        ((k.catchExit t).state.tasklets t).taskletParent = (k.state.tasklets t).taskletParent := by
      refine ⟨((Within.refl k).catchExit t).running, ((Within.refl k).catchExit t).ages.main main, ?_⟩
      unfold catchExit
      split
      · simp
      · rfl
    obtain ⟨running, started, same⟩ := caught
    rw [catchExit_withMain]
    cases child : (k.state.tasklets t).taskletParent with
    | none =>
        have crashes : (k.catchExit t).state.runPostSwitch t = none := by
          rw [State.runPostSwitch, same, child]
          rfl
        simp only [runGoesOn, withMain_state, State.runPostSwitch_withLimits, crashes]
        rfl
    | some parent =>
        rw [child] at notMain
        exact runGoesOn_withMain limits frames (running ▸ other) started (same.trans child)
          (fun is => notMain (congrArg some is)) base endTasklet unblocked
  · exact runFailed_withMain limits frames k t

/-- Every return but that from a limited run. -/
theorem resumeFrame_withMain (off : k.OffMain) {frame : Frame} (spares : frame.setsLimits = false)
    (inside : ∀ base endTasklet unblocked t, frame ≠ .run base endTasklet unblocked t) (ok : Bool) :
    (k.withMain limits frames).resumeFrame frame ok =
      (k.resumeFrame frame ok).withMain limits frames := by
  cases frame with
  | switchTo t => exact switchedBack_withMain limits frames k t ok
  | run base endTasklet unblocked t => exact absurd rfl (inside base endTasklet unblocked t)
  | yieldBlockedMain => exact yieldRan_withMain limits frames k ok
  | yieldSwitch t => exact yieldSwitched_withMain limits frames off.running t ok
  | runLimited timed => cases spares
  | switchScheduled =>
      cases ok with
      | true => exact yield_withMain limits frames off
      | false => rfl
  | switchUnscheduled => rfl
  | kill t blocked channel =>
      simp only [resumeFrame]
      split <;> rfl
  | throwBlocked t channel => cases ok <;> rfl
  | clearBlocked c pending senders =>
      cases senders with
      | false => exact clearBlocked_withMain limits frames off c pending
      | true => exact clearSenders_withMain limits frames off c pending
  | sendBlocked c current =>
      cases ok with
      | true => rfl
      | false => exact sendFailed_withMain limits frames k c current
  | sendHanded c current => cases ok <;> rfl
  | receiveBlocked c current =>
      cases ok with
      | true => exact receiveDone_withMain limits frames k c current
      | false => exact receiveFailed_withMain limits frames k c current
  | receiveHanded c current =>
      cases ok with
      | true => exact receiveDone_withMain limits frames k c current
      | false => rfl

theorem resume_withMain (other : k.running ≠ mainTasklet) (main : k.state.MainStarted)
    (spares : k.setsLimits none = false) (notMain : k.loopTasklet none ≠ some mainTasklet) (ok : Bool) :
    (k.withMain limits frames).resume ok = (k.resume ok).withMain limits frames := by
  unfold resume
  rw [withMain_running, withMain_stack_other limits frames other, pop_withMain limits frames other]
  unfold setsLimits at spares
  unfold loopTasklet at notMain
  cases stack : k.stack k.running with
  | nil => rfl
  | cons frame rest =>
      rw [stack] at spares notMain
      dsimp only at spares notMain ⊢
      by_cases inside : ∃ base endTasklet unblocked t, frame = .run base endTasklet unblocked t
      · obtain ⟨base, endTasklet, unblocked, t, rfl⟩ := inside
        exact runSwitched_withMain (k := k.pop) limits frames other main notMain _ _ _ _
      · have current : k.state.currentTasklet ≠ mainTasklet := by
          intro same
          refine notMain ?_
          rw [← same]
          split
          · next base endTasklet unblocked t rest is =>
            obtain ⟨rfl, -⟩ := List.cons.inj is
            exact absurd ⟨base, endTasklet, unblocked, t, rfl⟩ inside
          · rfl
        exact resumeFrame_withMain (k := k.pop) limits frames ⟨other, current, main⟩ spares
          (fun base endTasklet unblocked t is => inside ⟨base, endTasklet, unblocked, t, is⟩) ok

theorem act_withMain (off : k.OffMain) {action : Action ν} (spares : action.setsLimits = false) :
    (k.withMain limits frames).act action =
      (k.act action).map fun k => k.withMain limits frames := by
  cases action with
  | create callable => rfl
  | bind t callable arguments kwArguments => exact bind_withMain limits frames k _ _ _ _
  | unBind t => exact unBind_withMain limits frames k t
  | setup t arguments kwArguments => exact setup_withMain limits frames k _ _ _
  | insert t => exact congrArg some (insert_withMain limits frames k t)
  | remove t => exact congrArg some (remove_withMain limits frames k t)
  | run t => exact congrArg some (taskletRun_withMain limits frames off t)
  | switch t => exact congrArg some (switchImplementation_withMain limits frames off t)
  | kill t pending => exact congrArg some (kill_withMain limits frames off t pending)
  | throw t exception pending =>
      exact congrArg some (throwException_withMain limits frames off t exception pending)
  | schedule => exact congrArg some (schedule_withMain limits frames off _ _)
  | scheduleRemove => exact congrArg some (schedule_withMain limits frames off _ _)
  | schedulerRun => exact congrArg some (run_withMain limits frames off none)
  | runNTasklets number => cases spares
  | runTaskletsForTime timeout => cases spares
  | send c message => exact congrArg some (send_withMain limits frames off c message)
  | receive c => exact congrArg some (receive_withMain limits frames off c)
  | clear c pending => exact congrArg some (clearBlocked_withMain limits frames off c pending)
  | close c => rfl
  | «open» c => rfl
  | setPreference c preference => rfl
  | setBlocktrap t value => rfl
  | switchTrap delta => rfl
  | setUseNestedTasklets value => rfl
  | finish => exact endBody_withMain limits frames k none
  | raise error => exact endBody_withMain limits frames k (some error)

/-- A step of another tasklet comes out the same with other limits and another stack of
main. -/
theorem step_withMain (other : k.running ≠ mainTasklet) (main : k.state.MainStarted)
    {label : Option (Action ν)} (spares : k.setsLimits label = false)
    (notMain : k.loopTasklet label ≠ some mainTasklet) :
    (k.withMain limits frames).step label =
      (k.step label).map fun k => k.withMain limits frames := by
  cases label with
  | some action =>
      have off : k.OffMain := ⟨other, fun same => notMain (congrArg some same), main⟩
      simp only [step, stepWith, withMain_control, withMain_state, State.withLimits_taskletCount]
      split
      · exact act_withMain limits frames off spares
      · rfl
  | none =>
      simp only [step, stepWith, withMain_control]
      split
      · exact congrArg some (resume_withMain limits frames other main spares notMain _)
      · rfl

end Config

end CarbonLab.Scheduler
