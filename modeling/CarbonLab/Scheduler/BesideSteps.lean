import CarbonLab.Lib.Transition
import CarbonLab.Scheduler.Beside

/-!
# Steps beside main

No step of a tasklet touches the stack of main while main waits, gives main back its
Python code, or turns the clock back.
-/

namespace CarbonLab.Scheduler

open Transition

variable {ν : Type}

namespace Within

variable {k k' k'' : Config ν}

/-! ## Tasklets -/

/-- An insertion into the run queue and what follows it. -/
theorem afterInsert (before : Within k k') {t : TaskletId} {next : Config ν → Config ν}
    (goes : ∀ s, Within k (k'.withState s) → Leaves k (next (k'.withState s))) :
    Leaves k (k'.afterInsert (k'.state.insertTasklet t) next) := by
  unfold Config.afterInsert
  split
  · next s' done => exact goes s' (before.withState (State.insertTasklet_ages done))
  · exact before.crash

/-- `Tasklet::Run`. -/
theorem taskletRun (before : Within k k') (t : TaskletId) : Leaves k (k'.taskletRun t) := by
  unfold Config.taskletRun
  dsimp only
  refine .ite (before.fail _) (.ite (before.fail _) (.ite (.ite (before.run _) ?_) ?_))
  · exact before.afterInsert fun s inserted => inserted.run _
  · refine (before.withState (State.Ages.trans ?_
      (State.insertTaskletToRunNext_ages _ t))).schedule _ _
    split
    · exact State.removeTasklet_ages _ t
    · exact .refl _

/-- `Tasklet::SwitchImplementation`. -/
theorem switchImplementation (before : Within k k') (t : TaskletId) :
    Leaves k (k'.switchImplementation t) := by
  have paused := before.modifyTasklet k'.state.currentTasklet (.setPaused true) fun _ => ⟨rfl, rfl⟩
  unfold Config.switchImplementation
  dsimp only
  refine .ite (before.fail _) (.ite (before.fail _) (.ite ((paused.push _).run _) ?_))
  exact paused.afterInsert fun s inserted => (inserted.push _).run _

/-- `Tasklet::Kill`. -/
theorem kill (before : Within k k') (t : TaskletId) (pending : Bool) :
    Leaves k (k'.kill t pending) := by
  have freed : Within k (if (k'.state.tasklets t).blocked then k'.modifyTasklet t .unblock else k') :=
    ite (before.modifyTasklet t .unblock fun _ => ⟨rfl, rfl⟩) before
  simp only [Config.kill]
  generalize (if (k'.state.tasklets t).blocked then k'.modifyTasklet t .unblock else k') = k₁
    at freed ⊢
  have exits := freed.modifyTasklet t (.setExceptionState .taskletExit) fun _ => ⟨rfl, rfl⟩
  refine .ite (before.ret true) (.ite ((exits.modifyTasklet t _
    (by exact fun _ => ⟨rfl, rfl⟩)).raise _) (.ite ?_ ?_))
  · apply exits.afterInsert
    intro s inserted
    have marked := (inserted.modifyTasklet t (.setReschedule .none)
      fun _ => ⟨rfl, rfl⟩).modifyTasklet t
      (.setKillPending true) fun _ => ⟨rfl, rfl⟩
    refine .ite ?_ (marked.ret true)
    split
    · exact ((marked.withState (State.removeTaskletFromBlocked_ages _ _ t)).modifyTasklet t _
        (by exact fun _ => ⟨rfl, rfl⟩)).ret
        true
    · exact marked.crash
  · exact ((exits.modifyTasklet t (.setReschedule .none) fun _ => ⟨rfl, rfl⟩).push _).taskletRun t

/-- `Tasklet::ThrowException`. -/
theorem throwException (before : Within k k') (t : TaskletId) (exception : PyError ν)
    (pending : Bool) : Leaves k (k'.throwException t exception pending) := by
  have set := before.modifyTasklet t (.setExceptionState exception) fun _ => ⟨rfl, rfl⟩
  have cleared := set.modifyTasklet t .clearException fun _ => ⟨rfl, rfl⟩
  unfold Config.throwException
  dsimp only
  refine .ite (cleared.raise _) (.ite (.ite ?_ (.ite (cleared.ret true) (cleared.fail _)))
    (.ite ?_ (.ite (set.taskletRun t) (.ite (cleared.ret true) (cleared.fail _)))))
  · exact set.afterInsert fun s inserted => inserted.ret true
  · exact ((set.modifyTasklet t .unblock fun _ => ⟨rfl, rfl⟩).push _).taskletRun t

/-- `Tasklet::Insert`. -/
theorem insert (before : Within k k') (t : TaskletId) : Leaves k (k'.insert t) :=
  .ite (before.fail _) (.ite (before.fail _) (before.afterInsert fun _ inserted =>
    (inserted.modifyTasklet t _ (by exact fun _ => ⟨rfl, rfl⟩)).ret true))

/-- `Tasklet::Remove`. -/
theorem remove (before : Within k k') (t : TaskletId) : Leaves k (k'.remove t) :=
  .ite (((before.withState (State.removeTasklet_ages _ t)).modifyTasklet t _
    (by exact fun _ => ⟨rfl, rfl⟩)).ret true)
    (before.ret true)

/-- `TaskletInit`. -/
theorem create (before : Within k k') (callable : Bool) : Leaves k (k'.create callable) := by
  have made : k.state.Ages (k'.create callable).state := by
    refine ⟨before.ages.clock, before.ages.clockReads, fun main => ?_⟩
    have later := before.ages.main main
    have other : mainTasklet ≠ k'.state.taskletCount := Nat.ne_of_lt later.counted
    simp only [Config.create, Config.ret_state, Config.modifyTasklet_state, Config.withState_state]
    refine ⟨?_, Nat.succ_pos _, fun t => ?_⟩
    · rw [State.modifyTasklet_tasklets, Function.update_of_ne other]
      exact later.started
    · rw [State.modifyTasklet_tasklets, Function.update_apply]
      split
      · next same =>
        rw [same]
        exact iff_of_false Bool.false_ne_true other.symm
      · exact later.isMain t
  exact ⟨made, before.stack, fun _ _ => Control.noConfusion⟩

/-- The greenlet of a tasklet is made anew. -/
theorem remake (before : Within k k') {t : TaskletId} (change : Tasklet ν → Tasklet ν)
    (idle : k'.HasLiveGreenlet t = false) (only : KeepsMain change) :
    Within k (k'.modifyTasklet t change) := by
  refine ⟨before.ages.modifyOther t change (fun main same => ?_) only, before.running, before.stack⟩
  rw [same, Config.HasLiveGreenlet, (before.ages.main main).started] at idle
  cases idle

/-- `Tasklet::Bind`. -/
theorem bind (before : Within k k') {t : TaskletId} {callable : Bool}
    {arguments kwArguments : Option Bool} (done : k'.bind .never t callable arguments kwArguments = some k'') :
    Leaves k k'' := by
  have called : Within k (if callable then k'.modifyTasklet t (.setCallable true) else k') :=
    ite (before.modifyTasklet t (.setCallable true) fun _ => ⟨rfl, rfl⟩) before
  simp only [Config.bind, Option.bind_eq_bind] at done
  generalize (if callable then k'.modifyTasklet t (.setCallable true) else k') = k₁ at called done
  have given := called.modifyTasklet t (.setArguments (arguments.or (k₁.state.tasklets t).arguments)
    (kwArguments.or (k₁.state.tasklets t).kwArguments)) fun _ => ⟨rfl, rfl⟩
  split at done
  · obtain ⟨_, dropped, initialised⟩ := Option.bind_eq_some_iff.mp done
    obtain ⟨idle, rfl⟩ := Config.dropGreenlet_never.mp dropped
    cases initialised
    have made := given.remake (.initialise k₁.running) idle fun _ => rfl
    exact (made.modifyTasklet t (.setAlive true) fun _ => ⟨rfl, rfl⟩).ret true
  · cases done
    exact given.ret true

/-- `Tasklet::UnBind`. -/
theorem unBind (before : Within k k') {t : TaskletId} (done : k'.unBind .never t = some k'') :
    Leaves k k'' := by
  simp only [Config.unBind, Option.bind_eq_bind] at done
  split at done
  · cases done
    exact before.fail _
  split at done
  · cases done
    exact before.fail _
  obtain ⟨_, dropped, unbound⟩ := Option.bind_eq_some_iff.mp done
  obtain ⟨idle, rfl⟩ := Config.dropGreenlet_never.mp dropped
  cases unbound
  exact (((before.modifyTasklet t (.setCallable false) fun _ => ⟨rfl, rfl⟩).modifyTasklet t
    (.setArguments none _) fun _ => ⟨rfl, rfl⟩).remake .uninitialise idle fun _ => rfl).ret true

/-- `Tasklet::Setup`. -/
theorem setup (before : Within k k') {t : TaskletId} {arguments kwArguments : Option Bool}
    (done : k'.setup .never t arguments kwArguments = some k'') : Leaves k k'' := by
  have given := before.modifyTasklet t (.setArguments arguments kwArguments) fun _ => ⟨rfl, rfl⟩
  simp only [Config.setup, Option.bind_eq_bind] at done
  split at done
  · cases done
    exact before.fail _
  obtain ⟨_, dropped, initialised⟩ := Option.bind_eq_some_iff.mp done
  obtain ⟨idle, rfl⟩ := Config.dropGreenlet_never.mp dropped
  have made := given.remake (.initialise k'.running) idle fun _ => rfl
  have bound := made.modifyTasklet t (.setAlive true) fun _ => ⟨rfl, rfl⟩
  split at initialised
  · cases initialised
    refine ((bound.remake .uninitialise ?_ fun _ => rfl).modifyTasklet t (.setArguments none none)
      fun _ => ⟨rfl, rfl⟩).fail _
    simp [Config.HasLiveGreenlet]
  · obtain rfl := Option.some.inj initialised
    exact bound.insert t

/-- The end of the running tasklet's body. -/
theorem endBody (before : Within k k') {error : Option (PyError ν)}
    (done : k'.endBody error = some k'') : Leaves k k'' := by
  unfold Config.endBody at done
  split at done
  · cases done
  next other =>
  split at done
  · cases done
  · next parent _ =>
    cases done
    have ended : Within k (k'.modifyTasklet k'.running (.setGreenlet .dead)) :=
      ⟨before.ages.modifyOther _ _ (fun _ => other) fun _ => rfl, before.running, before.stack⟩
    exact ended.enterGreenlet error _ parent

/-! ## Channels -/

theorem failCall (before : Within k k') (t : TaskletId) : Leaves k (k'.failCall t) :=
  (before.record _).ret false

theorem refuseCall (before : Within k k') (t : TaskletId) (error : SchedulerError) :
    Leaves k (k'.refuseCall t error) := by
  have failed : Within k (k'.fail error) := ⟨before.ages, before.running, before.stack⟩
  exact failed.failCall t

theorem sendDone (before : Within k k') (c : ChannelId) (current : TaskletId) :
    Leaves k (k'.sendDone c current) :=
  (((before.modifyTasklet current (.setTransferInProgress false)
    fun _ => ⟨rfl, rfl⟩).updateCloseState c).record _).ret
    true

/-- `Channel::Send` without a waiting receiver. -/
theorem sendBlocks (before : Within k k') (c : ChannelId) (current : TaskletId)
    (message : Message ν) : Leaves k (k'.sendBlocks c current message) := by
  refine .ite (before.refuseCall _ _) (.ite (before.refuseCall _ _) ?_)
  have waits := before.withState (State.addTaskletToWaitingToSend_ages _ c current)
  exact ((((waits.modifyTasklet current (.block c)
    fun _ => ⟨rfl, rfl⟩).updateCloseState c).modifyTasklet current
    (.setTransferArguments message.arguments message.exception message.restore)
      fun _ => ⟨rfl, rfl⟩).push _).yield

theorem resumeReceiver (before : Within k k') (c : ChannelId) (current receiving : TaskletId) :
    Leaves k (k'.resumeReceiver c current receiving) := by
  refine .ite (((before.withState (State.insertTaskletToRunNext_ages _ _)).push _).schedule _ _)
    (before.afterInsert fun s inserted => inserted.sendDone c current)

/-- `Channel::Send`. -/
theorem send (before : Within k k') (c : ChannelId) (message : Message ν) :
    Leaves k (k'.send c message) := by
  have called := (before.recordCall c (.send message)).modifyTasklet k'.state.currentTasklet
    (.setTransferInProgress true) fun _ => ⟨rfl, rfl⟩
  have popped := State.popNextTaskletBlocked_ages ((k'.recordCall c (.send message)).modifyTasklet
    k'.state.currentTasklet (.setTransferInProgress true)).state .receiver c
  unfold Config.send
  dsimp only
  split
  · exact called.sendBlocks c _ message
  · next s receiving found =>
    rw [State.popNextTaskletBlockedOnReceive] at found
    rw [found] at popped
    have freed := (called.withState popped).modifyTasklet receiving .unblock fun _ => ⟨rfl, rfl⟩
    have given := freed.modifyTasklet receiving
      (.setTransferArguments message.arguments message.exception message.restore)
        fun _ => ⟨rfl, rfl⟩
    exact ((given.record _).updateCloseState c).resumeReceiver c _ receiving

/-- The failure of the blocked path of `Channel::Send`. -/
theorem sendFailed (before : Within k k') (c : ChannelId) (current : TaskletId) :
    Leaves k (k'.sendFailed c current) := by
  have removed := (before.modifyTasklet current (.setTransferInProgress false)
    fun _ => ⟨rfl, rfl⟩).withState
    (State.removeTaskletFromBlocked_ages _ c current)
  exact (((removed.modifyTasklet current .clearTransferArguments
    fun _ => ⟨rfl, rfl⟩).modifyTasklet current
    .unblock fun _ => ⟨rfl, rfl⟩).updateCloseState c).failCall current

/-- The part of `Channel::Receive` after the transfer. -/
theorem receiveDone (before : Within k k') (c : ChannelId) (current : TaskletId) :
    Leaves k (k'.receiveDone c current) := by
  have cleared := (before.modifyTasklet current (.setTransferInProgress false)
    fun _ => ⟨rfl, rfl⟩).modifyTasklet
    current .clearTransferArguments fun _ => ⟨rfl, rfl⟩
  unfold Config.receiveDone
  dsimp only
  split
  · exact ((cleared.updateCloseState c).record _).raise _
  · exact (cleared.record _).ret true
  · have closed := cleared.updateCloseState c
    next exception _ _ =>
    have raised : Within k (((((k'.modifyTasklet current (.setTransferInProgress false)).modifyTasklet
        current .clearTransferArguments).withState
          (((k'.modifyTasklet current (.setTransferInProgress false)).modifyTasklet
            current .clearTransferArguments).state.updateCloseState c)).raise exception)) :=
      ⟨closed.ages, closed.running, closed.stack⟩
    exact raised.failCall current
  · exact cleared.failCall current

/-- The failure of the blocked path of `Channel::Receive`. -/
theorem receiveFailed (before : Within k k') (c : ChannelId) (current : TaskletId) :
    Leaves k (k'.receiveFailed c current) := by
  have removed := before.withState (State.removeTaskletFromBlocked_ages _ c current)
  have freed := (removed.modifyTasklet current .unblock fun _ => ⟨rfl, rfl⟩).modifyTasklet current
    (.setTransferInProgress false) fun _ => ⟨rfl, rfl⟩
  have cleared := freed.modifyTasklet current .clearTransferArguments fun _ => ⟨rfl, rfl⟩
  exact (cleared.updateCloseState c).failCall current

/-- `Channel::Receive` without a waiting sender. -/
theorem receiveBlocks (before : Within k k') (c : ChannelId) (current : TaskletId) :
    Leaves k (k'.receiveBlocks c current) := by
  have waits := before.withState (State.addTaskletToWaitingToReceive_ages _ c current)
  have refused (error : SchedulerError) := ((waits.withState
    (State.removeTaskletFromBlocked_ages _ c current)).modifyTasklet current
      (.setTransferInProgress false) fun _ => ⟨rfl, rfl⟩).refuseCall current error
  refine .ite (refused _) (.ite (refused _) ?_)
  exact (((waits.modifyTasklet current (.block c)
    fun _ => ⟨rfl, rfl⟩).updateCloseState c).push _).yield

theorem resumeSender (before : Within k k') (c : ChannelId) (current sending : TaskletId) :
    Leaves k (k'.resumeSender c current sending) := by
  refine .ite (((before.withState (State.insertTaskletToRunNext_ages _ _)).push _).schedule _ _)
    (before.afterInsert fun s inserted => inserted.receiveDone c current)

/-- `Channel::Receive` from a waiting sender that is off its list. -/
theorem receiveFrom (before : Within k k') (c : ChannelId) (current sending : TaskletId) :
    Leaves k (k'.receiveFrom c current sending) := by
  have freed := (before.modifyTasklet sending .unblock fun _ => ⟨rfl, rfl⟩).modifyTasklet sending
    (.setTransferInProgress false) fun _ => ⟨rfl, rfl⟩
  unfold Config.receiveFrom
  dsimp only
  split
  · exact freed.crash
  · apply resumeSender
    apply updateCloseState
    apply record
    exact (freed.modifyTasklet current _
      (by exact fun _ => ⟨rfl, rfl⟩)).modifyTasklet sending .clearTransferArguments fun _ => ⟨rfl, rfl⟩

/-- `Channel::Receive`. -/
theorem receive (before : Within k k') (c : ChannelId) : Leaves k (k'.receive c) := by
  have called := (before.recordCall c .receive).modifyTasklet k'.state.currentTasklet
    (.setTransferInProgress true) fun _ => ⟨rfl, rfl⟩
  have popped := State.popNextTaskletBlocked_ages ((k'.recordCall c .receive).modifyTasklet
    k'.state.currentTasklet (.setTransferInProgress true)).state .sender c
  unfold Config.receive
  dsimp only
  split
  · exact called.receiveBlocks c _
  · next s sending found =>
    rw [State.popNextTaskletBlockedOnSend] at found
    rw [found] at popped
    exact (called.withState popped).receiveFrom c _ sending

/-- The second loop of `Channel::ClearBlocked`, up to its next kill. -/
theorem clearSenders (before : Within k k') (c : ChannelId) (pending : Bool) :
    Leaves k (k'.clearSenders c pending) := by
  unfold Config.clearSenders
  split
  · exact (before.push _).kill _ pending
  · exact before.ret true

/-- `Channel::ClearBlocked`, up to the next kill. -/
theorem clearBlocked (before : Within k k') (c : ChannelId) (pending : Bool) :
    Leaves k (k'.clearBlocked c pending) := by
  unfold Config.clearBlocked
  split
  · exact (before.push _).kill _ pending
  · exact before.clearSenders c pending

/-! ## Steps -/

theorem resetLimits (before : Within k k') (timed : Bool) :
    Within k (k'.withState (k'.state.resetLimits timed)) :=
  before.withState ((State.Ages.refl _).goesOn rfl (Nat.le_refl _) rfl rfl)

/-- What a suspended call does with the result of the call it waited for. -/
theorem resumeFrame (before : Within k k') (frame : Frame) (ok : Bool) :
    Leaves k (k'.resumeFrame frame ok) := by
  cases frame with
  | switchTo t => exact before.switchedBack t ok
  | run base endTasklet unblocked t => exact before.runSwitched base endTasklet unblocked t ok
  | yieldBlockedMain => exact before.yieldRan ok
  | yieldSwitch t => exact before.yieldSwitched t ok
  | runLimited timed => exact (before.resetLimits timed).ret ok
  | switchScheduled => exact .ite before.yield ((before.modifyTasklet _ _
    (by exact fun _ => ⟨rfl, rfl⟩)).ret false)
  | switchUnscheduled => exact (before.modifyTasklet _ _ (by exact fun _ => ⟨rfl, rfl⟩)).ret ok
  | kill t blocked channel => exact .ite ((before.modifyTasklet _ _
    (by exact fun _ => ⟨rfl, rfl⟩)).ret ok) (before.ret ok)
  | throwBlocked t channel => exact .ite (before.ret ok) ((before.modifyTasklet _ _
    (by exact fun _ => ⟨rfl, rfl⟩)).ret ok)
  | clearBlocked c pending senders =>
      cases senders with
      | false => exact before.clearBlocked c pending
      | true => exact before.clearSenders c pending
  | sendBlocked c current => exact .ite (before.sendDone c current) (before.sendFailed c current)
  | sendHanded c current =>
      exact .ite (before.sendDone c current) ((before.updateCloseState c).failCall current)
  | receiveBlocked c current =>
      exact .ite (before.receiveDone c current) (before.receiveFailed c current)
  | receiveHanded c current =>
      exact .ite (before.receiveDone c current) ((before.updateCloseState c).failCall current)

/-- The return of a call into a suspended one. -/
theorem resume (before : Within k k') (ok : Bool) (suspended : k'.stack k'.running ≠ []) :
    Leaves k (k'.resume ok) := by
  unfold Config.resume
  split
  · next empty => exact absurd empty suspended
  · exact before.pop.resumeFrame _ ok

/-- An operation of Python code. -/
theorem act (before : Within k k') {action : Action ν} (done : k'.act action = some k'') :
    Leaves k k'' := by
  cases action with
  | bind t callable arguments kwArguments => exact before.bind done
  | unBind t => exact before.unBind done
  | setup t arguments kwArguments => exact before.setup done
  | finish => exact before.endBody done
  | raise error => exact before.endBody done
  | runNTasklets number =>
      simp only [Config.act, Config.actWith] at done
      split at done
      · cases done
      · cases done
        have limited : k'.state.Ages { k'.state with
            taskletLimit := Int.bmod number (2 ^ 32), runType := .taskletLimited } :=
          (State.Ages.refl _).goesOn rfl (Nat.le_refl _) rfl rfl
        exact ((before.withState limited).push _).run none
  | runTaskletsForTime timeout =>
      cases done
      have limited : k'.state.Ages { k'.state with
          totalTaskletRunTimeLimit := timeout
          firstTimeLimitTestSkipped := false
          runType := .timeLimited
          startTime := k'.state.clock k'.state.clockReads
          clockReads := k'.state.clockReads + 1 } :=
        (State.Ages.refl _).goesOn rfl (Nat.le_succ _) rfl rfl
      exact ((before.withState limited).push _).run none
  | create callable => cases done; exact before.create callable
  | insert t => cases done; exact before.insert t
  | remove t => cases done; exact before.remove t
  | run t => cases done; exact before.taskletRun t
  | switch t => cases done; exact before.switchImplementation t
  | kill t pending => cases done; exact before.kill t pending
  | throw t exception pending => cases done; exact before.throwException t exception pending
  | schedule => cases done; exact before.schedule .back false
  | scheduleRemove => cases done; exact before.schedule .back true
  | schedulerRun => cases done; exact before.run none
  | send c message => cases done; exact before.send c message
  | receive c => cases done; exact before.receive c
  | clear c pending => cases done; exact before.clearBlocked c pending
  | close c =>
      cases done
      exact (before.withState (((State.Ages.refl _).modifyChannel c _).trans
        (State.updateCloseState_ages _ c))).ret true
  | «open» c => cases done; exact (before.withState ((State.Ages.refl _).modifyChannel c _)).ret true
  | setPreference c preference =>
      cases done
      exact (before.withState ((State.Ages.refl _).modifyChannel c _)).ret true
  | setBlocktrap t value => cases done; exact (before.modifyTasklet t _
    (by exact fun _ => ⟨rfl, rfl⟩)).ret true
  | switchTrap delta =>
      cases done
      have turned : k'.state.Ages
          { k'.state with switchTrapLevel := k'.state.switchTrapLevel + delta } :=
        (State.Ages.refl _).goesOn rfl (Nat.le_refl _) rfl rfl
      exact (before.withState turned).ret true
  | setUseNestedTasklets value =>
      cases done
      have turned : k'.state.Ages { k'.state with useNestedTasklets := value } :=
        (State.Ages.refl _).goesOn rfl (Nat.le_refl _) rfl rfl
      exact (before.withState turned).ret true

end Within

/-- A step returns to the Python code of a tasklet, or it leaves main waiting. -/
theorem step_leaves {k k' : Config ν} {label : Option (Action ν)} (taken : k.step label = some k') :
    (k.stack k.running = [] ∧ k' = { k with control := .python, raised := none }) ∨ Leaves k k' := by
  cases label with
  | some action =>
      simp only [Config.step, Config.stepWith] at taken
      split at taken
      · exact .inr ((Within.refl k).act taken)
      · cases taken
  | none =>
      simp only [Config.step, Config.stepWith] at taken
      split at taken
      · next ok _ =>
        obtain rfl := Option.some.inj taken
        by_cases empty : k.stack k.running = []
        · refine .inl ⟨empty, ?_⟩
          rw [Config.resume, empty]
        · exact .inr ((Within.refl k).resume ok empty)
      · cases taken

/-- Main has its greenlet, and its Python code runs only when it is in no call. -/
structure MainRests (k : Config ν) : Prop where
  main : k.state.MainStarted
  rests : k.running = mainTasklet → k.control = .python → k.stack mainTasklet = []

theorem MainRests.step {k k' : Config ν} {label : Option (Action ν)} (before : MainRests k)
    (taken : k.step label = some k') : MainRests k' := by
  rcases step_leaves taken with ⟨empty, rfl⟩ | leaves
  · refine ⟨before.main, fun main _ => ?_⟩
    dsimp only at main
    rw [main] at empty
    exact empty
  · exact ⟨leaves.ages.main before.main, fun main python =>
      absurd python (leaves.python before.main main)⟩

theorem initial_mainRests (clock : Nat → Int) (nested : Bool) :
    MainRests (Config.initial clock nested : Config ν) := by
  refine ⟨⟨?_, Nat.one_pos, fun t => ?_⟩, fun _ _ => rfl⟩
  · simp [Config.initial, State.initial, Tasklet.main]
  · by_cases main : t = mainTasklet
    all_goals simp [Config.initial, State.initial, Tasklet.main, main]

/-- Main rests between its calls in every run. -/
theorem reachable_mainRests {clock : Nat → Int} {nested : Bool} {k : Config ν}
    (reached : Reachable Config.step (fun _ _ => True) (Config.initial clock nested) k) :
    MainRests k :=
  reached.invariant (initial_mainRests clock nested) fun _ _ _ before _ taken => before.step taken

/-- The clock is the same in every run. -/
theorem reachable_clock {clock : Nat → Int} {nested : Bool} {k : Config ν}
    (reached : Reachable Config.step (fun _ _ => True) (Config.initial clock nested) k) :
    k.state.clock = clock := by
  refine @Reachable.invariant _ _ _ _ _ (fun k : Config ν => k.state.clock = clock) rfl ?_ _ reached
  intro k label k' same _ taken
  rcases step_leaves taken with ⟨-, rfl⟩ | leaves
  · exact same
  · exact leaves.ages.clock.trans same

end CarbonLab.Scheduler
