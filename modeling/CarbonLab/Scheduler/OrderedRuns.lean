import CarbonLab.Lib.Transition
import CarbonLab.Scheduler.BlockedRuns
import CarbonLab.Scheduler.ChannelCalls

/-!
# Runs of orderly configurations

The steps that keep configurations orderly, and what follows for every state that
a run of such steps reaches.
-/

namespace CarbonLab.Scheduler

open Transition

variable {ν : Type} {promise : Promise}

namespace Config

/-- The tasklet is the running one or waits for it in a run loop. -/
def IsActive (k : Config ν) (t : TaskletId) : Prop :=
  k.state.hasAncestor k.state.taskletCount k.running t = true

instance (k : Config ν) (t : TaskletId) : Decidable (k.IsActive t) :=
  inferInstanceAs (Decidable (_ = true))

/-- A kill or throw that is not pending may be aimed at `t` here. -/
def MayReach (k : Config ν) (t : TaskletId) : Prop :=
  k.state.useNestedTasklets = false → ¬ k.IsActive t ∧ (k.state.tasklets t).blocked = false

instance (k : Config ν) (t : TaskletId) : Decidable (k.MayReach t) :=
  inferInstanceAs (Decidable (_ → _))

/-- The tasklets blocked on `c`, or only its `senders`, may be killed here. -/
def MayClear (k : Config ν) (c : ChannelId) (pending senders : Bool) : Prop :=
  pending = false → k.state.useNestedTasklets = true ∨
    (senders = false → (k.state.channels c).blockedOnReceive.first = none) ∧
      (k.state.channels c).blockedOnSend.first = none

instance (k : Config ν) (c : ChannelId) (pending senders : Bool) :
    Decidable (k.MayClear c pending senders) :=
  inferInstanceAs (Decidable (_ → _))

/-- An operation of Python code that does not get the lists out of order. -/
def RegularAction (k : Config ν) : Action ν → Prop
  | .remove t => ¬ k.IsActive t
  | .run t => (k.state.tasklets t).alive = true → k.state.useNestedTasklets = false →
      ¬ k.IsActive t
  | .kill t pending => pending = false → (k.state.tasklets t).alive = true →
      k.state.currentTasklet ≠ t → k.MayReach t
  | .throw t _ pending =>
      (pending = true → (k.state.tasklets t).alive = true → (k.state.tasklets t).blocked = false) ∧
        (pending = false → k.state.currentTasklet ≠ t → k.MayReach t)
  | .clear c pending => k.MayClear c pending false
  | .runNTasklets _ | .runTaskletsForTime _ => False
  | _ => True

instance (k : Config ν) (action : Action ν) : Decidable (k.RegularAction action) := by
  cases action <;> unfold RegularAction <;> infer_instance

/-- A return into a suspended call that does not get the lists out of order: no
run loop queues a blocked tasklet and no failed kill or throw blocks its target
again. -/
def RegularReturn (k : Config ν) (ok : Bool) : List Frame → Prop
  | .run _ _ _ x :: _ => k.CleanReturn x ok
  | .kill _ blocked _ :: _ => ok = true ∨ blocked = false
  | .throwBlocked _ _ :: _ => ok = true
  | .clearBlocked c pending senders :: _ => k.MayClear c pending senders
  | _ => True

instance (k : Config ν) (ok : Bool) (stack : List Frame) : Decidable (k.RegularReturn ok stack) :=
  match stack with
  | [] => inferInstanceAs (Decidable True)
  | frame :: _ => by cases frame <;> unfold RegularReturn <;> infer_instance

/-- A step that does not get the lists out of order. -/
def Regular (k : Config ν) : Option (Action ν) → Prop
  | some action => k.RegularAction action
  | none => match k.control with
    | .returning ok => k.RegularReturn ok (k.stack k.running)
    | _ => True

instance (k : Config ν) (label : Option (Action ν)) : Decidable (k.Regular label) :=
  match label with
  | some action => inferInstanceAs (Decidable (k.RegularAction action))
  | none => by
      unfold Regular
      dsimp only
      split <;> infer_instance

/-- Where a null pointer may be dereferenced: the run loop has no base for main, no
tasklet may follow the one that asked for the second place, a sender may have no
value. -/
def MayCrash (k : Config ν) : Option (Action ν) → Prop
  | some (.run t) => (k.state.tasklets t).alive = true ∧ t = mainTasklet
  | some (.switch t) => t = mainTasklet
  | some (.kill t pending) => pending = false ∧ (k.state.tasklets t).alive = true ∧
      t = mainTasklet ∧ k.state.currentTasklet ≠ t
  | some (.throw t _ pending) => pending = false ∧ t = mainTasklet ∧ k.state.currentTasklet ≠ t
  | some (.receive c) => ∃ t, (k.state.channels c).blockedOnSend.first = some t ∧
      (k.state.tasklets t).transferArguments = none
  | some (.clear _ _) => True
  | some _ => False
  | none => match k.stack k.running with
    | .run _ _ _ x :: _ => (k.pop.catchExit x).state.runPostSwitch x = none ∨ Restoring k
    | .clearBlocked _ _ _ :: _ => True
    | _ => False

end Config

/-- Python code runs in an orderly configuration. -/
theorem Ordered.resting {k : Config ν} (ordered : Ordered promise k) (python : k.control = .python) :
    ∃ chain, Resting promise k chain ∧ k.stack k.running = [] := by
  rcases ordered with ⟨-, crashed⟩ | ⟨returning, -⟩ | ⟨chain, orderly⟩
  · rw [python] at crashed
    cases crashed
  · rw [python] at returning
    cases returning
  · have known := orderly.local_
    rw [Local, python] at known
    refine ⟨chain, ⟨⟨orderly.chained, orderly.queued, orderly.shaped, ?_⟩, known.2⟩, known.1⟩
    rw [known.1]
    exact fun _ member => absurd member List.not_mem_nil

/-- The operations that nest run loops whatever the mode, or change the mode. -/
def Action.nests : Action ν → Bool
  | .switch _ | .setUseNestedTasklets _ => true
  | _ => false

/-- Switching between nested tasklets and a flat run queue. -/
theorem Resting.setUseNestedTasklets {k : Config ν} {chain : List TaskletId}
    (resting : Resting promise k chain) (value : Bool) (nested : ¬ promise.flat) :
    Resting promise (k.withState { k.state with useNestedTasklets := value }) chain := by
  obtain ⟨lists, rep, listed⟩ := resting.rest.exclusive.lists
  refine resting.eased ⟨rfl, rfl, fun _ => rfl, fun _ => id, fun _ blocked => ⟨blocked, rfl⟩⟩ ?_
    ⟨⟨lists, ?_, listed⟩, resting.rest.exclusive.waiting⟩
  · exact resting.entered.queued.of_fields (fun _ => rfl) (fun _ => rfl) (fun _ => rfl) rfl rfl rfl
      rfl rfl fun flat => absurd flat nested
  · exact ⟨rep.segment, rep.first, rep.last, rep.nodup, rep.direction, rep.disjoint, rep.unlisted,
      rep.balance, rep.neither⟩

/-- An operation of Python code keeps the invariant. -/
theorem Resting.act {k k' : Config ν} {chain : List TaskletId} (resting : Resting promise k chain)
    (idle : k.stack k.running = []) {action : Action ν}
    (present : action.target.all (· < k.state.taskletCount) = true)
    (regular : k.RegularAction action) (flat : promise.flat → action.nests = false)
    (crash : k.MayCrash (some action) → ¬ promise.calm)
    (done : k.act action = some k') : Ordered promise k' := by
  have inactive : ∀ t, ¬ k.IsActive t → t ∉ chain := fun t notActive member =>
    notActive ((resting.entered.chained.hasAncestor_iff t).mpr member)
  have reaches : ∀ t, k.MayReach t → Reaches k chain t := fun t may flat =>
    ⟨inactive t (may flat).1, (may flat).2⟩
  cases action with
  | create callable =>
      cases done
      exact resting.create callable
  | bind t => exact resting.bind (by simpa [Action.target] using present) done
  | unBind t => exact resting.unBind (by simpa [Action.target] using present) done
  | setup t => exact resting.setup (by simpa [Action.target] using present) done
  | insert t =>
      cases done
      exact resting.insert (by simpa [Action.target] using present)
  | remove t =>
      cases done
      exact resting.remove (inactive t regular)
  | run t =>
      cases done
      exact resting.taskletRun (by simpa [Action.target] using present)
        (fun alive flat => inactive t (regular alive flat)) fun alive isMain =>
          crash ⟨alive, isMain⟩
  | switch t =>
      cases done
      exact resting.switchImplementation (by simpa [Action.target] using present)
        (fun isFlat => Bool.noConfusion (flat isFlat)) crash
  | kill t pending =>
      cases done
      exact resting.kill (by simpa [Action.target] using present) pending
        (fun notPending alive notCurrent => reaches t (regular notPending alive notCurrent))
        fun notPending alive isMain notCurrent => crash ⟨notPending, alive, isMain, notCurrent⟩
  | throw t exception pending =>
      cases done
      exact resting.throwException (by simpa [Action.target] using present) exception pending
        regular.1 (fun notPending notCurrent => reaches t (regular.2 notPending notCurrent))
        fun notPending isMain notCurrent => crash ⟨notPending, isMain, notCurrent⟩
  | schedule =>
      cases done
      exact resting.schedule _ _
  | scheduleRemove =>
      cases done
      exact resting.schedule _ _
  | schedulerRun =>
      cases done
      exact resting.run_none
  | runNTasklets | runTaskletsForTime => exact regular.elim
  | send c message =>
      cases done
      exact resting.send idle c message
  | receive c =>
      cases done
      exact resting.receive idle c fun t first empty => crash ⟨t, first, empty⟩
  | clear c pending =>
      cases done
      refine resting.clearBlocked c pending (fun direct => ?_) (crash trivial)
      exact (regular direct).imp_right fun empty => ⟨empty.1 rfl, empty.2⟩
  | close c =>
      cases done
      exact (resting.withState ((Agree.modifyChannel _ c
        (fun channel => { channel with closing := true }) (fun _ d => by cases d <;> rfl)
        fun _ => rfl).trans (Agree.updateCloseState _ c)) rfl).ret true
  | «open» c =>
      cases done
      exact (resting.withState (Agree.modifyChannel _ c
        (fun channel => { channel with closing := false, closed := false })
        (fun _ d => by cases d <;> rfl) fun _ => rfl) rfl).ret true
  | setPreference c preference =>
      cases done
      exact (resting.withState (Agree.modifyChannel _ c
        (fun channel => { channel with preference := preference })
        (fun _ d => by cases d <;> rfl) fun _ => rfl) rfl).ret true
  | setBlocktrap t value =>
      cases done
      exact (resting.modifyTasklet t (.setBlocktrap value) (fun _ => rfl) (fun _ => rfl)
        fun _ => id).ret true
  | switchTrap delta =>
      cases done
      refine (resting.withState ?_ ?_).ret true
      · exact ⟨⟨fun _ => rfl, fun _ _ => rfl, fun _ => rfl, rfl, rfl, rfl, rfl, rfl, rfl⟩,
          fun _ => rfl, fun _ => id⟩
      · rfl
  | setUseNestedTasklets value =>
      cases done
      exact (resting.setUseNestedTasklets value fun isFlat =>
        Bool.noConfusion (flat isFlat)).ret true
  | finish => exact resting.endBody idle done
  | raise => exact resting.endBody idle done

/-- A frame that waits for its call in a tasklet that is not blocked. -/
theorem Orderly.resting {k : Config ν} {chain : List TaskletId} (orderly : Orderly promise k chain)
    {frame : Frame} {below : List Frame} (stack : k.stack k.running = frame :: below)
    (notSwitch : ∀ x, frame ≠ .switchTo x) (rest : AtRest k) : Resting promise k.pop chain :=
  ⟨orderly.pop stack notSwitch fun blocked =>
      absurd (rest.unblocked.symm.trans blocked) Bool.false_ne_true,
    rest.current, rest.unblocked, rest.exclusive⟩

/-- What is known when a blocked channel operation has succeeded. -/
theorem Orderly.succeeded {k : Config ν} {chain : List TaskletId} (orderly : Orderly promise k chain)
    (control : k.control = .returning true) {frame : Frame} {below : List Frame}
    (stack : k.stack k.running = frame :: below) {c : ChannelId}
    (waits : WaitsOn c k.running frame) : AtRest k := by
  have known := orderly.local_
  rw [Local, control, stack] at known
  rcases waits with rfl | rfl
  all_goals
    cases below with
    | nil => exact known
    | cons => exact known

/-- A return into a suspended call keeps the invariant. -/
theorem Orderly.resume {k : Config ν} {chain : List TaskletId} {ok : Bool}
    (orderly : Orderly promise k chain) (control : k.control = .returning ok)
    (regular : k.RegularReturn ok (k.stack k.running)) (crash : k.MayCrash none → ¬ promise.calm)
    (calm : promise.calm → ∀ t error, (k.state.tasklets t).exceptionState = some error →
      error = .taskletExit) : Ordered promise (k.resume ok) := by
  have known := orderly.local_
  rw [Local, control] at known
  rw [Config.resume]
  split
  · next empty =>
      rw [empty] at known
      refine .inr (.inr ⟨chain, orderly.chained.agree (Agree.refl _) rfl fun _ _ => rfl,
        orderly.queued, orderly.shaped.agree (Agree.refl _) rfl, ?_⟩)
      exact ⟨empty, known.current, known.unblocked, known.exclusive⟩
  next frame below stack =>
  rw [stack] at known regular
  rw [Config.MayCrash, stack] at crash
  have proper := orderly.shaped.proper k.running
  rw [stack] at proper
  cases frame with
  | switchTo x => exact orderly.switchedBack control stack calm
  | run base endTasklet unblocked x => exact orderly.runSwitched control stack regular (crash ∘ .inl)
  | yieldBlockedMain => exact orderly.yieldRan control stack
  | yieldSwitch t => exact orderly.yieldSwitched control stack
  | runLimited timed =>
      have resting := orderly.resting stack (by simp) known
      obtain ⟨standard, running⟩ := orderly.queued.standard
      refine Resting.ret (k := k.pop.withState (k.state.resetLimits timed)) (resting.withState ?_ ?_) ok
      · exact ⟨⟨fun _ => rfl, fun _ _ => rfl, fun _ => rfl, rfl, rfl, rfl, standard.symm,
          running.symm, rfl⟩, fun _ => rfl, fun _ => id⟩
      · rfl
  | switchScheduled =>
      have resting := orderly.resting stack (by simp) known
      rw [Config.resumeFrame]
      split
      · exact resting.yield
      · exact (resting.modifyTasklet _ (.setPaused false) (fun _ => rfl) (fun _ => rfl)
          fun _ => id).ret false
  | switchUnscheduled =>
      exact ((orderly.resting stack (by simp) known).modifyTasklet _ (.setPaused false)
        (fun _ => rfl) (fun _ => rfl) fun _ => id).ret ok
  | kill t blocked channel =>
      rw [Config.resumeFrame, if_neg]
      · exact (orderly.resting stack (by simp) known).ret ok
      · rcases regular with rfl | rfl <;> simp
  | throwBlocked t channel =>
      rw [Config.resumeFrame, if_pos (show ok = true from regular)]
      exact (orderly.resting stack (by simp) known).ret ok
  | clearBlocked c pending senders =>
      have resting := orderly.resting stack (by simp) known
      cases senders with
      | false =>
          refine resting.clearBlocked c pending (fun direct => ?_) (crash trivial)
          exact (regular direct).imp_right fun empty => ⟨empty.1 rfl, empty.2⟩
      | true =>
          refine resting.clearSenders c pending (fun direct => ?_) (crash trivial)
          exact (regular direct).imp_right And.right
  | sendBlocked c t =>
      obtain rfl : t = k.running := by
        cases proper with
        | operations operations => exact (operations _ (.head _)).2 t rfl
      cases ok with
      | true =>
          exact (orderly.resting stack (by simp)
            (orderly.succeeded control stack (.inl rfl))).sendDone c _
      | false => exact orderly.sendFailed control stack
  | receiveBlocked c t =>
      obtain rfl : t = k.running := by
        cases proper with
        | operations operations => exact (operations _ (.head _)).2 t rfl
      cases ok with
      | true =>
          exact (orderly.resting stack (by simp)
            (orderly.succeeded control stack (.inr rfl))).receiveDone c _
      | false => exact orderly.receiveFailed control stack
  | sendHanded c t =>
      have resting := orderly.resting stack (by simp) known
      rw [Config.resumeFrame]
      split
      · exact resting.sendDone c t
      · exact (resting.quiet ((Quiet.refl _).updateCloseState c)).failCall t
  | receiveHanded c t =>
      have resting := orderly.resting stack (by simp) known
      rw [Config.resumeFrame]
      split
      · exact resting.receiveDone c t
      · exact (resting.quiet ((Quiet.refl _).updateCloseState c)).failCall t

/-- The end of a failed run loop. -/
theorem Config.runFailed_cases (k : Config ν) (t : TaskletId) :
    (k.runFailed t).control = .crashed ∨ (k.runFailed t).control = .returning false ∧
      (k.runFailed t).running = k.running ∧ (k.runFailed t).stack = k.stack := by
  rw [Config.runFailed]
  split
  · split
    · exact .inl rfl
    · exact .inr ⟨rfl, rfl, rfl⟩
  · exact .inr ⟨rfl, rfl, rfl⟩

/-- A failed kill or throw comes back to where it blocks its target again. -/
theorem Restoring.resume {k : Config ν} (restoring : Restoring k)
    (regular : k.RegularReturn false (k.stack k.running)) (crash : k.MayCrash none → ¬ promise.calm) :
    Ordered promise (k.resume false) := by
  have again := restoring
  obtain ⟨-, t, channel, below, (stack | stack) | ⟨error, base, endTasklet, unblocked, stack⟩⟩ :=
    restoring
  · rw [stack] at regular
    rcases regular with absurd | absurd <;> cases absurd
  · rw [stack] at regular
    cases regular
  · have exit : k.pop.exitRaised = false := by
      rw [Config.exitRaised]
      split
      · next raised => exact absurd raised error
      · rfl
    have resumed : ∃ frame, (frame = .kill t true channel ∨ frame = .throwBlocked t channel) ∧
        k.stack k.running = .run base endTasklet unblocked t :: frame :: below := by
      rcases stack with stack | stack
      · exact ⟨_, .inl rfl, stack⟩
      · exact ⟨_, .inr rfl, stack⟩
    obtain ⟨frame, kind, stack⟩ := resumed
    rw [Config.resume, stack]
    simp only [Config.resumeFrame, Config.runSwitched, exit, Bool.or_self, Bool.false_eq_true,
      if_false]
    rcases k.pop.runFailed_cases t with crashed | ⟨control, running, sameStack⟩
    · refine .inl ⟨crash ?_, crashed⟩
      rw [Config.MayCrash, stack]
      exact .inr again
    · refine .inr (.inl ⟨control, t, channel, below, .inl ?_⟩)
      rw [sameStack, running]
      rcases kind with rfl | rfl
      · exact .inl (by simp [stack])
      · exact .inr (by simp [stack])

/-- A regular step keeps the invariant. -/
theorem Ordered.step {k k' : Config ν} (ordered : Ordered promise k) {label : Option (Action ν)}
    (regular : k.Regular label) (crash : k.MayCrash label → ¬ promise.calm)
    (flat : promise.flat → label.all (!Action.nests ·) = true)
    (calm : promise.calm → ∀ t error, (k.state.tasklets t).exceptionState = some error →
      error = .taskletExit)
    (taken : k.step label = some k') : Ordered promise k' := by
  cases label with
  | some action =>
      rw [Config.step, Config.stepWith] at taken
      split at taken
      · next allowed =>
          obtain ⟨chain, resting, idle⟩ := ordered.resting allowed.1
          exact resting.act idle allowed.2 regular (fun isFlat => by simpa using flat isFlat) crash
            taken
      · cases taken
  | none =>
      rw [Config.step, Config.stepWith] at taken
      split at taken
      · next ok control =>
          cases taken
          rw [Config.Regular, control] at regular
          rcases ordered with ⟨-, crashed⟩ | restoring | ⟨chain, orderly⟩
          · rw [control] at crashed
            cases crashed
          · obtain rfl : ok = false := by
              have := restoring.1
              rw [control] at this
              cases this
              rfl
            exact restoring.resume regular crash
          · exact orderly.resume control regular crash calm
      · cases taken

/-- In a fresh schedule manager all tasklets but main are unused. -/
theorem State.initial_tasklets (clock : Nat → Int) (t : TaskletId) :
    (State.initial (ν := ν) clock).tasklets t = if t = mainTasklet then Tasklet.main else {} := by
  by_cases main : t = mainTasklet <;> simp [State.initial, main]

/-- A fresh schedule manager is orderly. -/
theorem Config.initial_ordered (clock : Nat → Int) (nested : Bool)
    (flat : promise.flat → nested = false) : Ordered promise (Config.initial (ν := ν) clock nested) := by
  have tasklets : ∀ t, (Config.initial (ν := ν) clock nested).state.tasklets t =
      if t = mainTasklet then Tasklet.main else {} := State.initial_tasklets clock
  refine .inr (.inr ⟨[mainTasklet], ?_, ?_, ?_, ?_⟩)
  · refine ⟨rfl, ⟨rfl, ?_, ?_⟩, List.nodup_singleton _, fun t member => ?_, fun t outside => ?_,
      fun t => ?_, fun t live => ?_⟩
    · simp [tasklets, Tasklet.main]
    · simp [tasklets, Tasklet.main]
    · simp [tasklets, List.mem_singleton.mp member, Tasklet.main]
    · have other : t ≠ mainTasklet := by simpa using outside
      exact .inl ⟨rfl, by simp [tasklets, other]⟩
    · by_cases main : t = mainTasklet <;> simp [tasklets, main, Tasklet.main]
    · have main : t = mainTasklet := by
        by_contra other
        simp [tasklets, other] at live
      simp [main, mainTasklet, Config.initial, State.initial]
  · refine ⟨⟨[], ?_⟩, fun t _ => ?_, fun t member => ?_, fun t scheduled => ?_, ⟨rfl, rfl⟩, flat,
      fun _ _ _ => by simp⟩
    · exact (State.initial_queueRep clock).congr (fun _ => rfl) (fun _ => rfl) (fun _ => rfl) rfl rfl
    · by_cases main : t = mainTasklet <;> simp [tasklets, main, Tasklet.main]
    · simp [tasklets, List.mem_singleton.mp member, Tasklet.main]
    · have main : t = mainTasklet := by
        by_contra other
        simp [tasklets, other] at scheduled
      simp [main, mainTasklet, Config.initial, State.initial]
  · refine ⟨fun t => .operations fun _ member => absurd member List.not_mem_nil,
      fun t blocked => ?_, fun t started => ?_⟩
    · by_cases main : t = mainTasklet <;> simp [tasklets, main, Tasklet.main] at blocked
    · have main : t = mainTasklet := by
        by_contra other
        simp [tasklets, other] at started
      simp [tasklets, main, Tasklet.main, Tasklet.Passed]
  · refine ⟨rfl, rfl, ?_, ⟨fun _ _ => [], ?_, fun t _ c => ?_⟩, fun t _ _ blocked => ?_⟩
    · rw [tasklets]
      rfl
    · have unblocked : (Config.initial (ν := ν) clock nested).state.NoneBlocked := by
        refine ⟨fun t => ?_, fun c => ⟨rfl, rfl, rfl⟩⟩
        by_cases main : t = mainTasklet <;> simp [tasklets, main, Tasklet.main]
      exact unblocked.rep
    · by_cases main : t = mainTasklet <;> simp [tasklets, main, Tasklet.main]
    · by_cases main : t = mainTasklet <;> simp [tasklets, main, Tasklet.main] at blocked

end CarbonLab.Scheduler
