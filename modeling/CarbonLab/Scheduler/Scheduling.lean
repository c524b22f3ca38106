import CarbonLab.Scheduler.OrderedRuns

/-!
# What scheduling leaves alone

Switching, run loops and yields move control and the run queue.  They touch
neither the transfer slots nor the channels nor the history of calls, they set no
exception and make no request to be rescheduled: they only clear them.
-/

namespace CarbonLab.Scheduler

variable {ν : Type} {promise : Promise}

/-- What the channels keep in a tasklet. -/
structure Slot (ν : Type) where
  transferArguments : Option ν
  transferException : Option (PyError ν)
  restoreException : Bool
  transferInProgress : Bool
  blocktrap : Bool
  nextBlocked : Option TaskletId
  previousBlocked : Option TaskletId
  blockedDirection : ChannelDirection

/-- The slot of a tasklet. -/
def Tasklet.slot (tasklet : Tasklet ν) : Slot ν where
  transferArguments := tasklet.transferArguments
  transferException := tasklet.transferException
  restoreException := tasklet.restoreException
  transferInProgress := tasklet.transferInProgress
  blocktrap := tasklet.blocktrap
  nextBlocked := tasklet.nextBlocked
  previousBlocked := tasklet.previousBlocked
  blockedDirection := tasklet.blockedDirection

/-- How scheduling may change a tasklet. -/
structure Tasklet.Undisturbed (before after : Tasklet ν) : Prop where
  slot : after.slot = before.slot
  blocked : after.blocked = true →
    before.blocked = true ∧ after.channelBlockedOn = before.channelBlockedOn
  exception : after.exceptionState = before.exceptionState ∨ after.exceptionState = none
  request : after.reschedule = before.reschedule ∨ after.reschedule = .none
  arguments : after.arguments = before.arguments ∧ after.kwArguments = before.kwArguments ∨
    after.arguments = none ∧ after.kwArguments = none
  fresh : ∀ runnable, after.greenlet = .fresh runnable → before.greenlet = .fresh runnable

namespace Tasklet.Undisturbed

variable {a b c : Tasklet ν}

theorem refl (tasklet : Tasklet ν) : Undisturbed tasklet tasklet :=
  ⟨rfl, fun blocked => ⟨blocked, rfl⟩, .inl rfl, .inl rfl, .inl ⟨rfl, rfl⟩, fun _ => id⟩

theorem trans (first : Undisturbed a b) (second : Undisturbed b c) : Undisturbed a c where
  slot := second.slot.trans first.slot
  blocked := fun blocked => by
    obtain ⟨between, channel⟩ := second.blocked blocked
    obtain ⟨before, channel'⟩ := first.blocked between
    exact ⟨before, channel.trans channel'⟩
  exception := by
    rcases second.exception with same | cleared
    · rw [same]
      exact first.exception
    · exact .inr cleared
  request := by
    rcases second.request with same | dropped
    · rw [same]
      exact first.request
    · exact .inr dropped
  arguments := by
    rcases second.arguments with ⟨arguments, kwArguments⟩ | cleared
    · rw [arguments, kwArguments]
      exact first.arguments
    · exact .inr cleared
  fresh := fun runnable fresh => first.fresh runnable (second.fresh runnable fresh)

/-- Only fields differ that are nobody's concern here. -/
theorem of_fields (slot : b.slot = a.slot) (blocked : b.blocked = a.blocked)
    (channel : b.channelBlockedOn = a.channelBlockedOn)
    (exception : b.exceptionState = a.exceptionState) (request : b.reschedule = a.reschedule)
    (arguments : b.arguments = a.arguments ∧ b.kwArguments = a.kwArguments)
    (greenlet : b.greenlet = a.greenlet) : Undisturbed a b :=
  ⟨slot, fun isBlocked => ⟨blocked.symm.trans isBlocked, channel⟩, .inl exception, .inl request,
    .inl arguments, fun _ => greenlet.symm.trans⟩

/-- Only the place in the run queue differs. -/
theorem of_eraseQueueLinks (same : b.eraseQueueLinks = a.eraseQueueLinks) : Undisturbed a b :=
  of_fields (congrArg Tasklet.slot same :) (congrArg Tasklet.blocked same :)
    (congrArg Tasklet.channelBlockedOn same :) (congrArg Tasklet.exceptionState same :)
    (congrArg Tasklet.reschedule same :)
    ⟨(congrArg Tasklet.arguments same :), (congrArg Tasklet.kwArguments same :)⟩
    (congrArg Tasklet.greenlet same :)

end Tasklet.Undisturbed

/-- How scheduling may change the state. -/
structure State.Undisturbed (s s' : State ν) : Prop where
  tasklets : ∀ t, (s.tasklets t).Undisturbed (s'.tasklets t)
  channels : s'.channels = s.channels
  trap : s'.switchTrapLevel = s.switchTrapLevel
  nested : s'.useNestedTasklets = s.useNestedTasklets
  count : s'.taskletCount = s.taskletCount

namespace State.Undisturbed

variable {s s' s'' : State ν}

theorem refl (s : State ν) : Undisturbed s s :=
  ⟨fun _ => .refl _, rfl, rfl, rfl, rfl⟩

theorem trans (first : Undisturbed s s') (second : Undisturbed s' s'') : Undisturbed s s'' where
  tasklets := fun t => (first.tasklets t).trans (second.tasklets t)
  channels := second.channels.trans first.channels
  trap := second.trap.trans first.trap
  nested := second.nested.trans first.nested
  count := second.count.trans first.count

theorem modifyTasklet (before : Undisturbed s s') (t : TaskletId) {change : Tasklet ν → Tasklet ν}
    (keeps : (s'.tasklets t).Undisturbed (change (s'.tasklets t))) :
    Undisturbed s (s'.modifyTasklet t change) := by
  refine before.trans ⟨fun u => ?_, rfl, rfl, rfl, rfl⟩
  by_cases here : u = t
  · subst here
    simpa using keeps
  · simpa [here] using Tasklet.Undisturbed.refl _

theorem of_sameButQueue (same : SameButQueue s s') : Undisturbed s s' where
  tasklets := fun t => .of_eraseQueueLinks (same.field t Tasklet.eraseQueueLinks fun _ => rfl)
  channels := same.view State.channels fun _ => rfl
  trap := same.view State.switchTrapLevel fun _ => rfl
  nested := same.view State.useNestedTasklets fun _ => rfl
  count := same.view State.taskletCount fun _ => rfl

theorem setCurrentTasklet (before : Undisturbed s s') (t : TaskletId) :
    Undisturbed s (s'.setCurrentTasklet t) :=
  before.trans ⟨fun _ => .refl _, rfl, rfl, rfl, rfl⟩

theorem removeTasklet (before : Undisturbed s s') (t : TaskletId) :
    Undisturbed s (s'.removeTasklet t).1 :=
  before.trans (of_sameButQueue (s'.removeTasklet_eraseQueue t))

theorem clearParent (before : Undisturbed s s') (t : TaskletId) :
    Undisturbed s (s'.clearParent t) := by
  obtain ⟨parent, done⟩ := s'.clearParent_eq t
  rw [done]
  exact before.modifyTasklet t (.of_fields rfl rfl rfl rfl rfl ⟨rfl, rfl⟩ rfl)

theorem testRunLimits (before : Undisturbed s s') : Undisturbed s s'.testRunLimits := by
  refine before.trans ?_
  have limited : ∀ {s₁ s₂ : State ν}, s₂.tasklets = s₁.tasklets → s₂.channels = s₁.channels →
      s₂.switchTrapLevel = s₁.switchTrapLevel → s₂.useNestedTasklets = s₁.useNestedTasklets →
      s₂.taskletCount = s₁.taskletCount → Undisturbed s₁ s₂ :=
    fun tasklets channels trap nested count =>
      ⟨fun t => by rw [tasklets]; exact .refl _, channels, trap, nested, count⟩
  simp only [State.testRunLimits]
  repeat' split
  all_goals exact limited rfl rfl rfl rfl rfl

theorem unblock (before : Undisturbed s s') (t : TaskletId) :
    Undisturbed s (s'.modifyTasklet t .unblock) :=
  before.modifyTasklet t ⟨rfl, by simp, .inl rfl, .inl rfl, .inl ⟨rfl, rfl⟩, fun _ => id⟩

theorem insertTaskletToRunNext (before : Undisturbed s s') {t : TaskletId}
    (unscheduled : (s'.tasklets t).scheduled = false) :
    Undisturbed s (s'.insertTaskletToRunNext t) :=
  (before.unblock t).trans (of_sameButQueue (State.insertTaskletToRunNext_eraseQueue unscheduled))

theorem insertTasklet (before : Undisturbed s s') {t : TaskletId}
    (unscheduled : (s'.tasklets t).scheduled = false) (done : s'.insertTasklet t = some s'') :
    Undisturbed s s'' :=
  (before.unblock t).trans (of_sameButQueue (State.insertTasklet_eraseQueue unscheduled done))

theorem dropRequest (before : Undisturbed s s') (t : TaskletId) :
    Undisturbed s (s'.modifyTasklet t (.setReschedule .none)) :=
  before.modifyTasklet t ⟨rfl, fun blocked => ⟨blocked, rfl⟩, .inl rfl, .inr rfl,
    .inl ⟨rfl, rfl⟩, fun _ => id⟩

/-- Putting a tasklet back into the queue drops its request. -/
theorem rescheduleTasklet {chain : List TaskletId} {t : TaskletId} (queued : Queued promise s chain)
    (present : t < s.taskletCount) (unscheduled : (s.tasklets t).scheduled = false)
    (current : (s.tasklets s.currentTasklet).scheduled = true)
    (done : s.rescheduleTasklet t = some s') :
    Undisturbed s s' ∧ (s'.tasklets t).reschedule = .none := by
  rw [State.rescheduleTasklet] at done
  split at done
  · obtain ⟨s₁, inserted, rest⟩ := Option.bind_eq_some_iff.mp done
    cases rest
    exact ⟨((refl s).insertTasklet unscheduled inserted).dropRequest t, by simp⟩
  · obtain ⟨front, following, rest⟩ := Option.bind_eq_some_iff.mp done
    cases rest
    obtain ⟨frontScheduled, frontNotMain, frontNotCurrent⟩ := queued.follows following
    obtain ⟨queued₁, same₁, -, scheduled₁⟩ :=
      (queued.mono (List.forall_mem_nil _) (by simp)).removeTasklet frontScheduled frontNotMain
        List.not_mem_nil
    have current₁ := same₁.view State.currentTasklet fun _ => rfl
    have frontNe : front ≠ t := by
      rintro rfl
      exact Bool.false_ne_true (unscheduled.symm.trans frontScheduled)
    obtain ⟨-, inserted₂⟩ := queued₁.insertTaskletToRunNext (t := t)
      (by rwa [same₁.eases.count])
      (by rw [current₁, scheduled₁, current]; simpa using frontNotCurrent.symm)
    have first : Undisturbed s ((s.removeTasklet front).1.insertTaskletToRunNext t) :=
      ((refl s).removeTasklet front).insertTaskletToRunNext (by
        rw [scheduled₁, unscheduled, Bool.false_and])
    refine ⟨(first.insertTaskletToRunNext ?_).dropRequest t, by simp⟩
    simp [inserted₂.scheduled, scheduled₁, frontNe]
  · next request =>
      cases done
      exact ⟨refl s, request⟩

end State.Undisturbed

/-- Frames of the switches inside the calls that Python makes. -/
def Frame.isSwitching : Frame → Bool
  | .switchTo _ | .run _ _ _ _ | .yieldSwitch _ | .yieldBlockedMain => true
  | _ => false

/-- Scheduling leads from one configuration to the other. -/
structure Schedules (k k' : Config ν) : Prop where
  state : k.state.Undisturbed k'.state
  frames : ∀ t, ∀ frame ∈ k'.stack t, frame ∈ k.stack t ∨ frame.isSwitching = true
  log : k'.log = k.log
  calls : k'.calls = k.calls
  callCount : k'.callCount = k.callCount

namespace Schedules

variable {k k' k'' : Config ν}

theorem refl (k : Config ν) : Schedules k k :=
  ⟨.refl _, fun _ _ => .inl, rfl, rfl, rfl⟩

theorem trans (first : Schedules k k') (second : Schedules k' k'') : Schedules k k'' where
  state := first.state.trans second.state
  frames := fun t frame member => by
    rcases second.frames t frame member with older | switching
    · exact first.frames t frame older
    · exact .inr switching
  log := second.log.trans first.log
  calls := second.calls.trans first.calls
  callCount := second.callCount.trans first.callCount

theorem withState (before : Schedules k k') {s : State ν} (state : k'.state.Undisturbed s) :
    Schedules k (k'.withState s) :=
  before.trans ⟨state, fun _ _ => .inl, rfl, rfl, rfl⟩

theorem modifyTasklet (before : Schedules k k') (t : TaskletId) {change : Tasklet ν → Tasklet ν}
    (keeps : (k'.state.tasklets t).Undisturbed (change (k'.state.tasklets t))) :
    Schedules k (k'.modifyTasklet t change) :=
  before.withState ((State.Undisturbed.refl _).modifyTasklet t keeps)

/-- Only control and the exception that is set differ. -/
theorem goesOn (before : Schedules k k') (state : k''.state = k'.state) (stack : k''.stack = k'.stack)
    (log : k''.log = k'.log) (calls : k''.calls = k'.calls)
    (callCount : k''.callCount = k'.callCount) : Schedules k k'' :=
  before.trans ⟨by rw [state]; exact .refl _, fun t _ => by rw [stack]; exact .inl, log, calls,
    callCount⟩

theorem ret (before : Schedules k k') (ok : Bool) : Schedules k (k'.ret ok) :=
  before.goesOn rfl rfl rfl rfl rfl

theorem raise (before : Schedules k k') (error : PyError ν) : Schedules k (k'.raise error) :=
  before.goesOn rfl rfl rfl rfl rfl

theorem fail (before : Schedules k k') (error : SchedulerError) : Schedules k (k'.fail error) :=
  before.goesOn rfl rfl rfl rfl rfl

theorem crash (before : Schedules k k') : Schedules k k'.crash :=
  before.goesOn rfl rfl rfl rfl rfl

theorem push (before : Schedules k k') {frame : Frame} (switching : frame.isSwitching = true) :
    Schedules k (k'.push frame) := by
  refine before.trans ⟨.refl _, fun t other member => ?_, rfl, rfl, rfl⟩
  by_cases here : t = k'.running
  · subst here
    simp only [Config.push_stack, Function.update_self, List.mem_cons] at member
    rcases member with rfl | member
    · exact .inr switching
    · exact .inl member
  · exact .inl (by simpa [here] using member)

theorem pop (before : Schedules k k') : Schedules k k'.pop := by
  refine before.trans ⟨.refl _, fun t other member => .inl ?_, rfl, rfl, rfl⟩
  by_cases here : t = k'.running
  · subst here
    exact List.mem_of_mem_tail (by simpa using member)
  · simpa [here] using member

/-- A switch or throw into a greenlet. -/
theorem enterGreenlet (before : Schedules k k') (error : Option (PyError ν)) (fuel : Nat)
    (t : TaskletId) : Schedules k (k'.enterGreenlet error fuel t) := by
  have changed : ∀ {k' : Config ν} (t : TaskletId) (greenlet : Greenlet),
      (∀ runnable, greenlet ≠ .fresh runnable) → Schedules k k' →
      Schedules k (k'.modifyTasklet t (.setGreenlet greenlet)) := fun t greenlet old before =>
    before.modifyTasklet t ⟨rfl, fun blocked => ⟨blocked, rfl⟩, .inl rfl, .inl rfl, .inl ⟨rfl, rfl⟩,
      fun runnable fresh => absurd fresh (old runnable)⟩
  induction fuel generalizing k' t with
  | zero => exact before.crash
  | succ fuel ih =>
      rw [Config.enterGreenlet]
      split
      · exact before.fail _
      · exact before.goesOn rfl rfl rfl rfl rfl
      · split
        · exact ih before _
        · exact before.crash
      · split
        · split
          · exact (changed t .started (by simp) before).goesOn rfl rfl rfl rfl rfl
          · exact before.fail _
        · split
          · exact ih (changed t .dead (by simp) before) _
          · exact before.crash

/-- The part of `SwitchTo` right before the switch. -/
theorem beginSwitch (before : Schedules k k') (t : TaskletId) : Schedules k (k'.beginSwitch t) := by
  have current : Schedules k (k'.withState (k'.state.setCurrentTasklet t)) :=
    before.withState ((State.Undisturbed.refl _).setCurrentTasklet t)
  have unpaused := @Schedules.modifyTasklet _ _ _ current t (.setPaused false)
    (.of_fields rfl rfl rfl rfl rfl ⟨rfl, rfl⟩ rfl)
  have ran := @Schedules.modifyTasklet _ _ _ unpaused t (.setFirstRun false)
    (.of_fields rfl rfl rfl rfl rfl ⟨rfl, rfl⟩ rfl)
  exact ran.push rfl

/-- `Tasklet::SwitchTo`, up to the switch. -/
theorem switchTo (before : Schedules k k') (t : TaskletId) : Schedules k (k'.switchTo t) := by
  rcases k'.switchTo_cases t with ⟨error, done⟩ | ⟨-, done⟩ | ⟨-, error, -, done⟩ | ⟨-, done⟩
  · rw [done]
    exact before.fail error
  · rw [done]
    exact (before.modifyTasklet t (.of_fields rfl rfl rfl rfl rfl ⟨rfl, rfl⟩ rfl)).ret true
  · rw [done]
    refine Schedules.raise (Schedules.modifyTasklet (before.modifyTasklet t ?_) t ?_) error
    · exact ⟨rfl, fun blocked => ⟨blocked, rfl⟩, .inr rfl, .inl rfl, .inl ⟨rfl, rfl⟩, fun _ => id⟩
    · exact .of_fields rfl rfl rfl rfl rfl ⟨rfl, rfl⟩ rfl
  · rw [done]
    exact (before.beginSwitch t).enterGreenlet none _ t

theorem ite {condition : Prop} [Decidable condition] (first : Schedules k k')
    (second : Schedules k k'') : Schedules k (if condition then k' else k'') := by
  split
  · exact first
  · exact second

/-- `Tasklet::SwitchTo` after the switch came back. -/
theorem switchedBack (before : Schedules k k') (t : TaskletId) (ok : Bool) :
    Schedules k (k'.switchedBack t ok) := by
  have arguments : Schedules k (k'.modifyTasklet t (.setArguments none none)) :=
    before.modifyTasklet t ⟨rfl, fun blocked => ⟨blocked, rfl⟩, .inl rfl, .inl rfl, .inr ⟨rfl, rfl⟩,
      fun _ => id⟩
  simp only [Config.switchedBack]
  split
  · refine Schedules.raise (arguments.modifyTasklet _ ?_) _
    exact ⟨rfl, fun blocked => ⟨blocked, rfl⟩, .inr rfl, .inl rfl, .inl ⟨rfl, rfl⟩, fun _ => id⟩
  · refine ret (ite ?tagged (modifyTasklet ?tagged _ (.of_fields rfl rfl rfl rfl rfl ⟨rfl, rfl⟩ rfl))) ok
    refine modifyTasklet (ite (modifyTasklet ?alive _ (.of_fields rfl rfl rfl rfl rfl ⟨rfl, rfl⟩ rfl))
      ?alive) _ (.of_fields rfl rfl rfl rfl rfl ⟨rfl, rfl⟩ rfl)
    refine ite (arguments.modifyTasklet _ ?_) arguments
    exact .of_fields rfl rfl rfl rfl rfl ⟨rfl, rfl⟩ rfl

/-- The loop of `Run`, up to the switch. -/
theorem runLoop (before : Schedules k k') (base : TaskletId) (endTasklet : Option TaskletId)
    (unblocked complete : Bool) : Schedules k (k'.runLoop base endTasklet unblocked complete) := by
  simp only [Config.runLoop]
  split
  · exact before.ret true
  · exact before.ret true
  split
  · exact before.ret true
  split
  · exact before.ret true
  split
  · exact before.fail _
  next done =>
    obtain ⟨-, -, -, rfl⟩ := State.setParent_ok done
    refine switchTo (push (before.withState (State.Undisturbed.testRunLimits ?_)) rfl) _
    exact (State.Undisturbed.refl _).modifyTasklet _ (.of_fields rfl rfl rfl rfl rfl ⟨rfl, rfl⟩ rfl)

/-- `ScheduleManager::Run`. -/
theorem run (before : Schedules k k') (start : Option TaskletId) : Schedules k (k'.run start) := by
  simp only [Config.run]
  split
  · split
    · exact before.runLoop _ _ _ _
    · exact before.crash
  · exact before.runLoop _ _ _ _

/-- `ScheduleManager::Yield`. -/
theorem yield (before : Schedules k k') : Schedules k k'.yield := by
  simp only [Config.yield]
  split
  · split
    · split
      · exact before.fail _
      · exact (before.push rfl).run none
    · exact before.run none
  · split
    · exact (before.push rfl).switchTo _
    · exact before.crash

/-- The re-entry loop of `Yield`. -/
theorem yieldSwitched (before : Schedules k k') (t : TaskletId) (ok : Bool) :
    Schedules k (k'.yieldSwitched t ok) := by
  rw [Config.yieldSwitched]
  split
  · exact before.ret false
  split
  · split
    · exact (before.push rfl).switchTo _
    · exact before.crash
  · exact before.ret true

/-- The yield of the blocked main tasklet after its run. -/
theorem yieldRan (before : Schedules k k') (ok : Bool) : Schedules k (k'.yieldRan ok) := by
  rw [Config.yieldRan]
  split
  · exact before.ret false
  split
  · exact before.fail _
  · exact before.ret true

/-- The end of `Run` after a failure. -/
theorem runFailed (before : Schedules k k') (t : TaskletId) : Schedules k (k'.runFailed t) := by
  rw [Config.runFailed]
  split
  · split
    · exact before.crash
    · next parent _ =>
      have removed := ((State.Undisturbed.refl k'.state).setCurrentTasklet parent).removeTasklet t
      generalize (k'.state.setCurrentTasklet parent).removeTasklet t = result at removed ⊢
      obtain ⟨s', reported⟩ := result
      refine (before.withState ?_).ret false
      split
      · exact removed.clearParent t
      · exact removed
  · exact (before.withState ((State.Undisturbed.refl _).clearParent t)).ret false

theorem catchExit (before : Schedules k k') (t : TaskletId) : Schedules k (k'.catchExit t) := by
  refine ite (goesOn (before.modifyTasklet t ?_) rfl rfl rfl rfl rfl) before
  exact ⟨rfl, fun blocked => ⟨blocked, rfl⟩, .inr rfl, .inl rfl, .inl ⟨rfl, rfl⟩, fun _ => id⟩

/-- The iteration of `Run` after a successful switch. -/
theorem runGoesOn (before : Schedules k k') {t : TaskletId}
    (placed : ∀ s', k'.state.runPostSwitch t = some s' → k'.state.Undisturbed s')
    (base : TaskletId) (endTasklet : Option TaskletId) (unblocked : Bool) :
    Schedules k (k'.runGoesOn base endTasklet unblocked t) := by
  rw [Config.runGoesOn]
  dsimp only
  split
  · exact before.crash
  · next s' done =>
      refine (before.withState ?_).runLoop _ _ _ _
      split
      · exact placed s' done
      · exact (placed s' done).clearParent t

end Schedules

/-- What the run loop does with `x` when it comes back: its request is granted and
dropped. -/
theorem Returned.undisturbed {k : Config ν} {chain : List TaskletId} {x : TaskletId}
    (returned : Returned k chain x) (entered : Entered promise k chain) {s' : State ν}
    (done : k.state.runPostSwitch x = some s') :
    k.state.Undisturbed s' ∧ (s'.tasklets x).reschedule = .none := by
  have left := returned.left entered
  rw [left.rest] at done
  obtain ⟨placed, dropped⟩ := State.Undisturbed.rescheduleTasklet left.queued left.present
    left.unscheduled left.currentScheduled done
  exact ⟨(((State.Undisturbed.refl _).setCurrentTasklet k.running).trans
    (.of_sameButQueue left.same)).trans placed, dropped⟩

/-- An iteration of `Run` after its `SwitchTo`. -/
theorem Orderly.schedules_runSwitched {k : Config ν} {chain : List TaskletId} {ok : Bool}
    {base x : TaskletId} {endTasklet : Option TaskletId} {unblocked : Bool} {below : List Frame}
    (orderly : Orderly promise k chain) (control : k.control = .returning ok)
    (top : k.stack k.running = .run base endTasklet unblocked x :: below) :
    Schedules k (k.pop.runSwitched base endTasklet unblocked x ok) := by
  obtain ⟨returned, entered⟩ := orderly.returned control top
  rw [Config.runSwitched]
  split
  · have quiet := k.pop.catchExit_quiet x
    exact ((Schedules.refl k).pop.catchExit x).runGoesOn (fun s' done =>
      ((returned.quiet quiet).undisturbed (quiet.entered entered) done).1) _ _ _
  · exact (Schedules.refl k).pop.runFailed x

end CarbonLab.Scheduler
