import CarbonLab.Scheduler.Yield

/-!
# The operations of tasklets keep configurations orderly

`Tasklet::Run`, `Kill`, `ThrowException` and the other calls Python makes on a
tasklet, up to the next switch.
-/

namespace CarbonLab.Scheduler

variable {ν : Type} {promise : Promise}

/-- A call that Python made runs in a tasklet that is not blocked. -/
structure Resting (promise : Promise) (k : Config ν) (chain : List TaskletId) : Prop where
  entered : Entered promise k chain
  rest : AtRest k

namespace Resting

variable {k k' : Config ν} {chain : List TaskletId} {t : TaskletId}

theorem quiet (resting : Resting promise k chain) (quiet : Quiet k k') : Resting promise k' chain :=
  ⟨quiet.entered resting.entered, quiet.atRest resting.rest⟩

/-- Changing fields of a tasklet that the invariant does not read. -/
theorem modifyTasklet (resting : Resting promise k chain) (t : TaskletId) (change : Tasklet ν → Tasklet ν)
    (keeps : ∀ tasklet, (change tasklet).standing = tasklet.standing)
    (links : ∀ tasklet, (change tasklet).links = tasklet.links)
    (passed : ∀ tasklet, tasklet.Passed → (change tasklet).Passed) :
    Resting promise (k.modifyTasklet t change) chain :=
  resting.quiet ((Quiet.refl k).modifyTasklet t change keeps links passed)

theorem withState (resting : Resting promise k chain) {s' : State ν} (agree : Agree k.state s')
    (current : s'.currentTasklet = k.state.currentTasklet) : Resting promise (k.withState s') chain :=
  resting.quiet ⟨agree, current, rfl, rfl⟩

theorem returned (resting : Resting promise k chain) {ok : Bool} (same : SameBody k k')
    (control : k'.control = .returning ok) : Ordered promise k' :=
  resting.entered.returned resting.rest same control

theorem ret (resting : Resting promise k chain) (ok : Bool) : Ordered promise (k.ret ok) :=
  resting.returned ⟨rfl, rfl, rfl⟩ rfl

theorem raise (resting : Resting promise k chain) (error : PyError ν) : Ordered promise (k.raise error) :=
  resting.returned ⟨rfl, rfl, rfl⟩ rfl

theorem fail (resting : Resting promise k chain) (error : SchedulerError) : Ordered promise (k.fail error) :=
  resting.returned ⟨rfl, rfl, rfl⟩ rfl

theorem push (resting : Resting promise k chain) (frame : Frame) (operation : frame.isOperation = true)
    (owner : ∀ u, frame.owner = some u → u = k.running) : Resting promise (k.push frame) chain :=
  ⟨resting.entered.push resting.rest.unblocked operation owner,
    resting.rest.current, resting.rest.unblocked, resting.rest.exclusive⟩

/-- `ScheduleManager::Run` of a scheduled tasklet. -/
theorem run_some (resting : Resting promise k chain) (scheduled : (k.state.tasklets t).scheduled = true)
    (nested : ¬ promise.flat) (main : t = mainTasklet → ¬ promise.calm) :
    Ordered promise (k.run (some t)) := by
  refine (Looping.of_rest resting.entered resting.rest).run resting.rest.exclusive _
    (fun _ _ => nested) ?_
  rintro _ ⟨⟩ first
  refine main (by_contra fun notMain => ?_)
  obtain ⟨base, previous, -⟩ := resting.entered.queued.behind scheduled notMain
  rw [first] at previous
  cases previous

/-- `ScheduleManager::Run` of all tasklets. -/
theorem run_none (resting : Resting promise k chain) : Ordered promise (k.run none) :=
  (Looping.of_rest resting.entered resting.rest).run resting.rest.exclusive none (by simp) (by simp)

theorem yield (resting : Resting promise k chain) : Ordered promise k.yield :=
  resting.entered.yield resting.rest.inCall resting.rest.yielding

/-- `ScheduleManager::Schedule`. -/
theorem schedule (resting : Resting promise k chain) (position : RescheduleType) (remove : Bool) :
    Ordered promise (k.schedule position remove) := by
  rw [Config.schedule]
  cases remove with
  | false =>
      exact (resting.modifyTasklet _ (.setReschedule position) (fun _ => rfl) (fun _ => rfl)
        fun _ => id).yield
  | true =>
      exact (resting.modifyTasklet _ (.setTaggedForRemoval true) (fun _ => rfl) (fun _ => rfl)
        fun _ => id).yield

theorem eased (resting : Resting promise k chain) {s' : State ν} (eases : Eases k.state s')
    (queued : Queued promise s' chain) (exclusive : Exclusive s' none none) :
    Resting promise (k.withState s') chain where
  entered := resting.entered.eased eases queued rfl rfl
  rest := ⟨eases.current.trans resting.rest.current, eases.unblocked resting.rest.unblocked,
    exclusive⟩

/-- `InsertTasklet` of a tasklet that is not blocked. -/
theorem insertTasklet (resting : Resting promise k chain) (present : t < k.state.taskletCount)
    (unblocked : (k.state.tasklets t).blocked = false) :
    ∃ s', k.state.insertTasklet t = some s' ∧ Resting promise (k.withState s') chain ∧
      (s'.tasklets t).scheduled = true := by
  obtain ⟨s', done, queued, inserted⟩ := resting.entered.queued.insertTasklet present
  refine ⟨s', done, resting.eased inserted.eases queued
    (inserted.exclusive resting.rest.exclusive unblocked), ?_⟩
  simp [inserted.scheduled]

/-- `InsertTaskletToRunNext` of a tasklet that is not blocked. -/
theorem insertTaskletToRunNext (resting : Resting promise k chain) (present : t < k.state.taskletCount)
    (unblocked : (k.state.tasklets t).blocked = false) :
    Resting promise (k.withState (k.state.insertTaskletToRunNext t)) chain := by
  have current : (k.state.tasklets k.state.currentTasklet).scheduled = true := by
    rw [resting.rest.current]
    exact resting.entered.running_scheduled
  obtain ⟨queued, inserted⟩ := resting.entered.queued.insertTaskletToRunNext present current
  exact resting.eased inserted.eases queued (inserted.exclusive resting.rest.exclusive unblocked)

/-- `RemoveTasklet` of a tasklet that is not active. -/
theorem removeTasklet (resting : Resting promise k chain)
    (scheduled : (k.state.tasklets t).scheduled = true) (outside : t ∉ chain) :
    Resting promise (k.withState (k.state.removeTasklet t).1) chain ∧
      SameButQueue k.state (k.state.removeTasklet t).1 := by
  have notMain : t ≠ mainTasklet := fun main =>
    outside (main ▸ resting.entered.chained.active.main_mem)
  obtain ⟨queued, same, -, scheduled'⟩ :=
    resting.entered.queued.removeTasklet scheduled notMain outside
  refine ⟨resting.eased same.eases queued ?_, same⟩
  refine resting.rest.exclusive.requeue same fun u notMain settled blocked => ?_
  rw [scheduled', resting.rest.exclusive.waiting u notMain settled blocked, Bool.false_and]

/-- `Tasklet::Run` without nested tasklets first takes its tasklet out of the queue. -/
theorem unqueued (resting : Resting promise k chain) (outside : t ∉ chain) {s' : State ν}
    (state : s' = if (k.state.tasklets t).scheduled then (k.state.removeTasklet t).1 else k.state) :
    Resting promise (k.withState s') chain ∧ SameButQueue k.state s' ∧
      (s'.tasklets t).scheduled = false := by
  split at state
  · next scheduled =>
      have notMain : t ≠ mainTasklet := fun main =>
        outside (main ▸ resting.entered.chained.active.main_mem)
      obtain ⟨-, -, -, scheduled'⟩ :=
        resting.entered.queued.removeTasklet scheduled notMain outside
      obtain ⟨removed, same⟩ := resting.removeTasklet scheduled outside
      subst state
      exact ⟨removed, same, by simp [scheduled']⟩
  · next unscheduled =>
      subst state
      exact ⟨resting, rfl, by simpa using unscheduled⟩

/-- `Tasklet::Run` of a tasklet, one that is not active unless tasklets nest. -/
theorem taskletRun (resting : Resting promise k chain) (present : t < k.state.taskletCount)
    (inactive : (k.state.tasklets t).alive = true → k.state.useNestedTasklets = false → t ∉ chain)
    (main : (k.state.tasklets t).alive = true → t = mainTasklet → ¬ promise.calm) :
    Ordered promise (k.taskletRun t) := by
  simp only [Config.taskletRun]
  split
  · exact resting.fail _
  next alive =>
  have alive : (k.state.tasklets t).alive = true := by simpa using alive
  specialize main alive
  split
  · exact resting.fail _
  next unblocked =>
  have unblocked : (k.state.tasklets t).blocked = false := by simpa using unblocked
  split
  · next mode =>
    have nested := resting.entered.queued.not_flat mode
    split
    · next scheduled => exact resting.run_some scheduled nested main
    · obtain ⟨s', done, resting', scheduled⟩ := resting.insertTasklet present unblocked
      rw [done]
      exact resting'.run_some scheduled nested main
  · next mode =>
      obtain ⟨removed, same, -⟩ := resting.unqueued (inactive alive (by simpa using mode)) rfl
      have present' := same.eases.count.symm ▸ present
      exact (removed.insertTaskletToRunNext present' (same.eases.unblocked unblocked)).schedule _ _

/-- `Tasklet::Insert`. -/
theorem insert (resting : Resting promise k chain) (present : t < k.state.taskletCount) :
    Ordered promise (k.insert t) := by
  simp only [Config.insert]
  split
  · exact resting.fail _
  next unblocked =>
  split
  · exact resting.fail _
  · obtain ⟨s', done, resting', -⟩ := resting.insertTasklet present (by simpa using unblocked)
    rw [done]
    exact (resting'.modifyTasklet t (.setPaused false) (fun _ => rfl) (fun _ => rfl)
      fun _ => id).ret true

/-- `Tasklet::Remove` of a tasklet that is not active. -/
theorem remove (resting : Resting promise k chain) (outside : t ∉ chain) : Ordered promise (k.remove t) := by
  rw [Config.remove]
  split
  · next scheduled =>
      exact ((resting.removeTasklet scheduled outside).1.modifyTasklet t (.setPaused true)
        (fun _ => rfl) (fun _ => rfl) fun _ => id).ret true
  · exact resting.ret true

/-- `Tasklet::SwitchImplementation`. -/
theorem switchImplementation (resting : Resting promise k chain) (present : t < k.state.taskletCount)
    (nested : ¬ promise.flat) (main : t = mainTasklet → ¬ promise.calm) : Ordered promise (k.switchImplementation t) := by
  simp only [Config.switchImplementation]
  split
  · exact resting.fail _
  split
  · exact resting.fail _
  next unblocked =>
  have paused := resting.modifyTasklet k.state.currentTasklet (.setPaused true) (fun _ => rfl)
    (fun _ => rfl) fun _ => id
  split
  · next scheduled =>
      refine (paused.push .switchScheduled rfl (by simp [Frame.owner])).run_some ?_ nested main
      by_cases here : t = k.state.currentTasklet
      · subst here
        simpa using scheduled
      · simpa [here] using scheduled
  · have unblocked' : ((k.modifyTasklet k.state.currentTasklet
        (.setPaused true)).state.tasklets t).blocked = false := by
      by_cases here : t = k.state.currentTasklet
      · subst here
        simpa using unblocked
      · simpa [here] using unblocked
    obtain ⟨s', done, resting', scheduled⟩ := paused.insertTasklet (t := t) present unblocked'
    rw [done]
    exact (resting'.push .switchUnscheduled rfl (by simp [Frame.owner])).run_some scheduled nested
      main

end Resting

/-! ## Kills and throws -/

/-- The active tasklets below the running one are in their run loops. -/
theorem ActiveChain.waits {k : Config ν} {chain : List TaskletId} (active : ActiveChain k chain)
    {t : TaskletId} (member : t ∈ chain.tail) : ∃ x base endTasklet unblocked below,
      k.stack t = .switchTo x :: .run base endTasklet unblocked x :: below := by
  induction chain with
  | nil => exact active.elim
  | cons r rest ih =>
      cases rest with
      | nil => cases member
      | cons parent rest =>
          obtain ⟨-, -, ⟨base, endTasklet, unblocked, below, stack⟩, above⟩ := active
          cases member with
          | head => exact ⟨r, base, endTasklet, unblocked, below, stack⟩
          | tail _ member => exact ih above member

/-- A blocked tasklet other than main that is not running is suspended in the yield
of the call that blocked it. -/
structure Waiting (k : Config ν) (chain : List TaskletId) (x : TaskletId) (c : ChannelId) :
    Prop where
  notMain : x ≠ mainTasklet
  outside : x ∉ chain
  unscheduled : (k.state.tasklets x).scheduled = false
  started : (k.state.tasklets x).greenlet = .started
  inside : ∃ frame parent, WaitsOn c x frame ∧
    k.stack x = [.switchTo parent, .yieldSwitch x, frame]

/-- The tasklet `x` was unblocked while it may still be on the list of `c`. -/
structure Freed (promise : Promise) (k : Config ν) (chain : List TaskletId) (x : TaskletId) (c : ChannelId) :
    Prop where
  entered : Entered promise k chain
  current : k.state.currentTasklet = k.running
  unblocked : (k.state.tasklets k.running).blocked = false
  exclusive : Exclusive k.state (some x) none
  own : (k.state.tasklets x).blocked = false
  only : ∀ c' d, k.state.OnBlockedList c' d x → c' = c

namespace Resting

variable {k : Config ν} {chain : List TaskletId} {t : TaskletId}

theorem ne_running (resting : Resting promise k chain) (blocked : (k.state.tasklets t).blocked = true) :
    t ≠ k.running := by
  rintro rfl
  exact Bool.false_ne_true (resting.rest.unblocked.symm.trans blocked)

/-- Where a blocked tasklet is. -/
theorem waiting (resting : Resting promise k chain) (blocked : (k.state.tasklets t).blocked = true) :
    ∃ c, (k.state.tasklets t).channelBlockedOn = some c ∧
      (t = mainTasklet ∨ Waiting k chain t c) := by
  obtain ⟨c, frame, channel, waits, shape⟩ := resting.entered.shaped.blocked t blocked
  refine ⟨c, channel, or_iff_not_imp_left.mpr fun notMain => ?_⟩
  have other := resting.ne_running blocked
  have outside : t ∉ chain := by
    intro member
    rw [List.eq_cons_of_mem_head? resting.entered.chained.head] at member
    have inTail : t ∈ chain.tail := by simpa [other] using member
    obtain ⟨x, base, endTasklet, unblocked, below, stack⟩ :=
      resting.entered.chained.active.waits inTail
    rw [stack] at shape
    cases shape with
    | switched main => exact notMain main
  obtain ⟨idle, -⟩ | ⟨parent, below, stack, started⟩ :=
    resting.entered.chained.suspended t outside
  · rw [idle] at shape
    cases shape
  · refine ⟨notMain, outside, resting.rest.exclusive.waiting t notMain (by simp) blocked, started,
      frame, parent, waits, ?_⟩
    rw [stack] at shape ⊢
    cases shape with
    | yielded => rfl

/-- Unblock a blocked tasklet. -/
theorem freed (resting : Resting promise k chain) {c : ChannelId}
    (blocked : (k.state.tasklets t).blocked = true)
    (channel : (k.state.tasklets t).channelBlockedOn = some c) :
    Freed promise (k.modifyTasklet t .unblock) chain t c where
  entered := by
    refine resting.entered.eased (Eases.unblock _ t) ?_ rfl rfl
    exact resting.entered.queued.modifyTasklet t .unblock (fun _ => rfl) (fun _ => rfl) fun _ => rfl
  current := resting.rest.current
  unblocked := by
    have other := resting.ne_running blocked
    simpa [other.symm] using resting.rest.unblocked
  exclusive := (resting.rest.exclusive.doom (some t)).unblock (.inr rfl)
  own := (by simp)
  only := by
    intro c' d onList
    have before : k.state.OnBlockedList c' d t := by
      have pointers : (fun u => ((k.modifyTasklet t .unblock).state.tasklets u).previousBlocked) =
          fun u => (k.state.tasklets u).previousBlocked := by
        funext u
        by_cases here : u = t <;> simp [here]
      rw [State.OnBlockedList, pointers] at onList
      exact onList
    have channel' := (resting.rest.exclusive.onList_blocked before).2
    rw [channel] at channel'
    exact (Option.some.inj channel').symm

end Resting

/-- Insertion into the run queue leaves the blocked lists alone. -/
theorem Inserted.onBlockedList {s s' : State ν} {t : TaskletId} (inserted : Inserted s s' t)
    (c : ChannelId) (d : ChannelDirection) (u : TaskletId) :
    s'.OnBlockedList c d u ↔ s.OnBlockedList c d u := by
  have pointers : (fun u => (s'.tasklets u).previousBlocked) =
      fun u => (s.tasklets u).previousBlocked := funext fun u =>
    inserted.field u Tasklet.previousBlocked (fun _ => rfl) (fun _ => rfl) fun _ => rfl
  have channels : s'.channels = s.channels :=
    inserted.view State.channels (fun _ => rfl) fun _ _ _ => rfl
  rw [State.OnBlockedList, State.OnBlockedList, pointers, channels]

namespace Waiting

variable {k k' : Config ν} {chain : List TaskletId} {x : TaskletId} {c : ChannelId}

theorem quiet (waiting : Waiting k chain x c) (quiet : Quiet k k') : Waiting k' chain x c where
  notMain := waiting.notMain
  outside := waiting.outside
  unscheduled := (quiet.agree.field x Standing.scheduled).trans waiting.unscheduled
  started := (congrArg Links.greenlet (quiet.agree.links x)).trans waiting.started
  inside := by
    rw [quiet.stack]
    exact waiting.inside

theorem unblock (waiting : Waiting k chain x c) : Waiting (k.modifyTasklet x .unblock) chain x c :=
  ⟨waiting.notMain, waiting.outside, by simpa using waiting.unscheduled,
    by simpa using waiting.started, waiting.inside⟩

theorem push (waiting : Waiting k chain x c) (other : x ≠ k.running) (frame : Frame) :
    Waiting (k.push frame) chain x c :=
  ⟨waiting.notMain, waiting.outside, waiting.unscheduled, waiting.started, by
    simpa [other] using waiting.inside⟩

end Waiting

namespace Freed

variable {k k' : Config ν} {chain : List TaskletId} {x : TaskletId} {c : ChannelId}

theorem quiet (freed : Freed promise k chain x c) (quiet : Quiet k k') : Freed promise k' chain x c where
  entered := quiet.entered freed.entered
  current := by rw [quiet.current, quiet.running, freed.current]
  unblocked := by
    rw [quiet.running]
    exact (quiet.agree.field _ Standing.blocked).trans freed.unblocked
  exclusive := freed.exclusive.congr quiet.agree.toSameLists
  own := (quiet.agree.field x Standing.blocked).trans freed.own
  only := fun c' d onList => freed.only c' d
    ((quiet.agree.toSameLists.onBlockedList c' d x).mp onList)

theorem push (freed : Freed promise k chain x c) (frame : Frame) (operation : frame.isOperation = true)
    (owner : ∀ u, frame.owner = some u → u = k.running) : Freed promise (k.push frame) chain x c :=
  ⟨freed.entered.push freed.unblocked operation owner, freed.current, freed.unblocked,
    freed.exclusive, freed.own, freed.only⟩

theorem insertTasklet (freed : Freed promise k chain x c) (present : x < k.state.taskletCount) :
    ∃ s', k.state.insertTasklet x = some s' ∧ Freed promise (k.withState s') chain x c ∧
      Inserted k.state s' x := by
  obtain ⟨s', done, queued, inserted⟩ := freed.entered.queued.insertTasklet present
  refine ⟨s', done, ⟨freed.entered.eased inserted.eases queued rfl rfl, ?_, ?_, ?_, ?_, ?_⟩,
    inserted⟩
  · exact inserted.eases.current.trans freed.current
  · exact inserted.eases.unblocked freed.unblocked
  · exact inserted.exclusive freed.exclusive freed.own
  · exact inserted.eases.unblocked freed.own
  · exact fun c' d onList => freed.only c' d ((inserted.onBlockedList c' d x).mp onList)

/-- Take the unblocked tasklet off its list. -/
theorem removeTaskletFromBlocked (freed : Freed promise k chain x c) :
    Resting promise (k.withState (k.state.removeTaskletFromBlocked c x)) chain ∧
      ((k.state.removeTaskletFromBlocked c x).tasklets x).blocked = false := by
  have same := k.state.removeTaskletFromBlocked_eraseBlockedLists c x
  have eases := Eases.of_eraseBlockedLists same
  obtain ⟨exclusive, unlisted⟩ := freed.exclusive.removeTaskletFromBlocked freed.only
  have own := eases.unblocked freed.own
  exact ⟨⟨freed.entered.eased eases (freed.entered.queued.of_eraseBlockedLists same) rfl rfl,
    eases.current.trans freed.current, eases.unblocked freed.unblocked,
    exclusive.undoom unlisted own⟩, own⟩

/-- `Tasklet::Run` of an unblocked tasklet lets it fail in the call that blocked it. -/
theorem taskletRun (freed : Freed promise k chain x c) (waiting : x = mainTasklet ∨ Waiting k chain x c)
    {frame : Frame} {below : List Frame} (top : k.stack k.running = frame :: below)
    (restores : Restores x frame) (other : k.running ≠ x)
    (nested : k.state.useNestedTasklets = true)
    (exception : (k.state.tasklets x).exceptionState ≠ none)
    (present : x < k.state.taskletCount) (main : x = mainTasklet → ¬ promise.calm) :
    Ordered promise (k.taskletRun x) := by
  have failed : Ordered promise (k.fail .runDead) := by
    obtain ⟨channel, rfl | rfl⟩ := restores
    · exact .inr (.inl ⟨rfl, x, channel, below, .inl (.inl top)⟩)
    · exact .inr (.inl ⟨rfl, x, channel, below, .inl (.inr top)⟩)
  simp only [Config.taskletRun]
  split
  · exact failed
  simp only [freed.own, Bool.false_eq_true, if_false]
  rcases waiting with isMain | waiting
  · have scheduled : (k.state.tasklets x).scheduled = true := by
      rw [isMain]
      exact freed.entered.queued.active _ freed.entered.chained.active.main_mem
    have first : (k.state.tasklets x).previous = none := by
      obtain ⟨queue, rep⟩ := freed.entered.queued.rep
      rw [isMain]
      exact rep.segment.1
    simp only [scheduled, if_true, Config.run, first]
    exact .inl ⟨main isMain, rfl⟩
  · obtain ⟨s', done, freed', inserted⟩ := freed.insertTasklet present
    simp only [waiting.unscheduled, Bool.false_eq_true, if_false, done]
    obtain ⟨waitingFrame, parent, waits, stack⟩ := waiting.inside
    have looping : Looping promise (k.withState s') chain :=
      ⟨freed'.entered, freed'.current, .inl freed'.unblocked⟩
    refine looping.run_doomed ?_ ?_ other waiting.notMain top restores
      (freed.entered.queued.not_flat nested)
    · refine ⟨freed'.exclusive, ?_, ?_, c, waitingFrame, parent, waits, stack, freed'.only⟩
      · have same := inserted.field x Tasklet.exceptionState (fun _ => rfl) (fun _ => rfl)
          fun _ => rfl
        rw [Config.withState_state, same]
        exact exception
      · exact (inserted.field x Tasklet.greenlet (fun _ => rfl) (fun _ => rfl) fun _ => rfl).trans
          waiting.started
    · rw [Config.withState_state, inserted.scheduled]
      simp

end Freed

theorem State.modifyTasklet_eq_self {s : State ν} {t : TaskletId} {change : Tasklet ν → Tasklet ν}
    (same : change (s.tasklets t) = s.tasklets t) : s.modifyTasklet t change = s := by
  rw [State.modifyTasklet, same, Function.update_eq_self]

namespace Resting

variable {k k' : Config ν} {chain : List TaskletId} {t : TaskletId}

/-- A tasklet that is not blocked has no blocked direction. -/
theorem clearDirection (resting : Resting promise k chain)
    (unblocked : (k.state.tasklets t).blocked = false) :
    Resting promise (k.modifyTasklet t (.setBlockedDirection .neither)) chain := by
  obtain ⟨lists, rep, -⟩ := resting.rest.exclusive.lists
  have direction : (k.state.tasklets t).blockedDirection = .neither := by
    refine (rep.unlisted t fun c d member => ?_).2.2
    exact resting.rest.exclusive.unlisted unblocked c d ((rep.onBlockedList_iff c d t).mpr member)
  have same : k.modifyTasklet t (.setBlockedDirection .neither) = k := by
    rw [Config.modifyTasklet, State.modifyTasklet_eq_self]
    rw [Tasklet.setBlockedDirection, ← direction]
  rwa [same]

/-- The reach of a kill or throw: unless it waits for the target's turn, a blocked
target needs nested tasklets, an active one as well. -/
def Reaches (k : Config ν) (chain : List TaskletId) (t : TaskletId) : Prop :=
  k.state.useNestedTasklets = false → t ∉ chain ∧ (k.state.tasklets t).blocked = false

/-- `Tasklet::Kill`. -/
theorem kill (resting : Resting promise k chain) (present : t < k.state.taskletCount) (pending : Bool)
    (reaches : pending = false → (k.state.tasklets t).alive = true → k.state.currentTasklet ≠ t →
      Reaches k chain t)
    (main : pending = false → (k.state.tasklets t).alive = true → t = mainTasklet →
      k.state.currentTasklet ≠ t → ¬ promise.calm) : Ordered promise (k.kill t pending) := by
  simp only [Config.kill]
  split
  · exact resting.ret true
  next condition =>
  have alive : (k.state.tasklets t).alive = true := by
    simp only [Bool.or_eq_true, Bool.not_eq_true', not_or, Bool.not_eq_false] at condition
    exact condition.1
  cases blocked : (k.state.tasklets t).blocked with
  | false =>
      simp only [Bool.false_eq_true, if_false]
      have excepted := resting.modifyTasklet t (.setExceptionState .taskletExit) (fun _ => rfl)
        (fun _ => rfl) fun _ => id
      have unblocked : ((k.modifyTasklet t (.setExceptionState .taskletExit)).state.tasklets
          t).blocked = false := by simpa using blocked
      split
      · exact (excepted.modifyTasklet t .clearException (fun _ => rfl) (fun _ => rfl)
          fun _ => id).raise _
      next notCurrent =>
      split
      · obtain ⟨s', done, resting', -⟩ := excepted.insertTasklet (t := t) present unblocked
        rw [done]
        exact ((resting'.modifyTasklet t (.setReschedule .none) (fun _ => rfl) (fun _ => rfl)
          fun _ => id).modifyTasklet t (.setKillPending true) (fun _ => rfl) (fun _ => rfl)
          fun _ => id).ret true
      · next notPending =>
          have called := (excepted.modifyTasklet t (.setReschedule .none) (fun _ => rfl)
            (fun _ => rfl) fun _ => id).push (.kill t false
              (k.state.tasklets t).channelBlockedOn) rfl (by simp [Frame.owner])
          have notPending : pending = false := by simpa using notPending
          exact called.taskletRun present
            (fun _ mode => (reaches notPending alive notCurrent mode).1)
            fun _ isMain => main notPending alive isMain notCurrent
  | true =>
      simp only [if_true]
      have other := resting.ne_running blocked
      obtain ⟨c, channel, waiting⟩ := resting.waiting blocked
      have excepting := (Quiet.refl (k.modifyTasklet t .unblock)).modifyTasklet t
        (.setExceptionState .taskletExit) (fun _ => rfl) (fun _ => rfl) fun _ => id
      have freed := (resting.freed blocked channel).quiet excepting
      have notCurrent : k.state.currentTasklet ≠ t := resting.rest.current.trans_ne other.symm
      rw [if_neg (freed.current.trans_ne other.symm)]
      split
      · obtain ⟨s', done, freed', -⟩ := freed.insertTasklet present
        rw [done]
        simp only [channel]
        obtain ⟨removed, own⟩ := (freed'.quiet (((Quiet.refl _).modifyTasklet t
          (.setReschedule .none) (fun _ => rfl) (fun _ => rfl) fun _ => id).modifyTasklet t
          (.setKillPending true) (fun _ => rfl) (fun _ => rfl)
          fun _ => id)).removeTaskletFromBlocked
        exact (removed.clearDirection own).ret true
      · next notPending =>
          have notPending : pending = false := by simpa using notPending
          have nested : k.state.useNestedTasklets = true := by
            by_contra flat
            have := (reaches notPending alive notCurrent (by simpa using flat)).2
            exact Bool.false_ne_true (this.symm.trans blocked)
          have rescheduling := excepting.modifyTasklet t (.setReschedule .none) (fun _ => rfl)
            (fun _ => rfl) fun _ => id
          have freed' := ((resting.freed blocked channel).quiet rescheduling).push
            (.kill t true (k.state.tasklets t).channelBlockedOn) rfl (by simp [Frame.owner])
          refine freed'.taskletRun ?_ (Function.update_self ..) ⟨_, .inl rfl⟩ other.symm nested
            (by simp) present fun isMain => main notPending alive isMain notCurrent
          rcases waiting with isMain | waiting
          · exact .inl isMain
          · exact .inr ((waiting.unblock.quiet rescheduling).push other _)

/-- `Tasklet::ThrowException`. -/
theorem throwException (resting : Resting promise k chain) (present : t < k.state.taskletCount)
    (exception : PyError ν) (pending : Bool)
    (patient : pending = true → (k.state.tasklets t).alive = true →
      (k.state.tasklets t).blocked = false)
    (reaches : pending = false → k.state.currentTasklet ≠ t → Reaches k chain t)
    (main : pending = false → t = mainTasklet → k.state.currentTasklet ≠ t → ¬ promise.calm) :
    Ordered promise (k.throwException t exception pending) := by
  have excepted := resting.modifyTasklet t (.setExceptionState exception) (fun _ => rfl)
    (fun _ => rfl) fun _ => id
  have cleared := excepted.modifyTasklet t .clearException (fun _ => rfl) (fun _ => rfl)
    fun _ => id
  simp only [Config.throwException]
  split
  · exact cleared.raise _
  next notCurrent =>
  split
  · next isPending =>
      split
      · next alive =>
        obtain ⟨s', done, resting', -⟩ := excepted.insertTasklet (t := t) present
          (by simpa using patient isPending alive)
        rw [done]
        exact resting'.ret true
      · split
        · exact cleared.ret true
        · exact cleared.fail _
  next notPending =>
  have notPending : pending = false := by simpa using notPending
  have reach := reaches notPending notCurrent
  split
  · next blocked =>
      have other := resting.ne_running blocked
      have nested : k.state.useNestedTasklets = true := by
        by_contra flat
        exact Bool.false_ne_true ((reach (by simpa using flat)).2.symm.trans blocked)
      have blocked' : ((k.modifyTasklet t (.setExceptionState exception)).state.tasklets
          t).blocked = true := by simpa using blocked
      obtain ⟨c, channel, waiting⟩ := excepted.waiting blocked'
      have freed := (excepted.freed blocked' channel).push
        (.throwBlocked t (k.state.tasklets t).channelBlockedOn) rfl (by simp [Frame.owner])
      refine freed.taskletRun ?_ (Function.update_self ..) ⟨_, .inr rfl⟩ other.symm nested
        (by simp) present fun isMain => main notPending isMain notCurrent
      rcases waiting with isMain | waiting
      · exact .inl isMain
      · exact .inr (waiting.unblock.push other _)
  · split
    · exact excepted.taskletRun present (fun _ mode => (reach mode).1)
        fun _ isMain => main notPending isMain notCurrent
    · split
      · exact cleared.ret true
      · exact cleared.fail _

/-- A tasklet whose greenlet is not running or suspended gets another one. -/
theorem relink (resting : Resting promise k chain) {change : Tasklet ν → Tasklet ν} {fresh : Tasklet ν}
    (changed : change (k.state.tasklets t) = fresh)
    (idle : (k.state.tasklets t).greenlet ≠ .started) (stays : fresh.greenlet ≠ .started)
    (isMain : fresh.isMain = (k.state.tasklets t).isMain) (unblocked : fresh.blocked = false)
    (queue : fresh.next = (k.state.tasklets t).next ∧
      fresh.previous = (k.state.tasklets t).previous ∧
      fresh.scheduled = (k.state.tasklets t).scheduled)
    (lists : fresh.nextBlocked = (k.state.tasklets t).nextBlocked ∧
      fresh.previousBlocked = (k.state.tasklets t).previousBlocked ∧
      fresh.blockedDirection = (k.state.tasklets t).blockedDirection)
    (present : t < k.state.taskletCount) : Resting promise (k.modifyTasklet t change) chain := by
  rw [show k.modifyTasklet t change = k.modifyTasklet t fun _ => fresh by
    simp [Config.modifyTasklet, State.modifyTasklet, changed]]
  have outside : t ∉ chain := fun member => idle (resting.entered.chained.started t member)
  have other : ∀ u ∈ chain, u ≠ t := fun u member same => outside (same ▸ member)
  have stack : k.stack t = [] := by
    obtain ⟨empty, -⟩ | ⟨_, _, -, started⟩ := resting.entered.chained.suspended t outside
    · exact empty
    · exact absurd started idle
  have before : (k.state.tasklets t).blocked = false :=
    resting.entered.shaped.unblocked_of_idle stack
  have notRunning : k.running ≠ t := other _ resting.entered.chained.running_mem
  have field : ∀ {β : Type} (view : Tasklet ν → β), view fresh = view (k.state.tasklets t) →
      ∀ u, view ((k.modifyTasklet t fun _ => fresh).state.tasklets u) =
        view (k.state.tasklets u) := by
    intro β view same u
    by_cases here : u = t
    · subst here
      simpa using same
    · simp [here]
  have scheduled := field Tasklet.scheduled queue.2.2
  constructor
  case entered =>
    constructor
    case chained =>
      constructor
      case head => exact resting.entered.chained.head
      case active =>
        refine resting.entered.chained.active.congr (fun u member => ?_) fun _ _ => rfl
        simp [other u member]
      case nodup => exact resting.entered.chained.nodup
      case started =>
        intro u member
        simpa [other u member] using resting.entered.chained.started u member
      case suspended =>
        intro u notMember
        by_cases here : u = t
        · subst here
          exact .inl ⟨stack, by simpa using stays⟩
        · exact (resting.entered.chained.suspended u notMember).congr (by simp [here]) rfl
      case isMain =>
        intro u
        rw [field Tasklet.isMain isMain u]
        exact resting.entered.chained.isMain u
      case bounded =>
        intro u live
        by_cases here : u = t
        · exact here ▸ present
        · exact resting.entered.chained.bounded u (by simpa [here] using live)
    case queued =>
      exact resting.entered.queued.of_fields (field Tasklet.next queue.1)
        (field Tasklet.previous queue.2.1) scheduled rfl rfl rfl rfl rfl fun _ => rfl
    case shaped =>
      refine ⟨resting.entered.shaped.proper, fun u blocked => ?_, fun u started => ?_⟩
      · have elsewhere : u ≠ t := by
          rintro rfl
          simp [unblocked] at blocked
        simpa [elsewhere] using resting.entered.shaped.blocked u (by simpa [elsewhere] using blocked)
      · have elsewhere : u ≠ t := by
          rintro rfl
          exact stays (by simpa using started)
        simpa [elsewhere] using
          resting.entered.shaped.passed u (by simpa [elsewhere] using started)
    case operations => exact resting.entered.operations
  case rest =>
    refine ⟨resting.rest.current, ?_, ?_, fun u notMain settled blocked => ?_⟩
    · simpa [notRunning] using resting.rest.unblocked
    · obtain ⟨nodes, rep, listed⟩ := resting.rest.exclusive.lists
      refine ⟨nodes, ⟨?_, rep.first, rep.last, rep.nodup, ?_, rep.disjoint, ?_, rep.balance,
        rep.neither⟩, fun u spared c => ?_⟩
      · exact fun c d => (rep.segment c d).congr
          (fun u _ => field Tasklet.previousBlocked lists.2.1 u)
          (fun u _ => field Tasklet.nextBlocked lists.1 u)
      · exact fun c d u member =>
          (field Tasklet.blockedDirection lists.2.2 u).trans (rep.direction c d u member)
      · intro u nowhere
        rw [field Tasklet.nextBlocked lists.1, field Tasklet.previousBlocked lists.2.1,
          field Tasklet.blockedDirection lists.2.2]
        exact rep.unlisted u nowhere
      · rw [listed u spared c]
        by_cases here : u = t
        · subst here
          simp [before, unblocked]
        · simp [here]
    · have elsewhere : u ≠ t := by
        rintro rfl
        simp [unblocked] at blocked
      rw [scheduled]
      exact resting.rest.exclusive.waiting u notMain settled (by simpa [elsewhere] using blocked)

theorem idle_unblocked (resting : Resting promise k chain)
    (idle : (k.state.tasklets t).greenlet ≠ .started) : (k.state.tasklets t).blocked = false := by
  have outside : t ∉ chain := fun member => idle (resting.entered.chained.started t member)
  obtain ⟨empty, -⟩ | ⟨_, _, -, started⟩ := resting.entered.chained.suspended t outside
  · exact resting.entered.shaped.unblocked_of_idle empty
  · exact absurd started idle

/-- `SetArguments` of a tasklet that is not running or suspended. -/
theorem setArguments (resting : Resting promise k chain)
    (idle : (k.state.tasklets t).greenlet ≠ .started) (present : t < k.state.taskletCount)
    (arguments kwArguments : Option Bool) :
    Resting promise (k.modifyTasklet t (.setArguments arguments kwArguments)) chain :=
  resting.relink rfl idle idle rfl (resting.idle_unblocked idle) ⟨rfl, rfl, rfl⟩
    ⟨rfl, rfl, rfl⟩ present

/-- `Tasklet::Initialise`. -/
theorem initialise (resting : Resting promise k chain) (idle : (k.state.tasklets t).greenlet ≠ .started)
    (present : t < k.state.taskletCount) (parent : TaskletId) :
    Resting promise (k.modifyTasklet t (.initialise parent)) chain :=
  resting.relink rfl idle (by simp) rfl (resting.idle_unblocked idle) ⟨rfl, rfl, rfl⟩
    ⟨rfl, rfl, rfl⟩ present

/-- `Tasklet::Uninitialise`. -/
theorem uninitialise (resting : Resting promise k chain) (idle : (k.state.tasklets t).greenlet ≠ .started)
    (present : t < k.state.taskletCount) : Resting promise (k.modifyTasklet t .uninitialise) chain :=
  resting.relink rfl idle (by simp) rfl (resting.idle_unblocked idle) ⟨rfl, rfl, rfl⟩
    ⟨rfl, rfl, rfl⟩ present

/-- `Tasklet::Bind`. -/
theorem bind (resting : Resting promise k chain) (present : t < k.state.taskletCount) {callable : Bool}
    {arguments kwArguments : Option Bool}
    (done : k.bind .never t callable arguments kwArguments = some k') : Ordered promise k' := by
  have called : Resting promise (if callable then k.modifyTasklet t (.setCallable true) else k) chain := by
    split
    · exact resting.modifyTasklet t (.setCallable true) (fun _ => rfl) (fun _ => rfl) fun _ => id
    · exact resting
  have present' : t < (if callable then k.modifyTasklet t (.setCallable true)
      else k).state.taskletCount := by
    split
    · exact present
    · exact present
  simp only [Config.bind, Option.bind_eq_bind] at done
  generalize (if callable then k.modifyTasklet t (.setCallable true) else k) = k₀ at *
  split at done
  · obtain ⟨_, dropped, made⟩ := Option.bind_eq_some_iff.mp done
    obtain ⟨idle, rfl⟩ := Config.dropGreenlet_never.mp dropped
    cases made
    have idle : (k₀.state.tasklets t).greenlet ≠ .started := by
      simpa [Config.HasLiveGreenlet] using idle
    exact (((called.setArguments idle present' _ _).initialise (by simpa using idle) present'
      _).modifyTasklet t (.setAlive true) (fun _ => rfl) (fun _ => rfl) fun _ => id).ret true
  · next unsupplied =>
      cases done
      obtain ⟨rfl, rfl⟩ : arguments = none ∧ kwArguments = none := by simpa using unsupplied
      have same : k₀.modifyTasklet t (.setArguments (k₀.state.tasklets t).arguments
          (k₀.state.tasklets t).kwArguments) = k₀ := by
        rw [Config.modifyTasklet, State.modifyTasklet_eq_self rfl]
      simp only [Option.none_or, same]
      exact called.ret true

/-- `Tasklet::UnBind`. -/
theorem unBind (resting : Resting promise k chain) (present : t < k.state.taskletCount)
    (done : k.unBind .never t = some k') : Ordered promise k' := by
  simp only [Config.unBind, Option.bind_eq_bind] at done
  split at done
  · cases done
    exact resting.fail _
  split at done
  · cases done
    exact resting.fail _
  obtain ⟨_, dropped, made⟩ := Option.bind_eq_some_iff.mp done
  obtain ⟨idle, rfl⟩ := Config.dropGreenlet_never.mp dropped
  cases made
  have idle : (k.state.tasklets t).greenlet ≠ .started := by
    simpa [Config.HasLiveGreenlet] using idle
  have uncalled := resting.modifyTasklet t (.setCallable false) (fun _ => rfl) (fun _ => rfl)
    fun _ => id
  exact ((uncalled.setArguments (by simpa using idle) present none _).uninitialise
    (by simpa using idle) present).ret true

/-- `Tasklet::Setup`. -/
theorem setup (resting : Resting promise k chain) (present : t < k.state.taskletCount)
    {arguments kwArguments : Option Bool} (done : k.setup .never t arguments kwArguments = some k') :
    Ordered promise k' := by
  simp only [Config.setup, Option.bind_eq_bind] at done
  split at done
  · cases done
    exact resting.fail _
  obtain ⟨_, dropped, made⟩ := Option.bind_eq_some_iff.mp done
  obtain ⟨idle, rfl⟩ := Config.dropGreenlet_never.mp dropped
  have idle : (k.state.tasklets t).greenlet ≠ .started := by
    simpa [Config.HasLiveGreenlet] using idle
  have supplied := resting.setArguments idle present arguments kwArguments
  have initialised := supplied.initialise (by simpa using idle) present k.running
  have alive := initialised.modifyTasklet t (.setAlive true) (fun _ => rfl) (fun _ => rfl)
    fun _ => id
  split at made
  · cases made
    exact ((alive.uninitialise (by simp) present).setArguments (by simp) present none none).fail _
  · cases made
    exact alive.insert present

/-- There is room for one more tasklet. -/
theorem grow (resting : Resting promise k chain) :
    Resting promise (k.withState { k.state with taskletCount := k.state.taskletCount + 1 }) chain where
  entered := {
    chained := {
      head := resting.entered.chained.head
      active := resting.entered.chained.active.congr (fun _ _ => rfl) fun _ _ => rfl
      nodup := resting.entered.chained.nodup
      started := resting.entered.chained.started
      suspended := fun t outside => (resting.entered.chained.suspended t outside).congr rfl rfl
      isMain := resting.entered.chained.isMain
      bounded := fun t live => Nat.lt_succ_of_lt (resting.entered.chained.bounded t live) }
    queued := {
      rep := by
        obtain ⟨queue, rep⟩ := resting.entered.queued.rep
        exact ⟨queue, rep.congr (fun _ => rfl) (fun _ => rfl) (fun _ => rfl) rfl rfl⟩
      detached := resting.entered.queued.detached
      active := resting.entered.queued.active
      bounded := fun t scheduled =>
        Nat.lt_succ_of_lt (resting.entered.queued.bounded t scheduled)
      standard := resting.entered.queued.standard
      flat := resting.entered.queued.flat
      lined := fun flat queue rep => resting.entered.queued.lined flat queue
        (rep.congr (fun _ => rfl) (fun _ => rfl) (fun _ => rfl) rfl rfl) }
    shaped := ⟨resting.entered.shaped.proper, resting.entered.shaped.blocked,
      resting.entered.shaped.passed⟩
    operations := resting.entered.operations }
  rest := by
    obtain ⟨lists, rep, listed⟩ := resting.rest.exclusive.lists
    refine ⟨resting.rest.current, resting.rest.unblocked, ⟨lists, ?_, listed⟩,
      resting.rest.exclusive.waiting⟩
    exact ⟨rep.segment, rep.first, rep.last, rep.nodup, rep.direction, rep.disjoint, rep.unlisted,
      rep.balance, rep.neither⟩

/-- `TaskletInit`. -/
theorem create (resting : Resting promise k chain) (callable : Bool) : Ordered promise (k.create callable) := by
  have absent : (k.state.tasklets k.state.taskletCount).greenlet = .null := by
    by_contra live
    exact Nat.lt_irrefl _ (resting.entered.chained.bounded _ live)
  have idle : (k.state.tasklets k.state.taskletCount).greenlet ≠ .started := by simp [absent]
  have unscheduled : (k.state.tasklets k.state.taskletCount).scheduled = false := by
    by_contra scheduled
    exact Nat.lt_irrefl _ (resting.entered.queued.bounded _ (by simpa using scheduled))
  have notMain : k.state.taskletCount ≠ mainTasklet := by
    intro main
    rw [main, resting.entered.chained.started _ resting.entered.chained.active.main_mem] at absent
    cases absent
  have notIsMain : (k.state.tasklets k.state.taskletCount).isMain = false := by
    by_contra isMain
    exact notMain ((resting.entered.chained.isMain _).mp (by simpa using isMain))
  obtain ⟨next, previous⟩ := resting.entered.queued.detached _ unscheduled
  obtain ⟨lists, rep, -⟩ := resting.rest.exclusive.lists
  obtain ⟨nextBlocked, previousBlocked, direction⟩ :=
    rep.unlisted k.state.taskletCount fun c d member =>
      resting.rest.exclusive.unlisted (resting.idle_unblocked idle) c d
        ((rep.onBlockedList_iff c d _).mpr member)
  refine (resting.grow.relink rfl idle (by simp) notIsMain.symm rfl ?_ ?_
    (Nat.lt_succ_self _)).ret true
  · exact ⟨next.symm, previous.symm, unscheduled.symm⟩
  · exact ⟨nextBlocked.symm, previousBlocked.symm, direction.symm⟩

/-- The body of the running tasklet ends. -/
theorem endBody (resting : Resting promise k chain) (idle : k.stack k.running = [])
    {error : Option (PyError ν)} (done : k.endBody error = some k') : Ordered promise k' := by
  rw [Config.endBody] at done
  split at done
  · cases done
  next notMain =>
  obtain ⟨p, rest, rfl⟩ := resting.entered.chained.parent notMain
  obtain ⟨taskletParent, greenletParent, ⟨base, endTasklet, unblocked, below, stack⟩, -⟩ :=
    resting.entered.chained.active
  obtain ⟨outside, nodup⟩ := List.nodup_cons.mp resting.entered.chained.nodup
  have other : p ≠ k.running := fun same => outside (same ▸ .head _)
  simp only [greenletParent, Option.some.injEq] at done
  have started : ((k.modifyTasklet k.running (.setGreenlet .dead)).state.tasklets p).greenlet =
      .started := by
    simpa [other] using resting.entered.chained.started p (by simp)
  rw [Config.enterGreenlet, started] at done
  have lists : SameLists k.state (k.state.modifyTasklet k.running (.setGreenlet .dead)) :=
    SameLists.modifyTasklet _ _ _ fun _ => rfl
  subst done
  refine .inr (.inr ⟨p :: rest, resting.entered.chained.endBody idle rfl rfl rfl, ?_, ?_, ?_⟩)
  · exact (resting.entered.queued.congr lists).leave
  · refine ⟨resting.entered.shaped.proper, fun u blocked => ?_, fun u live => ?_⟩
    · obtain ⟨c, frame, channel, waits, shape⟩ := resting.entered.shaped.blocked u
        ((lists.field u Standing.blocked).symm.trans blocked)
      exact ⟨c, frame, (lists.field u Standing.channelBlockedOn).trans channel, waits, shape⟩
    · have elsewhere : u ≠ k.running := by
        rintro rfl
        simp at live
      simpa [elsewhere] using resting.entered.shaped.passed u (by simpa [elsewhere] using live)
  · rw [Local]
    simp only [Config.modifyTasklet_stack, stack]
    refine ⟨outside, ?_, ?_, .inr resting.rest.current, (resting.rest.exclusive.congr lists).weaken _ _⟩
    · simpa using taskletParent
    · exact (lists.field _ Standing.scheduled).trans (resting.entered.queued.active _ (.head _))

end Resting

end CarbonLab.Scheduler
