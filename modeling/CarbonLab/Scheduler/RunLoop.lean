import CarbonLab.Scheduler.ListChanges
import CarbonLab.Scheduler.Switching

/-!
# The run loop and the yield keep configurations orderly

`Run` switches to the tasklets behind its base one after the other, `Yield` gives
control back to the run loop of the parent.
-/

namespace CarbonLab.Scheduler

variable {ν : Type} {promise : Promise}

namespace State

variable {s s' : State ν} {t p : TaskletId}

/-- What `SetParent` asks for. -/
theorem setParent_ok (done : s.setParent t (some p) = .ok s') :
    (s.tasklets t).isMain = false ∧ (s.tasklets t).greenlet ≠ .null ∧
      s.hasAncestor s.taskletCount p t = false ∧ s' = s.modifyTasklet t (.setParents p p) := by
  simp only [setParent] at done
  split at done
  · cases done
  split at done
  · cases done
  split at done
  · cases done
  next isMain present ancestor =>
    cases done
    exact ⟨by simpa using isMain, present, by simpa using ancestor, rfl⟩

/-- Dropping the parent touches nothing but the parents of `t`. -/
theorem clearParent_eq (s : State ν) (t : TaskletId) :
    ∃ parent, s.clearParent t = s.modifyTasklet t (.setParents parent none) := by
  simp only [clearParent, setParent]
  split
  · next done =>
      split at done
      · cases done
        exact ⟨_, rfl⟩
      · cases done
        exact ⟨_, rfl⟩
  · next done => split at done <;> cases done

end State

/-- The running tasklet is in its run loop, main also when it is blocked. -/
structure Looping (promise : Promise) (k : Config ν) (chain : List TaskletId) : Prop
    extends Entered promise k chain where
  current : k.state.currentTasklet = k.running
  ready : (k.state.tasklets k.running).blocked = false ∨
    ∃ below, k.stack k.running = .yieldBlockedMain :: below

namespace Looping

variable {k k' : Config ν} {chain : List TaskletId}

theorem of_rest (entered : Entered promise k chain) (rest : AtRest k) : Looping promise k chain :=
  ⟨entered, rest.current, .inl rest.unblocked⟩

/-- The run loop is left. -/
theorem returned (looping : Looping promise k chain) (exclusive : Exclusive k.state none none) {ok : Bool}
    (same : SameBody k k') (control : k'.control = .returning ok) : Ordered promise k' := by
  rcases looping.ready with unblocked | ⟨below, top⟩
  · exact looping.toEntered.returned ⟨looping.current, unblocked, exclusive⟩ same control
  · have agree : Agree k.state k'.state := same.state ▸ Agree.refl _
    have entered := looping.toEntered.agree agree same.running same.stack
    refine .inr (.inr ⟨chain, entered.chained, entered.queued, entered.shaped, ?_⟩)
    rw [Local, control, same.running, same.stack, top]
    refine ⟨?_, ?_⟩
    · rw [same.state, same.running, looping.current]
    · rw [same.state]
      exact exclusive.weaken _ _

/-- The run loop is about to switch to `t`. -/
theorem prepared (looping : Looping promise k chain) {t : TaskletId} {s : State ν}
    (scheduled : (k.state.tasklets t).scheduled = true)
    (done : k.state.setParent t (some k.state.currentTasklet) = .ok s) (base : TaskletId)
    (endTasklet : Option TaskletId) (unblocked : Bool) (home : promise.flat → base = k.running)
    (next : promise.flat → (k.state.tasklets k.running).next = some t) :
    Prepared promise ((k.withState s.testRunLimits).push (.run base endTasklet unblocked t)) chain t
      (k.stack k.running) ∧ s.testRunLimits =
        k.state.modifyTasklet t (.setParents k.running k.running) := by
  obtain ⟨notMain, present, ancestor, rfl⟩ := State.setParent_ok done
  rw [looping.current] at ancestor ⊢
  have outside : t ∉ chain := by
    rw [← looping.chained.hasAncestor_iff, ancestor]
    exact Bool.false_ne_true
  rw [State.testRunLimits_standard (by simpa using looping.queued.standard.1)]
  refine ⟨?_, rfl⟩
  have lists : SameLists k.state
      (k.state.modifyTasklet t (.setParents k.running k.running)) :=
    SameLists.modifyTasklet _ _ _ fun _ => rfl
  have own : ∀ u, ((k.state.modifyTasklet t (.setParents k.running k.running)).tasklets u).greenlet =
      (k.state.tasklets u).greenlet := by
    intro u
    by_cases here : u = t <;> simp [here]
  constructor
  case chained =>
    refine looping.chained.congr rfl rfl (fun u member => ?_) own (fun u => ?_) fun u other => ?_
    · have other : u ≠ t := fun same => outside (same ▸ member)
      simp [other]
    · by_cases here : u = t <;> simp [here]
    · simp [other]
  case queued => exact looping.queued.congr lists
  case shaped =>
    refine ⟨fun u => ?_, fun u blocked => ?_, fun u started => ?_⟩
    · by_cases here : u = k.running
      · subst here
        simp only [Config.push_stack, Config.withState_running, Config.withState_stack,
          Function.update_self]
        exact .running _ _ _ _ home looping.operations
      · simpa [here] using looping.shaped.proper u
    · have before : (k.state.tasklets u).blocked = true :=
        (lists.field u Standing.blocked).symm.trans blocked
      obtain ⟨c, frame, channel, waits, shape⟩ := looping.shaped.blocked u before
      refine ⟨c, frame, (lists.field u Standing.channelBlockedOn).trans channel, waits, ?_⟩
      by_cases here : u = k.running
      · subst here
        simp only [Config.push_stack, Config.withState_running, Config.withState_stack,
          Function.update_self]
        rcases looping.ready with unblocked | ⟨below, top⟩
        · exact absurd (unblocked.symm.trans before) Bool.false_ne_true
        · rw [top] at shape ⊢
          cases shape with
          | called => rcases waits with absurd | absurd <;> cases absurd
          | waiting main => exact .running main _ _ _ _
      · simpa [here] using shape
    · have passed := looping.shaped.passed u ((own u).symm.trans started)
      by_cases here : u = t
      · subst here
        simpa [Tasklet.Passed] using passed
      · simpa [here] using passed
  case stack => exact ⟨base, endTasklet, unblocked, by simp, home⟩
  case operations => exact looping.operations
  case current => exact looping.current
  case outside => exact outside
  case taskletParent => simp
  case greenletParent => simp
  case present =>
    have same := own t
    simpa using present
  case scheduled => exact (lists.field t Standing.scheduled).trans scheduled
  case next => exact fun flat => (lists.field _ Standing.next).trans (next flat)

/-- The loop of `Run`. -/
theorem runLoop (looping : Looping promise k chain) (exclusive : Exclusive k.state none none)
    (base : TaskletId) (endTasklet : Option TaskletId) (unblocked complete : Bool)
    (home : promise.flat → base = k.running) :
    Ordered promise (k.runLoop base endTasklet unblocked complete) := by
  simp only [Config.runLoop]
  split
  · exact looping.returned exclusive ⟨rfl, rfl, rfl⟩ rfl
  · exact looping.returned exclusive ⟨rfl, rfl, rfl⟩ rfl
  next t next =>
  split
  · exact looping.returned exclusive ⟨rfl, rfl, rfl⟩ rfl
  split
  · exact looping.returned exclusive ⟨rfl, rfl, rfl⟩ rfl
  split
  · exact looping.returned exclusive ⟨rfl, rfl, rfl⟩ rfl
  next s done =>
    obtain ⟨prepared, state⟩ := looping.prepared (looping.queued.follows next).1 done base
      endTasklet unblocked home fun flat => home flat ▸ next
    refine prepared.switchTo ?_
    simp only [Config.push_state, Config.withState_state, state]
    exact exclusive.congr (SameLists.modifyTasklet _ _ _ fun _ => rfl)

/-- `ScheduleManager::Run`, which has no base for main. -/
theorem run (looping : Looping promise k chain) (exclusive : Exclusive k.state none none)
    (start : Option TaskletId) (nested : ∀ t, start = some t → ¬ promise.flat)
    (first : ∀ t, start = some t → (k.state.tasklets t).previous = none → ¬ promise.calm) :
    Ordered promise (k.run start) := by
  simp only [Config.run]
  split
  · next t =>
      split
      · exact looping.runLoop exclusive _ _ _ _ fun flat => absurd flat (nested t rfl)
      · next previous => exact .inl ⟨first t rfl previous, rfl⟩
  · exact looping.runLoop exclusive _ _ _ _ fun _ => looping.current

/-- The run loop that a kill or throw starts for a tasklet it unblocked. -/
theorem run_doomed (looping : Looping promise k chain) {x : TaskletId} {frame : Frame}
    {below : List Frame} (doomed : Doomed k x) (scheduled : (k.state.tasklets x).scheduled = true)
    (other : k.running ≠ x) (main : x ≠ mainTasklet) (top : k.stack k.running = frame :: below)
    (restores : Restores x frame) (nested : ¬ promise.flat) : Ordered promise (k.run (some x)) := by
  obtain ⟨base, previous, next⟩ := looping.queued.behind scheduled main
  have failed : ∀ error, Ordered promise (k.fail error) := by
    intro error
    obtain ⟨channel, rfl | rfl⟩ := restores
    · exact .inr (.inl ⟨rfl, x, channel, below, .inl (.inl top)⟩)
    · exact .inr (.inl ⟨rfl, x, channel, below, .inl (.inr top)⟩)
  simp only [Config.run, previous, Config.runLoop, next, looping.queued.standard.2,
    Bool.false_and, Bool.false_eq_true, if_false, looping.current, if_neg other]
  split
  · exact failed _
  next s done =>
    rw [← looping.current] at done
    obtain ⟨prepared, state⟩ := looping.prepared scheduled done base k.state.previousTasklet
      (k.running == mainTasklet && (k.state.tasklets k.running).blocked)
      (fun flat => absurd flat nested) fun flat => absurd flat nested
    rw [top] at prepared
    refine prepared.switchTo_doomed ?_ restores
    have lists : SameLists k.state (k.state.modifyTasklet x (.setParents k.running k.running)) :=
      SameLists.modifyTasklet _ _ _ fun _ => rfl
    obtain ⟨c, waiting, parent, waits, stack, only⟩ := doomed.inside
    constructor
    case exclusive =>
      simp only [Config.push_state, Config.withState_state, state]
      exact doomed.exclusive.congr lists
    case exception => simpa [state] using doomed.exception
    case started => simpa [state] using doomed.started
    case inside =>
      refine ⟨c, waiting, parent, waits, ?_, fun c' d onList => ?_⟩
      · simpa [other.symm] using stack
      · simp only [Config.push_state, Config.withState_state, state] at onList
        exact only c' d ((lists.onBlockedList c' d x).mp onList)

end Looping

/-! ## Returning -/

theorem ProperStack.tail {t : TaskletId} {frame : Frame} {below : List Frame}
    (proper : ProperStack promise t (frame :: below)) : ProperStack promise t below := by
  cases proper with
  | operations operations => exact .operations fun other member => operations other (.tail _ member)
  | yielding operations => exact .operations operations
  | yielded parent operations => exact .yielding operations
  | running _ _ _ _ _ operations => exact .operations operations
  | switched base endTasklet unblocked x home operations => exact .running _ _ _ _ home operations

/-- The operations below the frames of a run loop or a yield. -/
theorem ProperStack.below {t : TaskletId} {frame : Frame} {below : List Frame}
    (proper : ProperStack promise t (frame :: below)) (notSwitch : ∀ x, frame ≠ .switchTo x) :
    Operations t below := by
  cases proper with
  | operations operations => exact fun other member => operations other (.tail _ member)
  | yielding operations => exact operations
  | yielded parent => exact absurd rfl (notSwitch _)
  | running _ _ _ _ _ operations => exact operations
  | switched _ _ _ x => exact absurd rfl (notSwitch _)

/-- Where tasklets do not nest, a run loop starts behind its own tasklet. -/
theorem ProperStack.home {t base x : TaskletId} {endTasklet : Option TaskletId} {unblocked : Bool}
    {below : List Frame} (proper : ProperStack promise t (.run base endTasklet unblocked x :: below))
    (flat : promise.flat) : base = t := by
  cases proper with
  | operations operations => cases (operations _ (.head _)).1
  | running _ _ _ _ home => exact home flat

/-- A call that a blocked tasklet waits for returns, other than the one that
blocked it. -/
theorem BlockedStack.tail {t : TaskletId} {c : ChannelId} {frame top : Frame} {below : List Frame}
    (shape : BlockedStack t frame (top :: below)) (waits : WaitsOn c t frame)
    (inner : ¬ ∃ c', WaitsOn c' t top) : BlockedStack t frame below := by
  cases shape with
  | called => exact absurd ⟨c, waits⟩ inner
  | yielding => exact .called
  | yielded notMain => exact .yielding notMain
  | waiting => exact .called
  | running main => exact .waiting main
  | switched main => exact .running main _ _ _ _

theorem Shaped.pop {k : Config ν} (shaped : Shaped promise k) {top : Frame} {below : List Frame}
    (stack : k.stack k.running = top :: below)
    (inner : (k.state.tasklets k.running).blocked = true → ¬ ∃ c, WaitsOn c k.running top) :
    Shaped promise k.pop where
  proper := fun t => by
    by_cases here : t = k.running
    · subst here
      have proper := shaped.proper k.running
      rw [stack] at proper
      simpa [stack] using proper.tail
    · simpa [here] using shaped.proper t
  blocked := fun t blocked => by
    obtain ⟨c, frame, channel, waits, shape⟩ := shaped.blocked t blocked
    refine ⟨c, frame, channel, waits, ?_⟩
    by_cases here : t = k.running
    · subst here
      rw [stack] at shape
      simpa [stack] using shape.tail waits (inner blocked)
    · simpa [here] using shape
  passed := shaped.passed

theorem Chained.pop {k : Config ν} {chain : List TaskletId} (chained : Chained k chain) :
    Chained k.pop chain :=
  chained.agree (Agree.refl _) rfl fun t other => by simp [other]

/-- A call returns into a frame of the running tasklet. -/
theorem Orderly.pop {k : Config ν} {chain : List TaskletId} (orderly : Orderly promise k chain)
    {top : Frame} {below : List Frame} (stack : k.stack k.running = top :: below)
    (notSwitch : ∀ x, top ≠ .switchTo x)
    (inner : (k.state.tasklets k.running).blocked = true → ¬ ∃ c, WaitsOn c k.running top) :
    Entered promise k.pop chain where
  chained := orderly.chained.pop
  queued := orderly.queued
  shaped := orderly.shaped.pop stack inner
  operations := by
    have proper := orderly.shaped.proper k.running
    rw [stack] at proper
    simpa [stack] using proper.below notSwitch

/-- What `SwitchTo` does after the switch came back. -/
theorem Config.switchedBack_spec (k : Config ν) (t : TaskletId) (ok : Bool) :
    ∃ ok', (k.switchedBack t ok).control = .returning ok' ∧ Quiet k (k.switchedBack t ok) ∧
      ((k.state.tasklets k.state.currentTasklet).exceptionState ≠ none → ok' = false) ∧
      (ok' = false → ok = false ∧ ((k.switchedBack t ok).state.tasklets t).remove = true ∨
        (k.state.tasklets k.state.currentTasklet).exceptionState ≠ none ∧
        (k.switchedBack t ok).raised =
          (k.state.tasklets k.state.currentTasklet).exceptionState) := by
  have exception : ((k.modifyTasklet t (.setArguments none none)).state.tasklets
      k.state.currentTasklet).exceptionState =
      (k.state.tasklets k.state.currentTasklet).exceptionState := by
    by_cases here : k.state.currentTasklet = t <;> simp [here]
  have arguments := (Quiet.refl k).modifyTasklet t (.setArguments none none) (fun _ => rfl)
    (fun _ => rfl) fun _ passed => ⟨passed.1, by simp, by simp⟩
  simp only [Config.switchedBack]
  split
  · next error pending =>
    have thrown : (k.state.tasklets k.state.currentTasklet).exceptionState = some error :=
      exception.symm.trans pending
    rw [thrown]
    refine ⟨false, rfl, Quiet.raise ?_ _, fun _ => rfl, fun _ => .inr ⟨by simp, rfl⟩⟩
    exact arguments.modifyTasklet _ _ (fun _ => rfl) (fun _ => rfl) fun _ => id
  · next pending =>
      refine ⟨ok, rfl, Quiet.ret ?_ _, fun exists_ => absurd (exception.symm.trans pending) exists_,
        fun failed => .inl ⟨failed, by simp [failed]⟩⟩
      refine Quiet.ite ?tagged (Quiet.modifyTasklet ?tagged _ _ (fun _ => rfl) (fun _ => rfl)
        fun _ => id)
      refine Quiet.modifyTasklet ?_ _ _ (fun _ => rfl) (fun _ => rfl) fun _ => id
      refine Quiet.ite (Quiet.modifyTasklet ?alive _ _ (fun _ => rfl) (fun _ => rfl)
        fun _ => id) ?alive
      exact Quiet.ite (arguments.modifyTasklet _ _ (fun _ => rfl) (fun _ => rfl) fun _ => id)
        arguments

theorem Returned.quiet {k k' : Config ν} {chain : List TaskletId} {x : TaskletId}
    (returned : Returned k chain x) (quiet : Quiet k k') : Returned k' chain x where
  outside := returned.outside
  parent := by
    rw [quiet.running]
    exact (congrArg Links.taskletParent (quiet.agree.links x)).trans returned.parent
  scheduled := (quiet.agree.field x Standing.scheduled).trans returned.scheduled
  current := by
    rw [quiet.current, quiet.running]
    exact returned.current
  exclusive := returned.exclusive.congr quiet.agree.toSameLists

theorem Failing.quiet {k k' : Config ν} {above : List Frame} (failing : Failing k above)
    (quiet : Quiet k k') : Failing k' above where
  current := by rw [quiet.current, quiet.running, failing.current]
  exclusive := quiet.running ▸ failing.exclusive.congr quiet.agree.toSameLists
  inside := by
    obtain ⟨c, frame, waits, stack, only⟩ := failing.inside
    rw [quiet.running, quiet.stack]
    refine ⟨c, frame, waits, stack, fun c' d t onList => only c' d t ?_⟩
    exact (quiet.agree.toSameLists.onBlockedList c' d t).mp onList

/-- Below the top of its stack the running tasklet fails as well. -/
theorem Failing.pop {k : Config ν} {top : Frame} {above : List Frame}
    (failing : Failing k (top :: above)) : Failing k.pop above where
  current := failing.current
  exclusive := failing.exclusive
  inside := by
    obtain ⟨c, frame, waits, stack, only⟩ := failing.inside
    exact ⟨c, frame, waits, by simp [stack], only⟩

/-- `SwitchTo` comes back. -/
theorem Orderly.switchedBack {k : Config ν} {chain : List TaskletId} {ok : Bool} {x : TaskletId}
    {below : List Frame} (orderly : Orderly promise k chain) (control : k.control = .returning ok)
    (top : k.stack k.running = .switchTo x :: below)
    (calm : promise.calm → ∀ t error, (k.state.tasklets t).exceptionState = some error →
      error = .taskletExit) : Ordered promise (k.pop.switchedBack x ok) := by
  obtain ⟨ok', returns, quiet, pending, failed⟩ := k.pop.switchedBack_spec x ok
  have shaped : Shaped promise k.pop := orderly.shaped.pop top fun _ ⟨_, waits⟩ => by
    rcases waits with absurd | absurd <;> cases absurd
  have known := orderly.local_
  rw [Local, control, top] at known
  have below_eq : k.pop.stack k.pop.running = below := by simp [top]
  refine .inr (.inr ⟨chain, orderly.chained.pop.agree quiet.agree quiet.running
    (fun t _ => by rw [quiet.stack]), orderly.queued.congr quiet.agree.toSameLists,
    shaped.agree quiet.agree quiet.stack, ?_⟩)
  rw [Local, returns, quiet.running, quiet.stack, below_eq]
  have proper := orderly.shaped.proper k.running
  rw [top] at proper
  cases proper with
  | operations operations => cases (operations _ (.head _)).1
  | yielded parent operations =>
      rcases known with yielding | ⟨exception, failing⟩
      · exact .inl (Yielding.agree (k := k.pop) ⟨yielding.current, yielding.exclusive⟩ quiet.agree
          quiet.running quiet.current)
      · have raised : ok' = false := pending (by rw [failing.pop.current]; exact exception)
        refine .inr ⟨raised, ?_⟩
        rw [quiet.running]
        exact failing.pop.quiet quiet
  | switched =>
      refine ⟨Returned.quiet (k := k.pop)
        ⟨known.outside, known.parent, known.scheduled, known.current, known.exclusive⟩ quiet,
        fun isCalm isFalse => ?_⟩
      rcases failed isFalse with ⟨-, removed⟩ | ⟨thrown, raised⟩
      · exact .inr (.inl removed)
      · obtain ⟨error, exception⟩ := Option.ne_none_iff_exists'.mp thrown
        rw [exception, calm isCalm _ error exception] at raised
        exact .inl (by rw [Config.exitRaised, raised])

/-- The run loop that gets control back from `x` neither puts `x` into the queue
while it is blocked nor leaves it there, and `x` does not stay current. -/
def Config.CleanReturn (k : Config ν) (x : TaskletId) (ok : Bool) : Prop :=
  if ok || k.exitRaised then
    (k.state.tasklets x).reschedule ≠ .none → (k.state.tasklets x).blocked = false
  else
    (k.state.tasklets x).remove = true ∨
      k.state.currentTasklet ≠ x ∧ (k.state.tasklets x).blocked = false

instance (k : Config ν) (x : TaskletId) (ok : Bool) : Decidable (k.CleanReturn x ok) := by
  unfold Config.CleanReturn
  infer_instance

/-- The parents of a tasklet that is not active do not matter. -/
theorem Entered.setParents {k k' : Config ν} {chain : List TaskletId} (entered : Entered promise k chain)
    {x : TaskletId} (outside : x ∉ chain) {greenletParent taskletParent : Option TaskletId}
    (state : k'.state = k.state.modifyTasklet x (.setParents greenletParent taskletParent))
    (running : k'.running = k.running) (stack : k'.stack = k.stack) : Entered promise k' chain := by
  have lists : SameLists k.state k'.state :=
    state ▸ SameLists.modifyTasklet _ _ _ fun _ => rfl
  have own : ∀ u, (k'.state.tasklets u).greenlet = (k.state.tasklets u).greenlet ∧
      (k'.state.tasklets u).isMain = (k.state.tasklets u).isMain ∧
      ((k'.state.tasklets u).Passed ↔ (k.state.tasklets u).Passed) := by
    intro u
    by_cases here : u = x <;> simp [state, here, Tasklet.Passed]
  constructor
  case chained =>
    refine entered.chained.congr running lists.count (fun u member => ?_) (fun u => (own u).1)
      (fun u => (own u).2.1) fun u _ => by rw [stack]
    have other : u ≠ x := fun same => outside (same ▸ member)
    simp [state, other]
  case queued => exact entered.queued.congr lists
  case shaped =>
    refine ⟨fun u => stack ▸ entered.shaped.proper u, fun u blocked => ?_, fun u started => ?_⟩
    · obtain ⟨c, frame, channel, waits, shape⟩ := entered.shaped.blocked u
        ((lists.field u Standing.blocked).symm.trans blocked)
      exact ⟨c, frame, (lists.field u Standing.channelBlockedOn).trans channel, waits,
        stack ▸ shape⟩
    · exact (own u).2.2.mpr (entered.shaped.passed u ((own u).1.symm.trans started))
  case operations =>
    rw [running, stack]
    exact entered.operations

/-- Dropping the parent of a tasklet that is not active. -/
theorem Looping.clearParent {k : Config ν} {chain : List TaskletId} (looping : Looping promise k chain)
    (exclusive : Exclusive k.state none none) {x : TaskletId} (outside : x ∉ chain) :
    Looping promise (k.withState (k.state.clearParent x)) chain ∧
      Exclusive (k.state.clearParent x) none none := by
  obtain ⟨parent, done⟩ := k.state.clearParent_eq x
  have lists : SameLists k.state (k.state.clearParent x) :=
    done ▸ SameLists.modifyTasklet _ _ _ fun _ => rfl
  refine ⟨⟨looping.toEntered.setParents outside done rfl rfl, ?_, ?_⟩, exclusive.congr lists⟩
  · simpa [done] using looping.current
  · rcases looping.ready with unblocked | waiting
    · exact .inl ((lists.field _ Standing.blocked).trans unblocked)
    · exact .inr waiting

namespace Returned

variable {k : Config ν} {chain : List TaskletId} {x : TaskletId}

theorem notMain (returned : Returned k chain x) (chained : Chained k chain) : x ≠ mainTasklet :=
  fun same => returned.outside (same ▸ chained.active.main_mem)

/-- The run loop has taken `x` out of the queue. -/
structure Left (promise : Promise) (k : Config ν) (chain : List TaskletId) (x : TaskletId)
    (s : State ν) : Prop where
  queued : Queued promise s chain
  same : SameButQueue (k.state.setCurrentTasklet k.running) s
  scheduled : ∀ u, (s.tasklets u).scheduled = ((k.state.tasklets u).scheduled && u != x)
  current : s.currentTasklet = k.running
  present : x < s.taskletCount
  unscheduled : (s.tasklets x).scheduled = false
  currentScheduled : (s.tasklets s.currentTasklet).scheduled = true
  rest : k.state.runPostSwitch x = s.rescheduleTasklet x

theorem left (returned : Returned k chain x) (entered : Entered promise k chain) :
    Left promise k chain x (k.state.leaveQueue x k.running) := by
  obtain ⟨queued, same, scheduled⟩ := entered.queued.leaveQueue returned.scheduled
    (returned.notMain entered.chained) returned.outside k.running
  have current : (k.state.leaveQueue x k.running).currentTasklet = k.running :=
    same.view State.currentTasklet fun _ => rfl
  have notRunning : k.running ≠ x := fun here =>
    returned.outside (here ▸ entered.chained.running_mem)
  refine ⟨queued, same, scheduled, current, ?_, ?_, ?_, ?_⟩
  · rw [same.view State.taskletCount fun _ => rfl]
    exact entered.queued.bounded x returned.scheduled
  · rw [scheduled]
    simp
  · rw [current, scheduled, entered.running_scheduled]
    simpa using notRunning
  · simp [State.runPostSwitch, returned.parent]

/-- The run loop takes `x` out of the queue and puts it back where it asked to be. -/
theorem runPostSwitch (returned : Returned k chain x) (entered : Entered promise k chain)
    (ready : (k.state.tasklets k.running).blocked = false ∨
      ∃ below, k.stack k.running = .yieldBlockedMain :: below)
    (requested : (k.state.tasklets x).reschedule ≠ .none →
      (k.state.tasklets x).blocked = false) :
    k.state.runPostSwitch x = none ∨ ∃ s', k.state.runPostSwitch x = some s' ∧
      Looping promise (k.withState s') chain ∧ Exclusive s' none none := by
  have left := returned.left entered
  have exclusive : Exclusive (k.state.leaveQueue x k.running) none none := by
    refine (returned.exclusive.congr (Agree.setCurrentTasklet _ k.running).toSameLists).requeue
      left.same fun u other _ blocked => ?_
    rw [left.scheduled]
    by_cases here : u = x
    · simp [here]
    · rw [returned.exclusive.waiting u other (by simpa using here) blocked, Bool.false_and]
  have moved : Entered promise (k.withState (k.state.setCurrentTasklet k.running)) chain :=
    entered.agree (Agree.setCurrentTasklet _ _) rfl rfl
  rw [left.rest]
  have placed := left.queued.rescheduleTasklet exclusive left.present left.unscheduled
    left.currentScheduled (by
      rw [left.same.field x Tasklet.reschedule fun _ => rfl,
        left.same.field x Tasklet.blocked fun _ => rfl]
      exact requested)
  rcases placed with ⟨crash, -⟩ | ⟨s', done, queued', exclusive', eases⟩
  · exact .inl crash
  refine .inr ⟨s', done, ⟨?_, ?_, ?_⟩, exclusive'⟩
  · exact moved.eased (left.same.eases.trans eases) queued' rfl rfl
  · exact eases.current.trans left.current
  · rcases ready with unblocked | waiting
    · exact .inl ((left.same.eases.trans eases).unblocked unblocked)
    · exact .inr waiting

/-- The run loop takes `x` out of the queue after a failure. -/
theorem removeTasklet (returned : Returned k chain x) (entered : Entered promise k chain)
    (ready : (k.state.tasklets k.running).blocked = false ∨
      ∃ below, k.stack k.running = .yieldBlockedMain :: below) :
    ((k.state.setCurrentTasklet k.running).removeTasklet x).2 = true ∧
      Looping promise (k.withState ((k.state.setCurrentTasklet k.running).removeTasklet x).1) chain ∧
      Exclusive ((k.state.setCurrentTasklet k.running).removeTasklet x).1 none none := by
  have moved : Entered promise (k.withState (k.state.setCurrentTasklet k.running)) chain :=
    entered.agree (Agree.setCurrentTasklet _ _) rfl rfl
  obtain ⟨queued, same, removed, scheduled⟩ := moved.queued.removeTasklet returned.scheduled
    (returned.notMain entered.chained) returned.outside
  simp only [Config.withState_state] at queued same removed scheduled
  refine ⟨removed, ⟨moved.eased same.eases queued rfl rfl, same.eases.current, ?_⟩, ?_⟩
  · rcases ready with unblocked | waiting
    · exact .inl (same.eases.unblocked unblocked)
    · exact .inr waiting
  · refine (returned.exclusive.congr (Agree.setCurrentTasklet _ k.running).toSameLists).requeue same
      fun u other _ blocked => ?_
    rw [scheduled]
    by_cases here : u = x
    · simp [here]
    · rw [Bool.and_eq_false_iff]
      exact .inl (returned.exclusive.waiting u other (by simpa using here) blocked)

/-- The run loop goes on after a switch. -/
theorem runGoesOn (returned : Returned k chain x) (entered : Entered promise k chain)
    (ready : (k.state.tasklets k.running).blocked = false ∨
      ∃ below, k.stack k.running = .yieldBlockedMain :: below)
    (requested : (k.state.tasklets x).reschedule ≠ .none →
      (k.state.tasklets x).blocked = false)
    (stuck : k.state.runPostSwitch x = none → ¬ promise.calm)
    (base : TaskletId) (endTasklet : Option TaskletId) (unblocked : Bool)
    (home : promise.flat → base = k.running) :
    Ordered promise (k.runGoesOn base endTasklet unblocked x) := by
  rw [Config.runGoesOn]
  rcases returned.runPostSwitch entered ready requested with
    crash | ⟨s', done, looping, exclusive⟩
  · rw [crash]
    exact .inl ⟨stuck crash, rfl⟩
  · rw [done]
    dsimp only
    split
    · exact looping.runLoop exclusive _ _ _ _ home
    · obtain ⟨looping', exclusive'⟩ := looping.clearParent exclusive returned.outside
      exact looping'.runLoop exclusive' _ _ _ _ home

/-- The run loop ends after a failed switch. -/
theorem runFailed (returned : Returned k chain x) (entered : Entered promise k chain)
    (ready : (k.state.tasklets k.running).blocked = false ∨
      ∃ below, k.stack k.running = .yieldBlockedMain :: below)
    (clean : (k.state.tasklets x).remove = true ∨
      k.state.currentTasklet ≠ x ∧ (k.state.tasklets x).blocked = false) :
    Ordered promise (k.runFailed x) := by
  rw [Config.runFailed]
  split
  · obtain ⟨removed, looping, exclusive⟩ := returned.removeTasklet entered ready
    rw [returned.parent]
    simp only [removed, if_true]
    obtain ⟨looping', exclusive'⟩ := looping.clearParent exclusive returned.outside
    exact looping'.returned exclusive' ⟨rfl, rfl, rfl⟩ rfl
  · next notRemoved =>
      obtain ⟨notCurrent, notBlocked⟩ := clean.resolve_left notRemoved
      have current : k.state.currentTasklet = k.running :=
        returned.current.resolve_right notCurrent
      have exclusive : Exclusive k.state none none :=
        returned.exclusive.settle fun blocked =>
          absurd (notBlocked.symm.trans blocked) Bool.false_ne_true
      obtain ⟨looping', exclusive'⟩ := (Looping.mk entered current ready).clearParent exclusive
        returned.outside
      exact looping'.returned exclusive' ⟨rfl, rfl, rfl⟩ rfl

end Returned

@[simp] theorem Config.catchExit_reschedule (k : Config ν) (t u : TaskletId) :
    ((k.catchExit t).state.tasklets u).reschedule = (k.state.tasklets u).reschedule := by
  rw [Config.catchExit]
  split
  · by_cases here : u = t <;> simp [here]
  · rfl

theorem Config.catchExit_quiet (k : Config ν) (t : TaskletId) : Quiet k (k.catchExit t) := by
  refine Quiet.ite ?_ (Quiet.refl _)
  exact ((Quiet.refl k).modifyTasklet t .clearException (fun _ => rfl) (fun _ => rfl)
    fun _ => id).trans ⟨Agree.refl _, rfl, rfl, rfl⟩

/-- A return into a run loop. -/
theorem Orderly.returned {k : Config ν} {chain : List TaskletId} {ok : Bool} {base x : TaskletId}
    {endTasklet : Option TaskletId} {unblocked : Bool} {below : List Frame}
    (orderly : Orderly promise k chain) (control : k.control = .returning ok)
    (top : k.stack k.running = .run base endTasklet unblocked x :: below) :
    Returned k.pop chain x ∧ Entered promise k.pop chain := by
  have known := orderly.local_
  rw [Local, control, top] at known
  obtain ⟨known, -⟩ := known
  refine ⟨⟨known.outside, known.parent, known.scheduled, known.current, known.exclusive⟩,
    orderly.pop top (by simp) ?_⟩
  rintro _ ⟨_, absurd | absurd⟩ <;> cases absurd

/-- An iteration of `Run` after its `SwitchTo`. -/
theorem Orderly.runSwitched {k : Config ν} {chain : List TaskletId} {ok : Bool} {base x : TaskletId}
    {endTasklet : Option TaskletId} {unblocked : Bool} {below : List Frame}
    (orderly : Orderly promise k chain) (control : k.control = .returning ok)
    (top : k.stack k.running = .run base endTasklet unblocked x :: below)
    (clean : k.CleanReturn x ok)
    (stuck : (k.pop.catchExit x).state.runPostSwitch x = none → ¬ promise.calm) :
    Ordered promise (k.pop.runSwitched base endTasklet unblocked x ok) := by
  obtain ⟨returned, entered⟩ := orderly.returned control top
  have proper := orderly.shaped.proper k.running
  rw [top] at proper
  -- only main runs its loop while it is blocked
  have ready : (k.pop.state.tasklets k.pop.running).blocked = false ∨
      ∃ below, k.pop.stack k.pop.running = .yieldBlockedMain :: below := by
    cases blocked : (k.state.tasklets k.running).blocked with
    | false => exact .inl blocked
    | true =>
        obtain ⟨c, frame, -, waits, shape⟩ := orderly.shaped.blocked _ blocked
        rw [top] at shape
        cases shape with
        | called => rcases waits with absurd | absurd <;> cases absurd
        | running => exact .inr ⟨[frame], by simp [top]⟩
  rw [Config.CleanReturn] at clean
  rw [Config.runSwitched, show k.pop.exitRaised = k.exitRaised from rfl]
  split
  · next switched =>
      rw [if_pos switched] at clean
      have quiet : Quiet k.pop (k.pop.catchExit x) := k.pop.catchExit_quiet x
      refine (returned.quiet quiet).runGoesOn (quiet.entered entered) ?_ (fun request => ?_) stuck
        _ _ _ fun flat => (proper.home flat).trans quiet.running.symm
      · rw [quiet.running, quiet.stack]
        exact ready.imp (quiet.agree.field _ Standing.blocked).trans id
      · refine (quiet.agree.field x Standing.blocked).trans (clean ?_)
        rwa [Config.catchExit_reschedule] at request
  · next failed =>
      rw [if_neg failed] at clean
      exact returned.runFailed entered ready clean

end CarbonLab.Scheduler
