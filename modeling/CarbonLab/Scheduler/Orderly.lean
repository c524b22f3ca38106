import CarbonLab.Scheduler.BlockedLinks
import CarbonLab.Scheduler.Chain

/-!
# Orderly configurations

The invariant of the scheduler: the active chain, the run queue, the blocked lists
and the stacks of suspended calls fit together.  Between Python code and Python
code single conditions are broken for a while; what is known then depends on the
frame that control returns into.
-/

namespace CarbonLab.Scheduler

/-- What is promised about a whole run: `flat`, that tasklets are never nested, so
that run loops start behind their own tasklet; `calm`, that nothing is thrown but
`TaskletExit` and no null pointer is dereferenced. -/
structure Promise where
  flat : Prop
  calm : Prop

variable {ν : Type} {promise : Promise}

/-- What the lists of tasklets read of one. -/
structure Standing where
  blocked : Bool
  channelBlockedOn : Option ChannelId
  next : Option TaskletId
  previous : Option TaskletId
  scheduled : Bool
  nextBlocked : Option TaskletId
  previousBlocked : Option TaskletId
  blockedDirection : ChannelDirection

/-- The standing of a tasklet. -/
def Tasklet.standing (tasklet : Tasklet ν) : Standing where
  blocked := tasklet.blocked
  channelBlockedOn := tasklet.channelBlockedOn
  next := tasklet.next
  previous := tasklet.previous
  scheduled := tasklet.scheduled
  nextBlocked := tasklet.nextBlocked
  previousBlocked := tasklet.previousBlocked
  blockedDirection := tasklet.blockedDirection

/-- The tasklet passed the checks of `SwitchTo` for its arguments, and it ran unless
it is main. -/
def Tasklet.Passed (tasklet : Tasklet ν) : Prop :=
  (tasklet.isMain = false → tasklet.firstRun = false) ∧ tasklet.arguments ≠ some false ∧
    tasklet.kwArguments ≠ some false

/-- Two states with the same run queue and blocked lists. -/
structure SameLists (s s' : State ν) : Prop where
  standing : ∀ t, (s'.tasklets t).standing = (s.tasklets t).standing
  ends : ∀ c d, (s'.channels c).ends d = (s.channels c).ends d
  balance : ∀ c, (s'.channels c).balance = (s.channels c).balance
  count : s'.taskletCount = s.taskletCount
  last : s'.previousTasklet = s.previousTasklet
  number : s'.numberOfTaskletsInQueue = s.numberOfTaskletsInQueue
  runType : s'.runType = s.runType
  stopScheduler : s'.stopScheduler = s.stopScheduler
  nested : s'.useNestedTasklets = s.useNestedTasklets

/-- The second state agrees with the first on everything the invariant reads but
the current tasklet. -/
structure Agree (s s' : State ν) : Prop extends SameLists s s' where
  links : ∀ t, (s'.tasklets t).links = (s.tasklets t).links
  passed : ∀ t, (s.tasklets t).Passed → (s'.tasklets t).Passed

namespace SameLists

variable {s s' s'' : State ν}

theorem refl (s : State ν) : SameLists s s :=
  ⟨fun _ => rfl, fun _ _ => rfl, fun _ => rfl, rfl, rfl, rfl, rfl, rfl, rfl⟩

theorem trans (first : SameLists s s') (second : SameLists s' s'') : SameLists s s'' where
  standing := fun t => (second.standing t).trans (first.standing t)
  ends := fun c d => (second.ends c d).trans (first.ends c d)
  balance := fun c => (second.balance c).trans (first.balance c)
  count := second.count.trans first.count
  last := second.last.trans first.last
  number := second.number.trans first.number
  runType := second.runType.trans first.runType
  stopScheduler := second.stopScheduler.trans first.stopScheduler
  nested := second.nested.trans first.nested

/-- Changing fields the lists do not read. -/
theorem modifyTasklet (s : State ν) (t : TaskletId) (change : Tasklet ν → Tasklet ν)
    (keeps : ∀ tasklet, (change tasklet).standing = tasklet.standing) :
    SameLists s (s.modifyTasklet t change) := by
  refine ⟨fun u => ?_, fun _ _ => rfl, fun _ => rfl, rfl, rfl, rfl, rfl, rfl, rfl⟩
  by_cases same : u = t
  · subst same
    simp [keeps]
  · simp [same]

theorem field {β : Type*} (same : SameLists s s') (t : TaskletId) (view : Standing → β) :
    view (s'.tasklets t).standing = view (s.tasklets t).standing :=
  congrArg view (same.standing t)

end SameLists

namespace Agree

variable {s s' s'' : State ν}

theorem refl (s : State ν) : Agree s s :=
  ⟨SameLists.refl s, fun _ => rfl, fun _ => id⟩

theorem trans (first : Agree s s') (second : Agree s' s'') : Agree s s'' where
  toSameLists := first.toSameLists.trans second.toSameLists
  links := fun t => (second.links t).trans (first.links t)
  passed := fun t passed => second.passed t (first.passed t passed)

/-- Changing fields the invariant does not read. -/
theorem modifyTasklet (s : State ν) (t : TaskletId) (change : Tasklet ν → Tasklet ν)
    (keeps : ∀ tasklet, (change tasklet).standing = tasklet.standing)
    (links : ∀ tasklet, (change tasklet).links = tasklet.links)
    (passed : ∀ tasklet, tasklet.Passed → (change tasklet).Passed) :
    Agree s (s.modifyTasklet t change) := by
  refine ⟨SameLists.modifyTasklet s t change keeps, fun u => ?_, fun u => ?_⟩
  · by_cases same : u = t
    · subst same
      simp [links]
    · simp [same]
  · by_cases same : u = t
    · subst same
      simpa using passed _
    · simp [same]

theorem setCurrentTasklet (s : State ν) (t : TaskletId) : Agree s (s.setCurrentTasklet t) :=
  ⟨⟨fun _ => rfl, fun _ _ => rfl, fun _ => rfl, rfl, rfl, rfl, rfl, rfl, rfl⟩, fun _ => rfl,
    fun _ => id⟩

theorem modifyChannel (s : State ν) (c : ChannelId) (change : Channel → Channel)
    (ends : ∀ channel d, (change channel).ends d = channel.ends d)
    (balance : ∀ channel, (change channel).balance = channel.balance) :
    Agree s (s.modifyChannel c change) := by
  refine ⟨⟨fun _ => rfl, fun c' d => ?_, fun c' => ?_, rfl, rfl, rfl, rfl, rfl, rfl⟩, fun _ => rfl,
    fun _ => id⟩
  all_goals
    by_cases same : c' = c
    · subst same
      simp [ends, balance]
    · simp [same]

theorem updateCloseState (s : State ν) (c : ChannelId) : Agree s (s.updateCloseState c) := by
  refine modifyChannel s c _ (fun channel d => ?_) (fun channel => ?_)
  · split
    · cases d <;> rfl
    · rfl
  · split <;> rfl

end Agree

/-! ## Stacks -/

/-- Frames of the calls Python makes, as opposed to those of the switches inside
them. -/
def Frame.isOperation : Frame → Bool
  | .switchTo _ | .run _ _ _ _ | .yieldSwitch _ => false
  | _ => true

/-- The tasklet a frame names as its own. -/
def Frame.owner : Frame → Option TaskletId
  | .yieldSwitch t | .sendBlocked _ t | .sendHanded _ t | .receiveBlocked _ t
  | .receiveHanded _ t => some t
  | .yieldBlockedMain => some mainTasklet
  | _ => none

/-- The frames of `stack` are operations of `t`. -/
def Operations (t : TaskletId) (stack : List Frame) : Prop :=
  ∀ frame ∈ stack, frame.isOperation = true ∧ ∀ u, frame.owner = some u → u = t

/-- The stacks a tasklet can have. -/
inductive ProperStack (promise : Promise) (t : TaskletId) : List Frame → Prop
  | operations {stack : List Frame} (below : Operations t stack) : ProperStack promise t stack
  | yielding {stack : List Frame} (below : Operations t stack) :
      ProperStack promise t (.yieldSwitch t :: stack)
  | yielded {stack : List Frame} (parent : TaskletId) (below : Operations t stack) :
      ProperStack promise t (.switchTo parent :: .yieldSwitch t :: stack)
  | running {stack : List Frame} (base : TaskletId) (endTasklet : Option TaskletId)
      (unblocked : Bool) (x : TaskletId) (home : promise.flat → base = t)
      (below : Operations t stack) :
      ProperStack promise t (.run base endTasklet unblocked x :: stack)
  | switched {stack : List Frame} (base : TaskletId) (endTasklet : Option TaskletId)
      (unblocked : Bool) (x : TaskletId) (home : promise.flat → base = t)
      (below : Operations t stack) :
      ProperStack promise t (.switchTo x :: .run base endTasklet unblocked x :: stack)

/-- The stacks of a tasklet that is blocked in the call of `frame`. -/
inductive BlockedStack (t : TaskletId) (frame : Frame) : List Frame → Prop
  | called : BlockedStack t frame [frame]
  | yielding (notMain : t ≠ mainTasklet) : BlockedStack t frame [.yieldSwitch t, frame]
  | yielded (notMain : t ≠ mainTasklet) (parent : TaskletId) :
      BlockedStack t frame [.switchTo parent, .yieldSwitch t, frame]
  | waiting (main : t = mainTasklet) : BlockedStack t frame [.yieldBlockedMain, frame]
  | running (main : t = mainTasklet) (base : TaskletId) (endTasklet : Option TaskletId)
      (unblocked : Bool) (x : TaskletId) :
      BlockedStack t frame [.run base endTasklet unblocked x, .yieldBlockedMain, frame]
  | switched (main : t = mainTasklet) (base : TaskletId) (endTasklet : Option TaskletId)
      (unblocked : Bool) (x : TaskletId) :
      BlockedStack t frame
        [.switchTo x, .run base endTasklet unblocked x, .yieldBlockedMain, frame]

/-- The frame of a call that waits on channel `c`. -/
def WaitsOn (c : ChannelId) (t : TaskletId) (frame : Frame) : Prop :=
  frame = .sendBlocked c t ∨ frame = .receiveBlocked c t

/-- Stacks are proper and blocked tasklets are inside the call that blocked them. -/
structure Shaped (promise : Promise) (k : Config ν) : Prop where
  proper : ∀ t, ProperStack promise t (k.stack t)
  blocked : ∀ t, (k.state.tasklets t).blocked = true →
    ∃ c frame, (k.state.tasklets t).channelBlockedOn = some c ∧ WaitsOn c t frame ∧
      BlockedStack t frame (k.stack t)
  passed : ∀ t, (k.state.tasklets t).greenlet = .started → (k.state.tasklets t).Passed

/-! ## The run queue and the blocked lists -/

/-- The run queue holds the active tasklets and its pointers are clean.  Where
tasklets do not nest, the active ones are queued in the order they wait in. -/
structure Queued (promise : Promise) (s : State ν) (chain : List TaskletId) : Prop where
  rep : ∃ queue, QueueRep s queue
  detached : ∀ t, (s.tasklets t).scheduled = false →
    (s.tasklets t).next = none ∧ (s.tasklets t).previous = none
  active : ∀ t ∈ chain, (s.tasklets t).scheduled = true
  bounded : ∀ t, (s.tasklets t).scheduled = true → t < s.taskletCount
  standard : s.runType = .standard ∧ s.stopScheduler = false
  flat : promise.flat → s.useNestedTasklets = false
  lined : promise.flat → ∀ queue, QueueRep s queue →
    chain.reverse.Sublist (mainTasklet :: queue)

/-- The blocked lists hold the blocked tasklets and these are not queued, but for
`doomed`, which may have been unblocked while on a list, and `transit`, which may
be blocked while in the queue. -/
structure Exclusive (s : State ν) (doomed transit : Option TaskletId) : Prop where
  lists : ∃ lists, BlockedRep s lists ∧ ∀ t, some t ≠ doomed → ∀ c,
    (∃ d, t ∈ lists c d) ↔
      (s.tasklets t).blocked = true ∧ (s.tasklets t).channelBlockedOn = some c
  waiting : ∀ t, t ≠ mainTasklet → some t ≠ transit → (s.tasklets t).blocked = true →
    (s.tasklets t).scheduled = false

/-! ## The invariant -/

/-- Control came back from the tasklet `x` to the run loop of the running one. -/
structure Returned (k : Config ν) (chain : List TaskletId) (x : TaskletId) : Prop where
  outside : x ∉ chain
  parent : (k.state.tasklets x).taskletParent = some k.running
  scheduled : (k.state.tasklets x).scheduled = true
  current : k.state.currentTasklet = k.running ∨ k.state.currentTasklet = x
  exclusive : Exclusive k.state none (some x)

/-- The running tasklet is inside a blocking call it will fail with, while it may
have been unblocked without leaving its list. -/
structure Failing (k : Config ν) (above : List Frame) : Prop where
  current : k.state.currentTasklet = k.running
  exclusive : Exclusive k.state (some k.running) (some k.running)
  inside : ∃ c frame, WaitsOn c k.running frame ∧ k.stack k.running = above ++ [frame] ∧
    (∀ c' d t, k.state.OnBlockedList c' d t → t = k.running → c' = c)

/-- The running tasklet is in a call of the scheduler that may have blocked it. -/
structure Yielding (k : Config ν) : Prop where
  current : k.state.currentTasklet = k.running
  exclusive : Exclusive k.state none (some k.running)

/-- The running tasklet is in a call that does not block it. -/
structure AtRest (k : Config ν) : Prop where
  current : k.state.currentTasklet = k.running
  unblocked : (k.state.tasklets k.running).blocked = false
  exclusive : Exclusive k.state none none

/-- What is known about a call that returns, by the frame it returns into. -/
def ReturnsInto (promise : Promise) (k : Config ν) (chain : List TaskletId) (ok : Bool) : List Frame → Prop
  | .switchTo x :: .run _ _ _ _ :: _ => Returned k chain x
  | .switchTo p :: _ => Yielding k ∨
      (k.state.tasklets k.running).exceptionState ≠ none ∧
        Failing k [.switchTo p, .yieldSwitch k.running]
  | .run _ _ _ x :: _ => Returned k chain x ∧ (promise.calm → ok = false →
      k.exitRaised = true ∨ (k.state.tasklets x).remove = true ∨
        k.state.currentTasklet = k.running)
  | .yieldSwitch _ :: _ => Yielding k ∨ ok = false ∧ Failing k [.yieldSwitch k.running]
  | .yieldBlockedMain :: _ => Yielding k
  | [.sendBlocked _ _] => if ok then AtRest k else Failing k []
  | [.receiveBlocked _ _] => if ok then AtRest k else Failing k []
  | _ => AtRest k

/-- What is known by what runs next. -/
def Local (promise : Promise) (k : Config ν) (chain : List TaskletId) : Prop :=
  match k.control with
  | .python => k.stack k.running = [] ∧ AtRest k
  | .returning ok => ReturnsInto promise k chain ok (k.stack k.running)
  | .crashed => False

/-- An orderly configuration with its active chain. -/
structure Orderly (promise : Promise) (k : Config ν) (chain : List TaskletId) : Prop where
  chained : Chained k chain
  queued : Queued promise k.state chain
  shaped : Shaped promise k
  local_ : Local promise k chain

/-- A kill or throw of a blocked tasklet came back with a failure and is about to
block it again. -/
def Restoring (k : Config ν) : Prop :=
  k.control = .returning false ∧ ∃ t channel below,
    (k.stack k.running = .kill t true channel :: below ∨
      k.stack k.running = .throwBlocked t channel :: below) ∨
    k.raised ≠ some .taskletExit ∧ ∃ base endTasklet unblocked,
      (k.stack k.running = .run base endTasklet unblocked t :: .kill t true channel :: below ∨
        k.stack k.running = .run base endTasklet unblocked t :: .throwBlocked t channel :: below)

/-- The invariant of the scheduler, or a crash in a run that is not calm. -/
def Ordered (promise : Promise) (k : Config ν) : Prop :=
  ¬ promise.calm ∧ k.control = .crashed ∨ Restoring k ∨ ∃ chain, Orderly promise k chain

/-! ## Transport -/

/-- Only the fields of the run queue matter to it. -/
theorem Queued.of_fields {s s' : State ν} {chain : List TaskletId} (queued : Queued promise s chain)
    (next : ∀ t, (s'.tasklets t).next = (s.tasklets t).next)
    (previous : ∀ t, (s'.tasklets t).previous = (s.tasklets t).previous)
    (scheduled : ∀ t, (s'.tasklets t).scheduled = (s.tasklets t).scheduled)
    (last : s'.previousTasklet = s.previousTasklet)
    (number : s'.numberOfTaskletsInQueue = s.numberOfTaskletsInQueue)
    (count : s'.taskletCount = s.taskletCount) (runType : s'.runType = s.runType)
    (stopScheduler : s'.stopScheduler = s.stopScheduler)
    (nested : promise.flat → s'.useNestedTasklets = s.useNestedTasklets) :
    Queued promise s' chain where
  rep := by
    obtain ⟨queue, rep⟩ := queued.rep
    exact ⟨queue, rep.congr next previous scheduled last number⟩
  detached := fun t unscheduled => by
    rw [next, previous]
    exact queued.detached t ((scheduled t).symm.trans unscheduled)
  active := fun t member => (scheduled t).trans (queued.active t member)
  bounded := fun t isScheduled => by
    rw [count]
    exact queued.bounded t ((scheduled t).symm.trans isScheduled)
  standard := by
    rw [runType, stopScheduler]
    exact queued.standard
  flat := fun flat => (nested flat).trans (queued.flat flat)
  lined := fun flat queue rep => queued.lined flat queue
    (rep.congr (fun t => (next t).symm) (fun t => (previous t).symm) (fun t => (scheduled t).symm)
      last.symm number.symm)

theorem Queued.congr {s s' : State ν} {chain : List TaskletId} (queued : Queued promise s chain)
    (agree : SameLists s s') : Queued promise s' chain :=
  queued.of_fields (fun t => agree.field t Standing.next) (fun t => agree.field t Standing.previous)
    (fun t => agree.field t Standing.scheduled) agree.last agree.number agree.count agree.runType
    agree.stopScheduler fun _ => agree.nested

theorem BlockedRep.congr {s s' : State ν} {lists : BlockedLists} (rep : BlockedRep s lists)
    (agree : SameLists s s') : BlockedRep s' lists where
  segment := fun c d => (rep.segment c d).congr
    (fun t _ => agree.field t Standing.previousBlocked)
    (fun t _ => agree.field t Standing.nextBlocked)
  first := fun c d => by rw [agree.ends, rep.first]
  last := fun c d => by rw [agree.ends, rep.last]
  nodup := rep.nodup
  direction := fun c d t member =>
    (agree.field t Standing.blockedDirection).trans (rep.direction c d t member)
  disjoint := rep.disjoint
  unlisted := fun t nowhere => by
    obtain ⟨next, previous, direction⟩ := rep.unlisted t nowhere
    exact ⟨(agree.field t Standing.nextBlocked).trans next,
      (agree.field t Standing.previousBlocked).trans previous,
      (agree.field t Standing.blockedDirection).trans direction⟩
  balance := fun c => by rw [agree.balance, rep.balance]
  neither := rep.neither

namespace Exclusive

variable {s s' : State ν} {doomed transit : Option TaskletId}

theorem congr (exclusive : Exclusive s doomed transit) (agree : SameLists s s') :
    Exclusive s' doomed transit where
  lists := by
    obtain ⟨lists, rep, listed⟩ := exclusive.lists
    refine ⟨lists, rep.congr agree, fun t spared c => (listed t spared c).trans ?_⟩
    exact iff_of_eq (congrArg (fun view : Standing =>
      view.blocked = true ∧ view.channelBlockedOn = some c) (agree.standing t)).symm
  waiting := fun t notMain settled blocked => by
    refine (agree.field t Standing.scheduled).trans (exclusive.waiting t notMain settled ?_)
    exact (agree.field t Standing.blocked).symm.trans blocked

theorem weaken (exclusive : Exclusive s none none) (doomed transit : Option TaskletId) :
    Exclusive s doomed transit where
  lists := by
    obtain ⟨lists, rep, listed⟩ := exclusive.lists
    exact ⟨lists, rep, fun t _ => listed t (by simp)⟩
  waiting := fun t notMain _ => exclusive.waiting t notMain (by simp)

theorem doom (exclusive : Exclusive s none transit) (doomed : Option TaskletId) :
    Exclusive s doomed transit where
  lists := by
    obtain ⟨lists, rep, listed⟩ := exclusive.lists
    exact ⟨lists, rep, fun t _ => listed t (by simp)⟩
  waiting := exclusive.waiting

/-- A tasklet that is not blocked or not scheduled is not in transit. -/
theorem settle {t : TaskletId} (exclusive : Exclusive s doomed (some t))
    (settled : (s.tasklets t).blocked = true → (s.tasklets t).scheduled = false) :
    Exclusive s doomed none where
  lists := exclusive.lists
  waiting := fun u notMain _ blocked => by
    by_cases same : u = t
    · subst same
      exact settled blocked
    · exact exclusive.waiting u notMain (by simpa using same) blocked

/-- A tasklet off all lists is not blocked. -/
theorem onList_blocked {t : TaskletId} {c : ChannelId} {d : ChannelDirection}
    (exclusive : Exclusive s none transit) (onList : s.OnBlockedList c d t) :
    (s.tasklets t).blocked = true ∧ (s.tasklets t).channelBlockedOn = some c := by
  obtain ⟨lists, rep, listed⟩ := exclusive.lists
  exact (listed t (by simp) c).mp ⟨d, (rep.onBlockedList_iff c d t).mp onList⟩

end Exclusive

theorem Shaped.passed_agree {k : Config ν} {s' : State ν} (shaped : Shaped promise k)
    (agree : Agree k.state s') (t : TaskletId)
    (started : (s'.tasklets t).greenlet = .started) : (s'.tasklets t).Passed := by
  refine agree.passed t (shaped.passed t ?_)
  exact (congrArg Links.greenlet (agree.links t)).symm.trans started

theorem Shaped.agree {k k' : Config ν} (shaped : Shaped promise k) (agree : Agree k.state k'.state)
    (stack : k'.stack = k.stack) : Shaped promise k' where
  proper := fun t => by
    rw [stack]
    exact shaped.proper t
  blocked := fun t blocked => by
    obtain ⟨c, frame, channel, waits, shape⟩ := shaped.blocked t
      ((agree.field t Standing.blocked).symm.trans blocked)
    refine ⟨c, frame, (agree.field t Standing.channelBlockedOn).trans channel, waits, ?_⟩
    rw [stack]
    exact shape
  passed := shaped.passed_agree agree

theorem Chained.agree {k k' : Config ν} {chain : List TaskletId} (chained : Chained k chain)
    (agree : Agree k.state k'.state) (running : k'.running = k.running)
    (stack : ∀ t, t ≠ k.running → k'.stack t = k.stack t) : Chained k' chain :=
  chained.congr_links running agree.count agree.links stack

/-! ## Entering and leaving a function -/

/-- A function of the scheduler runs: the stack of the running tasklet holds only
operations. -/
structure Entered (promise : Promise) (k : Config ν) (chain : List TaskletId) : Prop where
  chained : Chained k chain
  queued : Queued promise k.state chain
  shaped : Shaped promise k
  operations : Operations k.running (k.stack k.running)

namespace Entered

variable {k k' : Config ν} {chain : List TaskletId}

theorem agree (entered : Entered promise k chain) (agree : Agree k.state k'.state)
    (running : k'.running = k.running) (stack : k'.stack = k.stack) : Entered promise k' chain where
  chained := entered.chained.agree agree running fun t _ => by rw [stack]
  queued := entered.queued.congr agree.toSameLists
  shaped := entered.shaped.agree agree stack
  operations := by
    rw [running, stack]
    exact entered.operations

theorem running_scheduled (entered : Entered promise k chain) :
    (k.state.tasklets k.running).scheduled = true :=
  entered.queued.active _ entered.chained.running_mem

end Entered

theorem AtRest.agree {k k' : Config ν} (rest : AtRest k) (agree : Agree k.state k'.state)
    (running : k'.running = k.running)
    (current : k'.state.currentTasklet = k.state.currentTasklet) : AtRest k' where
  current := by rw [current, running, rest.current]
  unblocked := by
    rw [running]
    exact (agree.field k.running Standing.blocked).trans rest.unblocked
  exclusive := rest.exclusive.congr agree.toSameLists

theorem AtRest.yielding {k : Config ν} (rest : AtRest k) : Yielding k :=
  ⟨rest.current, rest.exclusive.weaken _ _⟩

theorem AtRest.failing {k : Config ν} (rest : AtRest k) {c : ChannelId} {frame : Frame}
    {above : List Frame} (waits : WaitsOn c k.running frame)
    (stack : k.stack k.running = above ++ [frame]) : Failing k above := by
  refine ⟨rest.current, rest.exclusive.weaken _ _, c, frame, waits, stack, ?_⟩
  intro c' d t onList same
  have blocked := (rest.exclusive.onList_blocked onList).1
  rw [same, rest.unblocked] at blocked
  cases blocked

/-- A call of a tasklet at rest returns into any operation. -/
theorem AtRest.returnsInto {k : Config ν} {chain : List TaskletId} (rest : AtRest k) (ok : Bool)
    (operations : Operations k.running (k.stack k.running)) :
    ReturnsInto promise k chain ok (k.stack k.running) := by
  cases stack : k.stack k.running with
  | nil => exact rest
  | cons frame below =>
      rw [stack] at operations
      obtain ⟨operation, owner⟩ := operations frame (.head _)
      cases frame with
      | switchTo | run | yieldSwitch => cases operation
      | yieldBlockedMain => exact rest.yielding
      | sendBlocked c t =>
          obtain rfl := owner t rfl
          cases below with
          | cons => exact rest
          | nil =>
              cases ok
              · exact rest.failing (.inl rfl) stack
              · exact rest
      | receiveBlocked c t =>
          obtain rfl := owner t rfl
          cases below with
          | cons => exact rest
          | nil =>
              cases ok
              · exact rest.failing (.inr rfl) stack
              · exact rest
      | _ => exact rest

/-- Only control, exception and history may differ. -/
structure SameBody (k k' : Config ν) : Prop where
  state : k'.state = k.state
  running : k'.running = k.running
  stack : k'.stack = k.stack

/-- Only fields that the invariant does not read may differ. -/
structure Quiet (k k' : Config ν) : Prop where
  agree : Agree k.state k'.state
  current : k'.state.currentTasklet = k.state.currentTasklet
  running : k'.running = k.running
  stack : k'.stack = k.stack

namespace Quiet

variable {k k' k'' : Config ν}

theorem refl (k : Config ν) : Quiet k k :=
  ⟨Agree.refl _, rfl, rfl, rfl⟩

theorem trans (first : Quiet k k') (second : Quiet k' k'') : Quiet k k'' where
  agree := first.agree.trans second.agree
  current := second.current.trans first.current
  running := second.running.trans first.running
  stack := second.stack.trans first.stack

theorem ite {condition : Prop} [Decidable condition] (first : Quiet k k') (second : Quiet k k'') :
    Quiet k (if condition then k' else k'') := by
  split
  · exact first
  · exact second

theorem modifyTasklet (before : Quiet k k') (t : TaskletId) (change : Tasklet ν → Tasklet ν)
    (keeps : ∀ tasklet, (change tasklet).standing = tasklet.standing)
    (links : ∀ tasklet, (change tasklet).links = tasklet.links)
    (passed : ∀ tasklet, tasklet.Passed → (change tasklet).Passed) :
    Quiet k (k'.modifyTasklet t change) :=
  before.trans ⟨Agree.modifyTasklet _ t change keeps links passed, rfl, rfl, rfl⟩

theorem updateCloseState (before : Quiet k k') (c : ChannelId) :
    Quiet k (k'.withState (k'.state.updateCloseState c)) :=
  before.trans ⟨Agree.updateCloseState _ c, rfl, rfl, rfl⟩

theorem record (before : Quiet k k') (event : Event ν) : Quiet k (k'.record event) :=
  before.trans ⟨Agree.refl _, rfl, rfl, rfl⟩

theorem recordCall (before : Quiet k k') (c : ChannelId) (operation : ChannelCall ν) :
    Quiet k (k'.recordCall c operation) :=
  before.trans ⟨Agree.refl _, rfl, rfl, rfl⟩

theorem ret (before : Quiet k k') (ok : Bool) : Quiet k (k'.ret ok) :=
  before.trans ⟨Agree.refl _, rfl, rfl, rfl⟩

theorem raise (before : Quiet k k') (error : PyError ν) : Quiet k (k'.raise error) :=
  before.trans ⟨Agree.refl _, rfl, rfl, rfl⟩

theorem entered {chain : List TaskletId} (quiet : Quiet k k') (entered : Entered promise k chain) :
    Entered promise k' chain :=
  entered.agree quiet.agree quiet.running quiet.stack

theorem atRest (quiet : Quiet k k') (rest : AtRest k) : AtRest k' :=
  rest.agree quiet.agree quiet.running quiet.current

end Quiet

namespace Entered

variable {k k' : Config ν} {chain : List TaskletId}

theorem returned (entered : Entered promise k chain) (rest : AtRest k) {ok : Bool}
    (same : SameBody k k') (control : k'.control = .returning ok) : Ordered promise k' := by
  have agree : Agree k.state k'.state := same.state ▸ Agree.refl _
  have entered' := entered.agree agree same.running same.stack
  have rest' := rest.agree agree same.running (by rw [same.state])
  refine .inr (.inr ⟨chain, entered'.chained, entered'.queued, entered'.shaped, ?_⟩)
  rw [Local, control]
  exact rest'.returnsInto ok entered'.operations

theorem ret (entered : Entered promise k chain) (rest : AtRest k) (ok : Bool) : Ordered promise (k.ret ok) :=
  entered.returned rest ⟨rfl, rfl, rfl⟩ rfl

theorem raise (entered : Entered promise k chain) (rest : AtRest k) (error : PyError ν) :
    Ordered promise (k.raise error) :=
  entered.returned rest ⟨rfl, rfl, rfl⟩ rfl

theorem fail (entered : Entered promise k chain) (rest : AtRest k) (error : SchedulerError) :
    Ordered promise (k.fail error) :=
  entered.raise rest (.scheduler error)

/-- Suspend an operation of a tasklet at rest. -/
theorem push (entered : Entered promise k chain) (unblocked : (k.state.tasklets k.running).blocked = false)
    {frame : Frame} (operation : frame.isOperation = true)
    (owner : ∀ u, frame.owner = some u → u = k.running) : Entered promise (k.push frame) chain where
  chained := entered.chained.agree (Agree.refl _) rfl fun t other => by
    simp [other]
  queued := entered.queued
  shaped := by
    refine ⟨fun t => ?_, fun t blocked => ?_, entered.shaped.passed⟩
    · by_cases same : t = k.running
      · subst same
        simp only [Config.push_stack, Function.update_self]
        refine .operations fun other member => ?_
        cases member with
        | head => exact ⟨operation, owner⟩
        | tail _ member => exact entered.operations other member
      · simpa [same] using entered.shaped.proper t
    · have other : t ≠ k.running := by
        rintro rfl
        exact Bool.false_ne_true (unblocked.symm.trans blocked)
      simpa [other] using entered.shaped.blocked t blocked
  operations := by
    simp only [Config.push_stack, Config.push_running, Function.update_self]
    intro other member
    cases member with
    | head => exact ⟨operation, owner⟩
    | tail _ member => exact entered.operations other member

end Entered

end CarbonLab.Scheduler
