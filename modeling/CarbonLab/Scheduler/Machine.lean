import CarbonLab.Scheduler.ChannelQueue
import CarbonLab.Scheduler.RunQueue

/-!
# Tasklets running on greenlets

The scheduler switches greenlets in the middle of its C++ functions, so every
tasklet has a stack of suspended calls of its own.  A configuration holds the
schedule manager's state, the greenlet that runs, the stacks, and whether Python
code runs or a call returns into the top frame.  The Python code of a tasklet is
left open: whenever it runs it may do any operation.

Each function below is the source function of that name up to the next greenlet
switch or return; `resume` is what follows a return, one case for each place a
call can be suspended at.
-/

namespace CarbonLab.Scheduler

variable {ν : Type}

/-- What a send hands over. -/
structure Message (ν : Type) where
  arguments : ν
  exception : Option (PyError ν) := none
  restore : Bool := false
  deriving DecidableEq, Repr

/-- A suspended call: the function and the local variables it still needs. -/
inductive Frame where
  | switchTo (t : TaskletId)
  | run (base : TaskletId) (endTasklet : Option TaskletId) (runUntilUnblocked : Bool)
      (t : TaskletId)
  | yieldBlockedMain
  | yieldSwitch (t : TaskletId)
  | runLimited (timed : Bool)
  | switchScheduled
  | switchUnscheduled
  | kill (t : TaskletId) (blocked : Bool) (channel : Option ChannelId)
  | throwBlocked (t : TaskletId) (channel : Option ChannelId)
  | clearBlocked (c : ChannelId) (pending : Bool) (senders : Bool)
  | sendBlocked (c : ChannelId) (current : TaskletId)
  | sendHanded (c : ChannelId) (current : TaskletId)
  | receiveBlocked (c : ChannelId) (current : TaskletId)
  | receiveHanded (c : ChannelId) (current : TaskletId)
  deriving DecidableEq, Repr

/-- What runs next: Python code, a call that returns into the frame below it, or
nothing after a null pointer was dereferenced. -/
inductive Control where
  | python
  | returning (ok : Bool)
  | crashed
  deriving DecidableEq, Repr

/-- A channel operation as Python calls it. -/
inductive ChannelCall (ν : Type) where
  | send (message : Message ν)
  | receive
  deriving DecidableEq, Repr

/-- What a channel operation gave its caller: `received` is a value returned or an
exception of the sender raised. -/
inductive Outcome (ν : Type) where
  | sent
  | received (message : Message ν)
  | failed (error : Option (PyError ν))
  deriving DecidableEq, Repr

/-- The history of channel operations.  Calls are numbered in the order they are
made. -/
inductive Event (ν : Type) where
  | called (call : Nat) (t : TaskletId) (c : ChannelId) (operation : ChannelCall ν)
  | handed (send receive : Nat)
  | returned (call : Nat) (outcome : Outcome ν)
  deriving DecidableEq, Repr

/-- A configuration. `raised` is the exception Python has pending, `calls` the
number of each tasklet's last channel operation, `log` the history of all of
them; the last two are read by nothing. -/
structure Config (ν : Type) where
  state : State ν
  running : TaskletId := mainTasklet
  stack : TaskletId → List Frame := fun _ => []
  control : Control := .python
  raised : Option (PyError ν) := none
  calls : TaskletId → Nat := fun _ => 0
  callCount : Nat := 0
  log : List (Event ν) := []

namespace State

/-- The greenlet of `t` is that of `p` or one of its parents. -/
def hasAncestor (s : State ν) : Nat → TaskletId → TaskletId → Bool
  | 0, p, t => p == t
  | fuel + 1, p, t =>
      p == t || match (s.tasklets p).greenletParent with
        | some parent => hasAncestor s fuel parent t
        | none => false

/-- `Tasklet::SetParent`. -/
def setParent (s : State ν) (t : TaskletId) : Option TaskletId → Except SchedulerError (State ν)
  | some parent =>
      if (s.tasklets t).isMain then
        .error .mainParent
      else if (s.tasklets t).greenlet = .null then
        .error .notGreenlet
      else if s.hasAncestor s.taskletCount parent t then
        .error .cyclicParent
      else
        .ok (s.modifyTasklet t (.setParents parent parent))
  | none =>
      if !(s.tasklets t).isMain && (s.tasklets t).greenlet ≠ .null then
        .ok (s.modifyTasklet t (.setParents mainTasklet none))
      else
        .ok (s.modifyTasklet t (.setParents (s.tasklets t).greenletParent none))

/-- The calls of `SetParent( nullptr )`, which cannot fail. -/
def clearParent (s : State ν) (t : TaskletId) : State ν :=
  match s.setParent t none with
  | .ok s => s
  | .error _ => s

/-- The tests of the run limits in `ScheduleManager::Run`. -/
def testRunLimits (s : State ν) : State ν :=
  if (s.tasklets s.currentTasklet).isMain then
    match s.runType with
    | .taskletLimited =>
        let s := if 0 < s.taskletLimit then { s with taskletLimit := s.taskletLimit - 1 } else s
        if s.taskletLimit ≤ 0 then { s with stopScheduler := true } else s
    | .timeLimited =>
        let now := s.clock s.clockReads
        let s := { s with clockReads := s.clockReads + 1 }
        if s.totalTaskletRunTimeLimit ≤ now - s.startTime then
          if s.firstTimeLimitTestSkipped then
            { s with stopScheduler := true }
          else
            { s with firstTimeLimitTestSkipped := true }
        else s
    | .standard => s
  else s

theorem testRunLimits_standard {s : State ν} (standard : s.runType = .standard) :
    s.testRunLimits = s := by
  simp [testRunLimits, standard]

/-- The end of `RunTaskletsForTime` and `RunNTasklets`. -/
def resetLimits (s : State ν) (timed : Bool) : State ν :=
  { s with
    runType := .standard
    stopScheduler := false
    taskletLimit := -1
    totalTaskletRunTimeLimit := if timed then -1 else s.totalTaskletRunTimeLimit }

/-- `Channel::UpdateCloseState`. -/
def updateCloseState (s : State ν) (c : ChannelId) : State ν :=
  s.modifyChannel c fun channel =>
    if channel.closing && channel.balance == 0 then { channel with closed := true } else channel

end State

namespace Config

/-- Go on with another state. -/
@[simps -fullyApplied]
def withState (k : Config ν) (s : State ν) : Config ν :=
  { k with state := s }

/-- Change one tasklet. -/
@[simps -fullyApplied]
def modifyTasklet (k : Config ν) (t : TaskletId) (change : Tasklet ν → Tasklet ν) : Config ν :=
  { k with state := k.state.modifyTasklet t change }

/-- Return from the current function. -/
@[simps -fullyApplied]
def ret (k : Config ν) (ok : Bool) : Config ν :=
  { k with control := .returning ok }

/-- Set a Python exception and return failure. -/
@[simps -fullyApplied]
def raise (k : Config ν) (error : PyError ν) : Config ν :=
  { k with raised := some error, control := .returning false }

/-- Set one of the scheduler's own exceptions and return failure. -/
@[simps -fullyApplied]
def fail (k : Config ν) (error : SchedulerError) : Config ν :=
  { k with raised := some (.scheduler error), control := .returning false }

/-- Dereference a null pointer. -/
@[simps -fullyApplied]
def crash (k : Config ν) : Config ν :=
  { k with control := .crashed }

/-- Suspend a call of the running greenlet. -/
@[simps -fullyApplied]
def push (k : Config ν) (frame : Frame) : Config ν :=
  { k with stack := Function.update k.stack k.running (frame :: k.stack k.running) }

/-- Go on after the call the top frame waited for. -/
@[simps -fullyApplied]
def pop (k : Config ν) : Config ν :=
  { k with stack := Function.update k.stack k.running (k.stack k.running).tail }

/-- Add to the history. -/
@[simps -fullyApplied]
def record (k : Config ν) (event : Event ν) : Config ν :=
  { k with log := k.log ++ [event] }

/-- Number a channel operation of the current tasklet. -/
@[simps -fullyApplied]
def recordCall (k : Config ν) (c : ChannelId) (operation : ChannelCall ν) : Config ν :=
  { k with
    calls := Function.update k.calls k.state.currentTasklet k.callCount
    callCount := k.callCount + 1
    log := k.log ++ [.called k.callCount k.state.currentTasklet c operation] }

/-- `PyGreenlet_Switch`, or a throw of `error` into the greenlet: a started
greenlet goes on, a fresh one starts, a dead one passes control to its parent. -/
def enterGreenlet (k : Config ν) (error : Option (PyError ν)) : Nat → TaskletId → Config ν
  | 0, _ => k.crash
  | fuel + 1, t =>
      match (k.state.tasklets t).greenlet with
      | .null => k.fail .notGreenlet
      | .started => { k with running := t, raised := error, control := .returning error.isNone }
      | .dead =>
          match (k.state.tasklets t).greenletParent with
          | some parent => enterGreenlet k error fuel parent
          | none => k.crash
      | .fresh runnable =>
          match error with
          | none =>
              if runnable then
                { k.modifyTasklet t (.setGreenlet .started) with
                  running := t, raised := none, control := .python }
              else
                k.fail .greenletNotRunnable
          | some _ =>
              match (k.state.tasklets t).greenletParent with
              | some parent =>
                  enterGreenlet (k.modifyTasklet t (.setGreenlet .dead)) error fuel parent
              | none => k.crash

/-- The part of `Tasklet::SwitchTo` right before the switch. -/
def beginSwitch (k : Config ν) (t : TaskletId) : Config ν :=
  let k := k.withState (k.state.setCurrentTasklet t)
  let k := k.modifyTasklet t (.setPaused false)
  let k := k.modifyTasklet t (.setFirstRun false)
  k.push (.switchTo t)

/-- `Tasklet::SwitchTo`, up to the switch. -/
def switchTo (k : Config ν) (t : TaskletId) : Config ν :=
  let tasklet := k.state.tasklets t
  if tasklet.arguments = some false then
    k.fail .argumentsNotTuple
  else if tasklet.kwArguments = some false then
    k.fail .kwArgumentsNotDict
  else if tasklet.firstRun && t != mainTasklet &&
      !(tasklet.kwArguments.isSome || tasklet.arguments.isSome) then
    k.fail .noArguments
  else if k.state.switchTrapLevel ≠ 0 then
    k.fail .switchTrap
  else
    match tasklet.firstRun, tasklet.exceptionState with
    | true, some .taskletExit => (k.modifyTasklet t (.setAlive false)).ret true
    | true, some error =>
        ((k.modifyTasklet t .clearException).modifyTasklet t (.setRemove true)).raise error
    | _, _ => (k.beginSwitch t).enterGreenlet none (k.state.taskletCount + 1) t

/-- `Tasklet::SwitchTo` of `t` after the switch came back. -/
def switchedBack (k : Config ν) (t : TaskletId) (ok : Bool) : Config ν :=
  let k := k.modifyTasklet t (.setArguments none none)
  let current := k.state.currentTasklet
  match (k.state.tasklets current).exceptionState with
  | some error => (k.modifyTasklet current .clearException).raise error
  | none =>
      let tasklet := k.state.tasklets t
      let k := if !tasklet.blocked && !tasklet.transferInProgress && !tasklet.isMain &&
          !tasklet.paused && tasklet.reschedule = .none && !tasklet.taggedForRemoval then
        k.modifyTasklet t (.setAlive false) else k
      let k := if tasklet.taggedForRemoval then k.modifyTasklet t (.setPaused true) else k
      let k := k.modifyTasklet t (.setTaggedForRemoval false)
      let k := if ok then k else k.modifyTasklet t (.setRemove true)
      k.ret ok

/-- The loop of `ScheduleManager::Run`, up to the switch of an iteration. -/
def runLoop (k : Config ν) (base : TaskletId) (endTasklet : Option TaskletId)
    (runUntilUnblocked runComplete : Bool) : Config ν :=
  match (k.state.tasklets base).next, runComplete with
  | none, _ => k.ret true
  | _, true => k.ret true
  | some t, false =>
      if k.state.stopScheduler && k.state.currentTasklet == mainTasklet then
        k.ret true
      else if k.state.currentTasklet = t then
        k.ret true
      else
        match k.state.setParent t k.state.currentTasklet with
        | .error error => k.fail error
        | .ok s =>
            ((k.withState s.testRunLimits).push
              (.run base endTasklet runUntilUnblocked t)).switchTo t

/-- `ScheduleManager::Run`. -/
def run (k : Config ν) (startTasklet : Option TaskletId) : Config ν :=
  let current := k.state.currentTasklet
  let runUntilUnblocked := current == mainTasklet && (k.state.tasklets current).blocked
  match startTasklet with
  | some start =>
      match (k.state.tasklets start).previous with
      | some base => k.runLoop base k.state.previousTasklet runUntilUnblocked false
      | none => k.crash
  | none => k.runLoop current none runUntilUnblocked false

/-- The exception that is set is `TaskletExit`. -/
def exitRaised (k : Config ν) : Bool :=
  match k.raised with
  | some .taskletExit => true
  | _ => false

/-- `TaskletExit` ends a tasklet without an error. -/
def catchExit (k : Config ν) (t : TaskletId) : Config ν :=
  if k.exitRaised then { k.modifyTasklet t .clearException with raised := none } else k

/-- The iteration of `ScheduleManager::Run` for `t` after a successful `SwitchTo`. -/
def runGoesOn (k : Config ν) (base : TaskletId) (endTasklet : Option TaskletId)
    (runUntilUnblocked : Bool) (t : TaskletId) : Config ν :=
  let unblocked := runUntilUnblocked && !(k.state.tasklets mainTasklet).blocked
  match k.state.runPostSwitch t with
  | none => k.crash
  | some s =>
      let s := if (s.tasklets t).alive then s else s.clearParent t
      (k.withState s).runLoop base endTasklet runUntilUnblocked
        (unblocked || endTasklet == some t)

/-- The end of `ScheduleManager::Run` after a failed `SwitchTo` of `t`. -/
def runFailed (k : Config ν) (t : TaskletId) : Config ν :=
  if (k.state.tasklets t).remove then
    match (k.state.tasklets t).taskletParent with
    | none => k.crash
    | some parent =>
        let (s, removed) := (k.state.setCurrentTasklet parent).removeTasklet t
        (k.withState (if removed then s.clearParent t else s)).ret false
  else
    (k.withState (k.state.clearParent t)).ret false

/-- The iteration of `ScheduleManager::Run` for `t` after its `SwitchTo`. -/
def runSwitched (k : Config ν) (base : TaskletId) (endTasklet : Option TaskletId)
    (runUntilUnblocked : Bool) (t : TaskletId) (ok : Bool) : Config ν :=
  if ok || k.exitRaised then (k.catchExit t).runGoesOn base endTasklet runUntilUnblocked t
  else k.runFailed t

/-- `ScheduleManager::Yield`. -/
def yield (k : Config ν) : Config ν :=
  let yielding := k.state.currentTasklet
  if yielding = mainTasklet then
    if (k.state.tasklets yielding).blocked then
      if (k.state.tasklets yielding).next = none then
        k.fail .deadlock
      else
        (k.push .yieldBlockedMain).run none
    else
      k.run none
  else
    match (k.state.tasklets yielding).taskletParent with
    | some parent => (k.push (.yieldSwitch yielding)).switchTo parent
    | none => k.crash

/-- The first parent that is not blocked or is main. -/
def unblockedParent (s : State ν) : Nat → TaskletId → Option TaskletId
  | 0, _ => none
  | fuel + 1, t =>
      match (s.tasklets t).taskletParent with
      | none => none
      | some parent =>
          if (s.tasklets parent).blocked && !(s.tasklets parent).isMain then
            unblockedParent s fuel parent
          else
            some parent

/-- The re-entry loop of `ScheduleManager::Yield` for the tasklet `t`. -/
def yieldSwitched (k : Config ν) (t : TaskletId) (ok : Bool) : Config ν :=
  if !ok then
    k.ret false
  else if (k.state.tasklets t).blocked then
    match unblockedParent k.state k.state.taskletCount t with
    | some parent => (k.push (.yieldSwitch t)).switchTo parent
    | none => k.crash
  else
    k.ret true

/-- `ScheduleManager::Yield` of the blocked main tasklet after its run. -/
def yieldRan (k : Config ν) (ok : Bool) : Config ν :=
  if !ok then
    k.ret false
  else if (k.state.tasklets mainTasklet).blocked then
    k.fail .deadlock
  else
    k.ret true

/-- `ScheduleManager::Schedule`. -/
def schedule (k : Config ν) (position : RescheduleType) (remove : Bool) : Config ν :=
  let current := k.state.currentTasklet
  (k.modifyTasklet current
    (if remove then .setTaggedForRemoval true else .setReschedule position)).yield

/-- Go on with the result of an operation on the run queue. -/
def afterInsert (k : Config ν) (inserted : Option (State ν)) (next : Config ν → Config ν) :
    Config ν :=
  match inserted with
  | some s => next (k.withState s)
  | none => k.crash

/-- `Tasklet::Run`. -/
def taskletRun (k : Config ν) (t : TaskletId) : Config ν :=
  let tasklet := k.state.tasklets t
  if !tasklet.alive then
    k.fail .runDead
  else if tasklet.blocked then
    k.fail .runBlocked
  else if k.state.useNestedTasklets then
    if tasklet.scheduled then
      k.run (some t)
    else
      k.afterInsert (k.state.insertTasklet t) fun k => k.run (some t)
  else
    let s := if tasklet.scheduled then (k.state.removeTasklet t).1 else k.state
    (k.withState (s.insertTaskletToRunNext t)).schedule .frontPlusOne false

/-- `Tasklet::SwitchImplementation`. -/
def switchImplementation (k : Config ν) (t : TaskletId) : Config ν :=
  let tasklet := k.state.tasklets t
  if !tasklet.alive then
    k.fail .switchDead
  else if tasklet.blocked then
    k.fail .switchBlocked
  else
    let k := k.modifyTasklet k.state.currentTasklet (.setPaused true)
    if tasklet.scheduled then
      (k.push .switchScheduled).run (some t)
    else
      k.afterInsert (k.state.insertTasklet t) fun k => (k.push .switchUnscheduled).run (some t)

/-- `Tasklet::Kill`. -/
def kill (k : Config ν) (t : TaskletId) (pending : Bool) : Config ν :=
  let tasklet := k.state.tasklets t
  if !tasklet.alive || tasklet.killPending then
    k.ret true
  else
    let k := if tasklet.blocked then k.modifyTasklet t .unblock else k
    let k := k.modifyTasklet t (.setExceptionState .taskletExit)
    if k.state.currentTasklet = t then
      (k.modifyTasklet t .clearException).raise .taskletExit
    else if pending then
      k.afterInsert (k.state.insertTasklet t) fun k =>
        let k := k.modifyTasklet t (.setReschedule .none)
        let k := k.modifyTasklet t (.setKillPending true)
        if tasklet.blocked then
          match tasklet.channelBlockedOn with
          | some c =>
              let k := k.withState (k.state.removeTaskletFromBlocked c t)
              (k.modifyTasklet t (.setBlockedDirection .neither)).ret true
          | none => k.crash
        else
          k.ret true
    else
      let k := k.modifyTasklet t (.setReschedule .none)
      (k.push (.kill t tasklet.blocked tasklet.channelBlockedOn)).taskletRun t

/-- `Tasklet::ThrowException`. -/
def throwException (k : Config ν) (t : TaskletId) (exception : PyError ν) (pending : Bool) :
    Config ν :=
  let tasklet := k.state.tasklets t
  let k := k.modifyTasklet t (.setExceptionState exception)
  if k.state.currentTasklet = t then
    (k.modifyTasklet t .clearException).raise exception
  else if pending then
    if tasklet.alive then
      k.afterInsert (k.state.insertTasklet t) fun k => k.ret true
    else
      let k := k.modifyTasklet t .clearException
      if exception matches .taskletExit then k.ret true else k.fail .throwDeadPending
  else if tasklet.blocked then
    let k := k.modifyTasklet t .unblock
    (k.push (.throwBlocked t tasklet.channelBlockedOn)).taskletRun t
  else if tasklet.alive then
    k.taskletRun t
  else
    let k := k.modifyTasklet t .clearException
    if exception matches .taskletExit then k.ret true else k.fail .throwDead

/-- The end of a channel operation of `t`. -/
def finishCall (k : Config ν) (t : TaskletId) (outcome : Outcome ν) : Config ν :=
  k.record (.returned (k.calls t) outcome)

/-- A channel operation of `t` that returns the exception that is set. -/
def failCall (k : Config ν) (t : TaskletId) : Config ν :=
  (k.finishCall t (.failed k.raised)).ret false

/-- A channel operation of `t` that sets an exception and returns. -/
def refuseCall (k : Config ν) (t : TaskletId) (error : SchedulerError) : Config ν :=
  (k.fail error).failCall t

/-- The part of `Channel::Send` after the transfer. -/
def sendDone (k : Config ν) (c : ChannelId) (current : TaskletId) : Config ν :=
  let k := k.modifyTasklet current (.setTransferInProgress false)
  let k := k.withState (k.state.updateCloseState c)
  (k.finishCall current .sent).ret true

/-- `Channel::Send` without a waiting receiver. -/
def sendBlocks (k : Config ν) (c : ChannelId) (current : TaskletId) (message : Message ν) :
    Config ν :=
  if (k.state.tasklets current).blocktrap then
    k.refuseCall current .blockTrap
  else if (k.state.channels c).closed || (k.state.channels c).closing then
    k.refuseCall current .sendClosed
  else
    let k := k.withState (k.state.addTaskletToWaitingToSend c current)
    let k := k.modifyTasklet current (.block c)
    let k := k.withState (k.state.updateCloseState c)
    let k := k.modifyTasklet current
      (.setTransferArguments message.arguments message.exception message.restore)
    (k.push (.sendBlocked c current)).yield

/-- The end of a `Channel::Send` that found a receiver. -/
def resumeReceiver (k : Config ν) (c : ChannelId) (current receiving : TaskletId) : Config ν :=
  if (k.state.channels c).preference = .receiver then
    let k := k.withState (k.state.insertTaskletToRunNext receiving)
    (k.push (.sendHanded c current)).schedule .back false
  else
    k.afterInsert (k.state.insertTasklet receiving) fun k => k.sendDone c current

/-- `Channel::Send` to a waiting receiver that is off its list. -/
def sendTo (k : Config ν) (c : ChannelId) (current receiving : TaskletId) (message : Message ν) :
    Config ν :=
  let k := k.modifyTasklet receiving .unblock
  let k := k.modifyTasklet receiving
    (.setTransferArguments message.arguments message.exception message.restore)
  let k := k.record (.handed (k.calls current) (k.calls receiving))
  let k := k.withState (k.state.updateCloseState c)
  k.resumeReceiver c current receiving

/-- `Channel::Send`. -/
def send (k : Config ν) (c : ChannelId) (message : Message ν) : Config ν :=
  let current := k.state.currentTasklet
  let k := k.recordCall c (.send message)
  let k := k.modifyTasklet current (.setTransferInProgress true)
  match k.state.popNextTaskletBlockedOnReceive c with
  | (_, none) => k.sendBlocks c current message
  | (s, some receiving) => (k.withState s).sendTo c current receiving message

/-- The failure of the blocked path of `Channel::Send`. -/
def sendFailed (k : Config ν) (c : ChannelId) (current : TaskletId) : Config ν :=
  let k := k.modifyTasklet current (.setTransferInProgress false)
  let k := k.withState (k.state.removeTaskletFromBlocked c current)
  let k := k.modifyTasklet current .clearTransferArguments
  let k := k.modifyTasklet current .unblock
  let k := k.withState (k.state.updateCloseState c)
  k.failCall current

/-- The part of `Channel::Receive` after the transfer. -/
def receiveDone (k : Config ν) (c : ChannelId) (current : TaskletId) : Config ν :=
  let tasklet := k.state.tasklets current
  let k := k.modifyTasklet current (.setTransferInProgress false)
  let k := k.modifyTasklet current .clearTransferArguments
  match tasklet.transferArguments, tasklet.transferException with
  | some arguments, some exception =>
      let k := k.withState (k.state.updateCloseState c)
      let k := k.finishCall current (.received ⟨arguments, some exception, tasklet.restoreException⟩)
      k.raise exception
  | some arguments, none =>
      (k.finishCall current (.received ⟨arguments, none, tasklet.restoreException⟩)).ret true
  | none, some exception =>
      let k := k.withState (k.state.updateCloseState c)
      (k.raise exception).failCall current
  | none, none => k.failCall current

/-- The failure of the blocked path of `Channel::Receive`. -/
def receiveFailed (k : Config ν) (c : ChannelId) (current : TaskletId) : Config ν :=
  let k := k.withState (k.state.removeTaskletFromBlocked c current)
  let k := k.modifyTasklet current .unblock
  let k := k.modifyTasklet current (.setTransferInProgress false)
  let k := k.modifyTasklet current .clearTransferArguments
  let k := k.withState (k.state.updateCloseState c)
  k.failCall current

/-- A `Channel::Receive` that may not block. -/
def refuseReceive (k : Config ν) (c : ChannelId) (current : TaskletId) (error : SchedulerError) :
    Config ν :=
  let k := k.withState (k.state.removeTaskletFromBlocked c current)
  (k.modifyTasklet current (.setTransferInProgress false)).refuseCall current error

/-- `Channel::Receive` without a waiting sender. -/
def receiveBlocks (k : Config ν) (c : ChannelId) (current : TaskletId) : Config ν :=
  let k := k.withState (k.state.addTaskletToWaitingToReceive c current)
  if (k.state.tasklets current).blocktrap then
    k.refuseReceive c current .blockTrap
  else if (k.state.channels c).closed || (k.state.channels c).closing then
    k.refuseReceive c current .receiveClosed
  else
    let k := k.modifyTasklet current (.block c)
    let k := k.withState (k.state.updateCloseState c)
    (k.push (.receiveBlocked c current)).yield

/-- The end of a `Channel::Receive` that found a sender. -/
def resumeSender (k : Config ν) (c : ChannelId) (current sending : TaskletId) : Config ν :=
  if (k.state.channels c).preference = .sender then
    let k := k.withState (k.state.insertTaskletToRunNext sending)
    (k.push (.receiveHanded c current)).schedule .back false
  else
    k.afterInsert (k.state.insertTasklet sending) fun k => k.receiveDone c current

/-- `Channel::Receive` from a waiting sender that is off its list. -/
def receiveFrom (k : Config ν) (c : ChannelId) (current sending : TaskletId) : Config ν :=
  let k := k.modifyTasklet sending .unblock
  let k := k.modifyTasklet sending (.setTransferInProgress false)
  let sender := k.state.tasklets sending
  match sender.transferArguments with
  | none => k.crash
  | some arguments =>
      let k := k.modifyTasklet current
        (.setTransferArguments arguments sender.transferException sender.restoreException)
      let k := k.modifyTasklet sending .clearTransferArguments
      let k := k.record (.handed (k.calls sending) (k.calls current))
      let k := k.withState (k.state.updateCloseState c)
      k.resumeSender c current sending

/-- `Channel::Receive`. -/
def receive (k : Config ν) (c : ChannelId) : Config ν :=
  let current := k.state.currentTasklet
  let k := k.recordCall c .receive
  let k := k.modifyTasklet current (.setTransferInProgress true)
  match k.state.popNextTaskletBlockedOnSend c with
  | (_, none) => k.receiveBlocks c current
  | (s, some sending) => (k.withState s).receiveFrom c current sending

/-- The second loop of `Channel::ClearBlocked`, up to its next kill. -/
def clearSenders (k : Config ν) (c : ChannelId) (pending : Bool) : Config ν :=
  match (k.state.channels c).blockedOnSend.first with
  | some t => (k.push (.clearBlocked c pending true)).kill t pending
  | none => k.ret true

/-- `Channel::ClearBlocked`, up to the next kill: the receivers first and then, never
going back to them, the senders. -/
def clearBlocked (k : Config ν) (c : ChannelId) (pending : Bool) : Config ν :=
  match (k.state.channels c).blockedOnReceive.first with
  | some t => (k.push (.clearBlocked c pending false)).kill t pending
  | none => k.clearSenders c pending

/-- What a suspended call does with the result of the call it waited for. -/
def resumeFrame (k : Config ν) (frame : Frame) (ok : Bool) : Config ν :=
  match frame with
  | .switchTo t => k.switchedBack t ok
  | .run base endTasklet runUntilUnblocked t =>
      k.runSwitched base endTasklet runUntilUnblocked t ok
  | .yieldBlockedMain => k.yieldRan ok
  | .yieldSwitch t => k.yieldSwitched t ok
  | .runLimited timed => (k.withState (k.state.resetLimits timed)).ret ok
  | .switchScheduled =>
      if ok then k.yield
      else (k.modifyTasklet k.state.currentTasklet (.setPaused false)).ret false
  | .switchUnscheduled => (k.modifyTasklet k.state.currentTasklet (.setPaused false)).ret ok
  | .kill t blocked channel =>
      if !ok && blocked then (k.modifyTasklet t (.block channel)).ret ok else k.ret ok
  | .throwBlocked t channel => if ok then k.ret ok else (k.modifyTasklet t (.block channel)).ret ok
  | .clearBlocked c pending false => k.clearBlocked c pending
  | .clearBlocked c pending true => k.clearSenders c pending
  | .sendBlocked c current => if ok then k.sendDone c current else k.sendFailed c current
  | .sendHanded c current =>
      if ok then k.sendDone c current
      else (k.withState (k.state.updateCloseState c)).failCall current
  | .receiveBlocked c current => if ok then k.receiveDone c current else k.receiveFailed c current
  | .receiveHanded c current =>
      if ok then k.receiveDone c current
      else (k.withState (k.state.updateCloseState c)).failCall current

/-- Return into the top frame of the running greenlet, or to its Python code. -/
def resume (k : Config ν) (ok : Bool) : Config ν :=
  match k.stack k.running with
  | [] => { k with control := .python, raised := none }
  | frame :: _ => k.pop.resumeFrame frame ok

end Config

/-- What Python code can do. `bind` and `setup` record whether their arguments
have the types `SwitchTo` checks for; `finish` and `raise` end the body of the
running tasklet. -/
inductive Action (ν : Type) where
  | create (callable : Bool)
  | bind (t : TaskletId) (callable : Bool) (arguments kwArguments : Option Bool)
  | unBind (t : TaskletId)
  | setup (t : TaskletId) (arguments kwArguments : Option Bool)
  | insert (t : TaskletId)
  | remove (t : TaskletId)
  | run (t : TaskletId)
  | switch (t : TaskletId)
  | kill (t : TaskletId) (pending : Bool)
  | throw (t : TaskletId) (exception : PyError ν) (pending : Bool)
  | schedule
  | scheduleRemove
  | schedulerRun
  | runNTasklets (number : Nat)
  | runTaskletsForTime (timeout : Int)
  | send (c : ChannelId) (message : Message ν)
  | receive (c : ChannelId)
  | clear (c : ChannelId) (pending : Bool)
  | close (c : ChannelId)
  | open (c : ChannelId)
  | setPreference (c : ChannelId) (preference : ChannelDirection)
  | setBlocktrap (t : TaskletId) (value : Bool)
  | switchTrap (delta : Int)
  | setUseNestedTasklets (value : Bool)
  | finish
  | raise (error : PyError ν)
  deriving DecidableEq, Repr

/-- The tasklet an operation is called on. -/
def Action.target : Action ν → Option TaskletId
  | .bind t _ _ _ | .unBind t | .setup t _ _ | .insert t | .remove t | .run t | .switch t
  | .kill t _ | .throw t _ _ | .setBlocktrap t _ => some t
  | _ => none

/-- `Tasklet::Initialise` in a greenlet, which becomes the parent of the new
one. -/
@[simps]
def Tasklet.initialise (parent : TaskletId) (tasklet : Tasklet ν) : Tasklet ν :=
  { tasklet with
    greenlet := .fresh tasklet.callable
    greenletParent := some parent
    callable := false
    paused := true
    firstRun := true }

/-- `Tasklet::Uninitialise` and the fields `UnBind` clears. -/
@[simps]
def Tasklet.uninitialise (tasklet : Tasklet ν) : Tasklet ν :=
  { tasklet with greenlet := .null, arguments := none, alive := false }

namespace Config

/-- `TaskletInit`. -/
def create (k : Config ν) (callable : Bool) : Config ν :=
  let t := k.state.taskletCount
  let k := k.withState { k.state with taskletCount := t + 1 }
  (k.modifyTasklet t fun _ => { callable := callable }).ret true

/-- The tasklet has a greenlet that is running or suspended. -/
def HasLiveGreenlet (k : Config ν) (t : TaskletId) : Bool :=
  (k.state.tasklets t).greenlet = .started

end Config

/-- What the greenlet library does with a live greenlet that its tasklet lets go of:
it throws `GreenletExit` into one that nobody else refers to and runs it to its end.
`none` when control does not come back. -/
abbrev Unwinding (ν : Type) := Config ν → TaskletId → Option (Config ν)

/-- No tasklet lets go of a live greenlet. -/
def Unwinding.never : Unwinding ν := fun _ _ => none

namespace Config

/-- `Py_XDECREF( m_greenlet )`. -/
def dropGreenlet (k : Config ν) (unwind : Unwinding ν) (t : TaskletId) : Option (Config ν) :=
  if k.HasLiveGreenlet t then unwind k t else some k

/-- `Tasklet::Bind`. -/
def bind (k : Config ν) (unwind : Unwinding ν) (t : TaskletId) (callable : Bool)
    (arguments kwArguments : Option Bool) : Option (Config ν) :=
  let k := if callable then k.modifyTasklet t (.setCallable true) else k
  let tasklet := k.state.tasklets t
  let k := k.modifyTasklet t (.setArguments (arguments.or tasklet.arguments)
    (kwArguments.or tasklet.kwArguments))
  if arguments.isSome || kwArguments.isSome then do
    let k ← k.dropGreenlet unwind t
    let k := k.modifyTasklet t (.initialise k.running)
    some ((k.modifyTasklet t (.setAlive true)).ret true)
  else
    some (k.ret true)

/-- `Tasklet::UnBind`. -/
def unBind (k : Config ν) (unwind : Unwinding ν) (t : TaskletId) : Option (Config ν) :=
  if k.state.currentTasklet = t then
    some (k.fail .unbindCurrent)
  else if (k.state.tasklets t).scheduled then
    some (k.fail .unbindScheduled)
  else do
    let k := k.modifyTasklet t (.setCallable false)
    let k := k.modifyTasklet t (.setArguments none (k.state.tasklets t).kwArguments)
    let k ← k.dropGreenlet unwind t
    some ((k.modifyTasklet t .uninitialise).ret true)

/-- `Tasklet::Insert`. -/
def insert (k : Config ν) (t : TaskletId) : Config ν :=
  if (k.state.tasklets t).blocked then
    k.fail .insertBlocked
  else if !(k.state.tasklets t).alive then
    k.fail .insertDead
  else
    k.afterInsert (k.state.insertTasklet t) fun k =>
      (k.modifyTasklet t (.setPaused false)).ret true

/-- `Tasklet::Setup`. -/
def setup (k : Config ν) (unwind : Unwinding ν) (t : TaskletId)
    (arguments kwArguments : Option Bool) : Option (Config ν) :=
  if !(k.state.tasklets t).callable then
    some (k.fail .setupUnbound)
  else do
    let k := k.modifyTasklet t (.setArguments arguments kwArguments)
    let k ← k.dropGreenlet unwind t
    let k := k.modifyTasklet t (.initialise k.running)
    let k := k.modifyTasklet t (.setAlive true)
    if (k.state.tasklets t).blocked then
      let k := k.modifyTasklet t .uninitialise
      some ((k.modifyTasklet t (.setArguments none none)).fail .insertBlocked)
    else
      some (k.insert t)

/-- `Tasklet::Remove`. -/
def remove (k : Config ν) (t : TaskletId) : Config ν :=
  if (k.state.tasklets t).scheduled then
    ((k.withState (k.state.removeTasklet t).1).modifyTasklet t (.setPaused true)).ret true
  else
    k.ret true

/-- The body of the running tasklet ends, with an uncaught exception or without,
and its greenlet passes control to its parent. -/
def endBody (k : Config ν) (error : Option (PyError ν)) : Option (Config ν) :=
  if k.running = mainTasklet then none
  else
    match (k.state.tasklets k.running).greenletParent with
    | none => none
    | some parent =>
        let k := k.modifyTasklet k.running (.setGreenlet .dead)
        some (k.enterGreenlet error (k.state.taskletCount + 1) parent)

/-- `ScheduleManager::RunNTasklets`; its `int` parameter gets an `unsigned int`. -/
def runNTasklets (k : Config ν) (number : Nat) : Config ν :=
  let s := { k.state with taskletLimit := Int.bmod number (2 ^ 32), runType := .taskletLimited }
  ((k.withState s).push (.runLimited false)).run none

/-- `ScheduleManager::RunTaskletsForTime`. -/
def runTaskletsForTime (k : Config ν) (timeout : Int) : Config ν :=
  let s := { k.state with
    totalTaskletRunTimeLimit := timeout
    firstTimeLimitTestSkipped := false
    runType := .timeLimited
    startTime := k.state.clock k.state.clockReads
    clockReads := k.state.clockReads + 1 }
  ((k.withState s).push (.runLimited true)).run none

/-- An operation of the Python code that runs, `none` when it cannot be done
here. -/
def actWith (k : Config ν) (unwind : Unwinding ν) : Action ν → Option (Config ν)
  | .create callable => some (k.create callable)
  | .bind t callable arguments kwArguments => k.bind unwind t callable arguments kwArguments
  | .unBind t => k.unBind unwind t
  | .setup t arguments kwArguments => k.setup unwind t arguments kwArguments
  | .insert t => some (k.insert t)
  | .remove t => some (k.remove t)
  | .run t => some (k.taskletRun t)
  | .switch t => some (k.switchImplementation t)
  | .kill t pending => some (k.kill t pending)
  | .throw t exception pending => some (k.throwException t exception pending)
  | .schedule => some (k.schedule .back false)
  | .scheduleRemove => some (k.schedule .back true)
  | .schedulerRun => some (k.run none)
  | .runNTasklets number =>
      if number = 0 ∨ 2 ^ 32 ≤ number then none else some (k.runNTasklets number)
  | .runTaskletsForTime timeout => some (k.runTaskletsForTime timeout)
  | .send c message => some (k.send c message)
  | .receive c => some (k.receive c)
  | .clear c pending => some (k.clearBlocked c pending)
  | .close c => some ((k.withState ((k.state.modifyChannel c
      fun channel => { channel with closing := true }).updateCloseState c)).ret true)
  | .open c => some ((k.withState (k.state.modifyChannel c
      fun channel => { channel with closing := false, closed := false })).ret true)
  | .setPreference c preference => some ((k.withState (k.state.modifyChannel c
      fun channel => { channel with preference := preference })).ret true)
  | .setBlocktrap t value => some ((k.modifyTasklet t (.setBlocktrap value)).ret true)
  | .switchTrap delta => some ((k.withState
      { k.state with switchTrapLevel := k.state.switchTrapLevel + delta }).ret true)
  | .setUseNestedTasklets value =>
      some ((k.withState { k.state with useNestedTasklets := value }).ret true)
  | .finish => k.endBody none
  | .raise error => k.endBody (some error)

/-- An operation that makes no tasklet let go of a live greenlet. -/
def act (k : Config ν) (action : Action ν) : Option (Config ν) :=
  k.actWith .never action

/-- One step: an operation of the Python code on tasklets that exist, or the
return of a call. -/
def stepWith (k : Config ν) (unwind : Unwinding ν) : Option (Action ν) → Option (Config ν)
  | some action =>
      if k.control = .python ∧ action.target.all (· < k.state.taskletCount) then
        k.actWith unwind action
      else
        none
  | none =>
      match k.control with
      | .returning ok => some (k.resume ok)
      | _ => none

/-- A step in which no tasklet lets go of a live greenlet. -/
def step (k : Config ν) (label : Option (Action ν)) : Option (Config ν) :=
  k.stepWith .never label

/-- The operation makes its tasklet let go of a live greenlet. -/
def DropsGreenlet (k : Config ν) : Option (Action ν) → Bool
  | some (.bind t _ arguments kwArguments) =>
      (arguments.isSome || kwArguments.isSome) && k.HasLiveGreenlet t
  | some (.unBind t) =>
      k.state.currentTasklet ≠ t && !(k.state.tasklets t).scheduled && k.HasLiveGreenlet t
  | some (.setup t _ _) => (k.state.tasklets t).callable && k.HasLiveGreenlet t
  | _ => false

theorem dropGreenlet_of_idle {k : Config ν} {t : TaskletId} (idle : k.HasLiveGreenlet t = false)
    (unwind : Unwinding ν) : k.dropGreenlet unwind t = some k := by
  simp [dropGreenlet, idle]

theorem dropGreenlet_never {k k' : Config ν} {t : TaskletId} :
    k.dropGreenlet .never t = some k' ↔ k.HasLiveGreenlet t = false ∧ k' = k := by
  cases live : k.HasLiveGreenlet t <;> simp [dropGreenlet, live, Unwinding.never, eq_comm]

/-- While no tasklet lets go of a live greenlet, nothing is unwound. -/
theorem stepWith_eq_step {k : Config ν} {label : Option (Action ν)}
    (kept : k.DropsGreenlet label = false) (unwind : Unwinding ν) :
    k.stepWith unwind label = k.step label := by
  cases label with
  | none => rfl
  | some action =>
      suffices same : k.actWith unwind action = k.actWith .never action by
        simp only [step, stepWith, same]
      cases action with
      | bind t callable arguments kwArguments =>
          simp only [actWith, bind]
          split
          · next supplied =>
              rw [DropsGreenlet, supplied, Bool.true_and] at kept
              rw [dropGreenlet_of_idle, dropGreenlet_of_idle] <;>
                split <;> simpa [HasLiveGreenlet] using kept
          · rfl
      | unBind t =>
          simp only [actWith, unBind]
          split
          · rfl
          next other =>
          split
          · rfl
          next unscheduled =>
          have idle : k.HasLiveGreenlet t = false := by simpa [DropsGreenlet, other, unscheduled] using kept
          rw [dropGreenlet_of_idle, dropGreenlet_of_idle] <;> simpa [HasLiveGreenlet] using idle
      | setup t arguments kwArguments =>
          simp only [actWith, setup]
          split
          · rfl
          next bound =>
          have idle : k.HasLiveGreenlet t = false := by
            simp only [Bool.not_eq_true', Bool.not_eq_false] at bound
            rwa [DropsGreenlet, bound, Bool.true_and] at kept
          rw [dropGreenlet_of_idle, dropGreenlet_of_idle] <;> simpa [HasLiveGreenlet] using idle
      | _ => rfl

/-- A fresh schedule manager with Python code running in its main tasklet. -/
def initial (clock : Nat → Int) (useNestedTasklets : Bool) : Config ν where
  state := { State.initial clock with useNestedTasklets := useNestedTasklets }

end Config

end CarbonLab.Scheduler
