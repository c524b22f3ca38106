import Mathlib

/-!
# Tasklets, channels and the schedule manager

The data of one scheduler thread: the fields of `Tasklet`, `Channel` and
`ScheduleManager` that the scheduling and channel code reads.  Pointers between
tasklets are optional identifiers, a null pointer is `none`.  Python objects sent
over channels are values of an arbitrary type `ν`; the code never looks into
them.  Reference counts, telemetry, call-site data and user callbacks are left
out.
-/

namespace CarbonLab.Scheduler

/-- A tasklet, as a pointer to it. -/
abbrev TaskletId := Nat

/-- A channel, as a pointer to it. -/
abbrev ChannelId := Nat

/-- The side of a channel operation, also used as a channel's preference. -/
inductive ChannelDirection where
  | sender
  | receiver
  | neither
  deriving DecidableEq, Repr

/-- Where a tasklet goes when the run loop gets control back from it. -/
inductive RescheduleType where
  | frontPlusOne
  | back
  | none
  deriving DecidableEq, Repr

/-- What limits a run of the schedule manager. -/
inductive RunType where
  | standard
  | timeLimited
  | taskletLimited
  deriving DecidableEq, Repr

/-- The errors set by the scheduler itself; the last four are raised by the greenlet library. -/
inductive SchedulerError where
  | blockTrap
  | sendClosed
  | receiveClosed
  | deadlock
  | insertBlocked
  | insertDead
  | switchDead
  | switchBlocked
  | argumentsNotTuple
  | kwArgumentsNotDict
  | noArguments
  | switchTrap
  | runDead
  | runBlocked
  | throwDeadPending
  | throwDead
  | setupUnbound
  | unbindCurrent
  | unbindScheduled
  | cyclicParent
  | mainParent
  | notGreenlet
  | greenletNotRunnable
  deriving DecidableEq, Repr

/-- A raised Python exception: `TaskletExit`, one the scheduler sets, or any
other object. -/
inductive PyError (ν : Type) where
  | taskletExit
  | scheduler (error : SchedulerError)
  | object (exc : ν)
  deriving DecidableEq, Repr

/-- The life of the greenlet behind a tasklet. A fresh greenlet records whether
it has a callable to run. -/
inductive Greenlet where
  | null
  | fresh (runnable : Bool)
  | started
  | dead
  deriving DecidableEq, Repr

/-- A tasklet. `arguments` and `kwArguments` record whether the stored object
has the type `SwitchTo` checks for. -/
structure Tasklet (ν : Type) where
  greenlet : Greenlet := .null
  greenletParent : Option TaskletId := none
  callable : Bool := false
  arguments : Option Bool := none
  kwArguments : Option Bool := none
  isMain : Bool := false
  transferInProgress : Bool := false
  scheduled : Bool := false
  alive : Bool := false
  blocktrap : Bool := false
  previous : Option TaskletId := none
  next : Option TaskletId := none
  nextBlocked : Option TaskletId := none
  previousBlocked : Option TaskletId := none
  transferArguments : Option ν := none
  transferException : Option (PyError ν) := none
  restoreException : Bool := false
  channelBlockedOn : Option ChannelId := none
  blocked : Bool := false
  blockedDirection : ChannelDirection := .neither
  paused : Bool := false
  firstRun : Bool := true
  reschedule : RescheduleType := .none
  remove : Bool := false
  taggedForRemoval : Bool := false
  taskletParent : Option TaskletId := none
  exceptionState : Option (PyError ν) := none
  killPending : Bool := false

/-- The two end pointers of a blocked list. -/
structure BlockedEnds where
  first : Option TaskletId := none
  last : Option TaskletId := none
  deriving DecidableEq, Repr

/-- A channel. -/
structure Channel where
  balance : Int := 0
  preference : ChannelDirection := .receiver
  blockedOnSend : BlockedEnds := {}
  blockedOnReceive : BlockedEnds := {}
  closing : Bool := false
  closed : Bool := false
  deriving DecidableEq, Repr

/-- The end pointers of the blocked list of one direction. -/
def Channel.ends (channel : Channel) : ChannelDirection → BlockedEnds
  | .sender => channel.blockedOnSend
  | .receiver => channel.blockedOnReceive
  | .neither => {}

/-- Store the end pointers of the blocked list of one direction. -/
def Channel.setEnds (channel : Channel) : ChannelDirection → BlockedEnds → Channel
  | .sender, ends => { channel with blockedOnSend := ends }
  | .receiver, ends => { channel with blockedOnReceive := ends }
  | .neither, _ => channel

/-- The schedule manager of a thread with all tasklets and channels of that
thread. `clock` is the sequence of readings of the steady clock, `clockReads`
how many were taken. -/
structure State (ν : Type) where
  tasklets : TaskletId → Tasklet ν
  channels : ChannelId → Channel := fun _ => {}
  taskletCount : Nat := 1
  currentTasklet : TaskletId := 0
  previousTasklet : Option TaskletId := some 0
  switchTrapLevel : Int := 0
  runType : RunType := .standard
  taskletLimit : Int := -1
  totalTaskletRunTimeLimit : Int := -1
  firstTimeLimitTestSkipped : Bool := false
  startTime : Int := 0
  stopScheduler : Bool := false
  numberOfTaskletsInQueue : Int := 0
  useNestedTasklets : Bool := true
  clock : Nat → Int := fun _ => 0
  clockReads : Nat := 0

/-- The main tasklet of the thread. -/
def mainTasklet : TaskletId := 0

variable {ν : Type}

/-- The main tasklet as `CreateSchedulerTasklet` leaves it. -/
def Tasklet.main : Tasklet ν where
  greenlet := .started
  isMain := true
  scheduled := true
  alive := true

/-- A freshly created schedule manager. -/
def State.initial (clock : Nat → Int) : State ν where
  tasklets := Function.update (fun _ => {}) mainTasklet Tasklet.main
  clock := clock

/-! The setters of `Tasklet`, in the source's words. -/

namespace Tasklet

@[simps]
def setNext (next : Option TaskletId) (tasklet : Tasklet ν) : Tasklet ν :=
  { tasklet with next := next }

@[simps]
def setPrevious (previous : Option TaskletId) (tasklet : Tasklet ν) : Tasklet ν :=
  { tasklet with previous := previous }

@[simps]
def setScheduled (value : Bool) (tasklet : Tasklet ν) : Tasklet ν :=
  { tasklet with scheduled := value }

@[simps]
def setReschedule (value : RescheduleType) (tasklet : Tasklet ν) : Tasklet ν :=
  { tasklet with reschedule := value }

@[simps]
def setTaggedForRemoval (value : Bool) (tasklet : Tasklet ν) : Tasklet ν :=
  { tasklet with taggedForRemoval := value }

@[simps]
def block (channel : Option ChannelId) (tasklet : Tasklet ν) : Tasklet ν :=
  { tasklet with blocked := true, channelBlockedOn := channel }

@[simps]
def unblock (tasklet : Tasklet ν) : Tasklet ν :=
  { tasklet with blocked := false, channelBlockedOn := none }

@[simps]
def setBlockedDirection (direction : ChannelDirection) (tasklet : Tasklet ν) : Tasklet ν :=
  { tasklet with blockedDirection := direction }

@[simps]
def setAlive (value : Bool) (tasklet : Tasklet ν) : Tasklet ν :=
  { tasklet with alive := value }

@[simps]
def setPaused (value : Bool) (tasklet : Tasklet ν) : Tasklet ν :=
  { tasklet with paused := value }

@[simps]
def setFirstRun (value : Bool) (tasklet : Tasklet ν) : Tasklet ν :=
  { tasklet with firstRun := value }

@[simps]
def setRemove (value : Bool) (tasklet : Tasklet ν) : Tasklet ν :=
  { tasklet with remove := value }

@[simps]
def setKillPending (value : Bool) (tasklet : Tasklet ν) : Tasklet ν :=
  { tasklet with killPending := value }

@[simps]
def setExceptionState (exception : PyError ν) (tasklet : Tasklet ν) : Tasklet ν :=
  { tasklet with exceptionState := some exception }

@[simps]
def clearException (tasklet : Tasklet ν) : Tasklet ν :=
  { tasklet with exceptionState := none }

@[simps]
def setCallable (callable : Bool) (tasklet : Tasklet ν) : Tasklet ν :=
  { tasklet with callable := callable }

/-- `SetArguments` and `SetKwArguments`. -/
@[simps]
def setArguments (arguments kwArguments : Option Bool) (tasklet : Tasklet ν) : Tasklet ν :=
  { tasklet with arguments := arguments, kwArguments := kwArguments }

@[simps]
def setTransferInProgress (value : Bool) (tasklet : Tasklet ν) : Tasklet ν :=
  { tasklet with transferInProgress := value }

@[simps]
def setTransferArguments (arguments : ν) (exception : Option (PyError ν)) (restore : Bool)
    (tasklet : Tasklet ν) : Tasklet ν :=
  { tasklet with
    transferArguments := some arguments
    transferException := exception
    restoreException := restore }

@[simps]
def clearTransferArguments (tasklet : Tasklet ν) : Tasklet ν :=
  { tasklet with transferArguments := none }

@[simps]
def setBlocktrap (value : Bool) (tasklet : Tasklet ν) : Tasklet ν :=
  { tasklet with blocktrap := value }

/-- The greenlet behind the tasklet starts, ends or is replaced. -/
@[simps]
def setGreenlet (greenlet : Greenlet) (tasklet : Tasklet ν) : Tasklet ν :=
  { tasklet with greenlet := greenlet }

/-- The two parent fields `SetParent` writes. -/
@[simps]
def setParents (greenletParent taskletParent : Option TaskletId) (tasklet : Tasklet ν) :
    Tasklet ν :=
  { tasklet with greenletParent := greenletParent, taskletParent := taskletParent }

end Tasklet

namespace State

/-- Change one tasklet. -/
@[simps -fullyApplied]
def modifyTasklet (s : State ν) (t : TaskletId) (change : Tasklet ν → Tasklet ν) : State ν :=
  { s with tasklets := Function.update s.tasklets t (change (s.tasklets t)) }

/-- Change one channel. -/
@[simps -fullyApplied]
def modifyChannel (s : State ν) (c : ChannelId) (change : Channel → Channel) : State ν :=
  { s with channels := Function.update s.channels c (change (s.channels c)) }

/-- Change the tasklet behind a pointer, nothing when the pointer is null. -/
def modifyTasklet? (s : State ν) (t : Option TaskletId) (change : Tasklet ν → Tasklet ν) :
    State ν :=
  match t with
  | some t => s.modifyTasklet t change
  | none => s

/-- `ScheduleManager::SetCurrentTasklet`, without the scheduler callback. -/
@[simps -fullyApplied]
def setCurrentTasklet (s : State ν) (t : TaskletId) : State ν :=
  { s with currentTasklet := t }

@[simps -fullyApplied]
def setPreviousTasklet (s : State ν) (t : Option TaskletId) : State ν :=
  { s with previousTasklet := t }

@[simps -fullyApplied]
def setNumberOfTaskletsInQueue (s : State ν) (number : Int) : State ν :=
  { s with numberOfTaskletsInQueue := number }

end State

end CarbonLab.Scheduler
