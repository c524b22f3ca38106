import CarbonLab.Lib.Transition
import CarbonLab.Scheduler.OperationFrame

/-!
# The close state of a channel

A closing channel is closed once its balance has been 0.  The flag is recomputed by
explicit calls of `UpdateCloseState`, so every change of the balance has to be
followed by one.  One is not: a pending kill takes its tasklet off the blocked list
and leaves the flag as it was.
-/

namespace CarbonLab.Scheduler

open Transition

variable {ν : Type}

/-! ## What a removal and an addition do to the balances -/

namespace State

variable {s s' : State ν} {c : ChannelId} {t : TaskletId}

theorem detachEnds_balance (s : State ν) (c : ChannelId) (t : TaskletId) (c' : ChannelId) :
    ((s.detachEnds c t).1.channels c').balance = (s.channels c').balance := by
  have last : ∀ (s : State ν) d,
      ((s.detachLast d c t).1.channels c').balance = (s.channels c').balance := fun s d => by
    unfold detachLast
    split <;> simp
  have first : ∀ (s : State ν) d,
      ((s.detachFirst d c t).1.channels c').balance = (s.channels c').balance := fun s d => by
    unfold detachFirst
    split <;> simp
  simp only [detachEnds, first, last]

theorem modifyTasklet?_blockedDirection (s : State ν) (t : Option TaskletId) (u : TaskletId)
    {change : Tasklet ν → Tasklet ν}
    (keeps : ∀ tasklet, (change tasklet).blockedDirection = tasklet.blockedDirection) :
    ((s.modifyTasklet? t change).tasklets u).blockedDirection =
      (s.tasklets u).blockedDirection := by
  cases t with
  | none => rfl
  | some t =>
      by_cases same : u = t
      · subst same
        simp [modifyTasklet?, keeps]
      · simp [modifyTasklet?, same]

theorem detachEnds_blockedDirection (s : State ν) (c : ChannelId) (t u : TaskletId) :
    ((s.detachEnds c t).1.tasklets u).blockedDirection = (s.tasklets u).blockedDirection := by
  have last : ∀ (s : State ν) d,
      ((s.detachLast d c t).1.tasklets u).blockedDirection = (s.tasklets u).blockedDirection :=
    fun s d => by
      unfold detachLast
      split
      · exact modifyTasklet?_blockedDirection _ _ u (by intro; rfl)
      · rfl
  have first : ∀ (s : State ν) d,
      ((s.detachFirst d c t).1.tasklets u).blockedDirection = (s.tasklets u).blockedDirection :=
    fun s d => by
      unfold detachFirst
      split
      · exact modifyTasklet?_blockedDirection _ _ u (by intro; rfl)
      · rfl
  simp only [detachEnds, first, last]

/-- A removal accounts for the side its tasklet was blocked on. -/
theorem removeTaskletFromBlocked_balance (s : State ν) (c : ChannelId) (t : TaskletId)
    (c' : ChannelId) :
    ((s.removeTaskletFromBlocked c t).channels c').balance =
      if c' = c then (s.channels c).balance - (s.tasklets t).blockedDirection.weight
      else (s.channels c').balance := by
  have cleared : ∀ s' : State ν,
      (∀ c', (s'.channels c').balance = (s.channels c').balance) →
      (s'.tasklets t).blockedDirection = (s.tasklets t).blockedDirection →
      ((s'.clearBlockedFields c t).channels c').balance =
        if c' = c then (s.channels c).balance - (s.tasklets t).blockedDirection.weight
        else (s.channels c').balance := fun s' balance direction => by
    rw [clearBlockedFields_channels, Function.update_apply, direction, ← balance c', ← balance c]
    split <;> rfl
  have ends := detachEnds_balance s c t
  have direction := detachEnds_blockedDirection s c t t
  simp only [removeTaskletFromBlocked]
  split
  · exact cleared _ ends direction
  · refine cleared _ (fun c' => ?_) ?_
    · rw [← ends c']
      simp [detachMiddle]
    · rw [← direction, detachMiddle, modifyTasklet?_blockedDirection _ _ t (by intro; rfl),
        modifyTasklet?_blockedDirection _ _ t (by intro; rfl)]

theorem addTaskletToWaitingToSend_balance (s : State ν) (t : TaskletId) {c c' : ChannelId}
    (other : c' ≠ c) :
    ((s.addTaskletToWaitingToSend c t).channels c').balance = (s.channels c').balance := by
  simp only [addTaskletToWaitingToSend, incrementBalance, modifyChannel_channels,
    Function.update_of_ne other, addTaskletToWaiting_balance]

theorem addTaskletToWaitingToReceive_balance (s : State ν) (c : ChannelId) (t : TaskletId)
    (c' : ChannelId) :
    ((s.addTaskletToWaitingToReceive c t).channels c').balance =
      if c' = c then (s.channels c).balance - 1 else (s.channels c').balance := by
  simp only [addTaskletToWaitingToReceive, decrementBalance, modifyChannel_channels,
    Function.update_apply]
  split
  · simp only [addTaskletToWaiting_balance]
  · simp only [addTaskletToWaiting_balance]

theorem addTaskletToWaitingToReceive_blockedDirection (s : State ν) (c : ChannelId)
    (t : TaskletId) :
    ((s.addTaskletToWaitingToReceive c t).tasklets t).blockedDirection = .receiver := by
  simp [addTaskletToWaitingToReceive, decrementBalance, addTaskletToWaiting]

/-- What does not look at the blocked lists agrees on states that differ there. -/
theorem eq_of_eraseBlockedLists (same : s'.eraseBlockedLists = s.eraseBlockedLists) :
    (∀ c, (s'.channels c).closing = (s.channels c).closing ∧
      (s'.channels c).closed = (s.channels c).closed) ∧
      ∀ t, (s'.tasklets t).waitsOn = (s.tasklets t).waitsOn := by
  constructor
  · intro c
    have closing : (s'.eraseBlockedLists.channels c).closing =
        (s.eraseBlockedLists.channels c).closing := by rw [same]
    have closed : (s'.eraseBlockedLists.channels c).closed =
        (s.eraseBlockedLists.channels c).closed := by rw [same]
    exact ⟨closing, closed⟩
  · intro t
    have waits : (s'.eraseBlockedLists.tasklets t).waitsOn =
        (s.eraseBlockedLists.tasklets t).waitsOn := by rw [same]
    exact waits

theorem insertTasklet_blockedDirection {u : TaskletId} (done : s.insertTasklet t = some s') :
    (s'.tasklets u).blockedDirection = (s.tasklets u).blockedDirection := by
  unfold insertTasklet at done
  split at done
  · cases done
    simp only [modifyTasklet_tasklets, Function.update_apply]
    split
    · next same => simp [same]
    · rfl
  · split at done
    · cases done
    · next last _ =>
      cases done
      simp only [setNumberOfTaskletsInQueue_tasklets, setPreviousTasklet_tasklets,
        modifyTasklet_tasklets, Function.update_apply]
      repeat' split
      all_goals simp_all

end State

/-! ## Changes of the close state -/

/-- The closing and closed flags are the same. -/
structure Channel.SameFlags (before after : Channel) : Prop where
  closing : after.closing = before.closing
  closed : after.closed = before.closed

/-- The closed flag follows the balance: neither changed, or the flag was recomputed
for the balance that was reached. -/
structure Channel.Follows (before after : Channel) : Prop where
  closing : after.closing = before.closing
  closed : (after.closed = before.closed ∧ after.balance = before.balance) ∨
    after.closed = (before.closed || (before.closing && after.balance == 0))

/-- A tasklet that is blocked now was blocked before, or was blocked on a channel
that is not closing. -/
def State.BlocksOpen (s s' : State ν) : Prop :=
  ∀ t c, (s'.tasklets t).waitsOn = some c →
    (s.tasklets t).waitsOn = some c ∨ (s.channels c).closing = false

/-- At most the balance of `c` changed of what the close state depends on. -/
structure State.Shifts (c : ChannelId) (s s' : State ν) : Prop where
  flags : ∀ c', (s.channels c').SameFlags (s'.channels c')
  balance : ∀ c' ≠ c, (s'.channels c').balance = (s.channels c').balance
  blocks : s.BlocksOpen s'

/-- The close state of every channel follows its balance. -/
structure State.Settles (s s' : State ν) : Prop where
  follows : ∀ c, (s.channels c).Follows (s'.channels c)
  blocks : s.BlocksOpen s'

namespace State

variable {s s' s'' : State ν} {c : ChannelId}

theorem Spares.blocksOpen (spared : Spares s s') : s.BlocksOpen s' := by
  intro t c waits
  rcases spared.blocks t with same | free
  · exact .inl (same ▸ waits)
  · rw [free] at waits
    cases waits

theorem BlocksOpen.spared (before : s.BlocksOpen s') (spared : s'.Spares s'') :
    s.BlocksOpen s'' := by
  intro t c waits
  rcases spared.blocks t with same | free
  · exact before t c (same ▸ waits)
  · rw [free] at waits
    cases waits

namespace Shifts

theorem refl (s : State ν) (c : ChannelId) : Shifts c s s :=
  ⟨fun _ => ⟨rfl, rfl⟩, fun _ _ => rfl, fun _ _ => .inl⟩

theorem spared (before : Shifts c s s') (spared : s'.Spares s'') : Shifts c s s'' where
  flags := fun c' => by
    rw [spared.channels]
    exact before.flags c'
  balance := fun c' other => by
    rw [spared.channels]
    exact before.balance c' other
  blocks := before.blocks.spared spared

/-- Only the blocked lists and the balance of `c` changed. -/
theorem relisted (before : Shifts c s s') (same : s''.eraseBlockedLists = s'.eraseBlockedLists)
    (balance : ∀ c' ≠ c, (s''.channels c').balance = (s'.channels c').balance) :
    Shifts c s s'' where
  flags := fun c' => by
    obtain ⟨closing, closed⟩ := (eq_of_eraseBlockedLists same).1 c'
    exact ⟨closing.trans (before.flags c').closing, closed.trans (before.flags c').closed⟩
  balance := fun c' other => (balance c' other).trans (before.balance c' other)
  blocks := fun t c' waits => by
    rw [(eq_of_eraseBlockedLists same).2] at waits
    exact before.blocks t c' waits

theorem removed (before : Shifts c s s') (t : TaskletId) :
    Shifts c s (s'.removeTaskletFromBlocked c t) :=
  before.relisted (removeTaskletFromBlocked_eraseBlockedLists s' c t) fun c' other => by
    rw [removeTaskletFromBlocked_balance, if_neg other]

theorem popped (before : Shifts c s s') (d : ChannelDirection) :
    Shifts c s (s'.popNextTaskletBlocked d c).1 := by
  unfold popNextTaskletBlocked
  split
  · next first _ => exact before.removed first
  · exact before

/-- A tasklet is blocked on `c`, which is not closing. -/
theorem block (before : Shifts c s s') (t : TaskletId) (opened : (s.channels c).closing = false) :
    Shifts c s (s'.modifyTasklet t (.block c)) where
  flags := before.flags
  balance := before.balance
  blocks := fun u c' waits => by
    by_cases same : u = t
    · subst same
      simp only [modifyTasklet_tasklets, Function.update_self, Tasklet.waitsOn,
        Tasklet.block_blocked, Tasklet.block_channelBlockedOn, if_true, Option.some.injEq] at waits
      exact .inr (waits ▸ opened)
    · exact before.blocks u c' (by simpa [same] using waits)

/-- `Channel::UpdateCloseState` settles the channel. -/
theorem settles (before : Shifts c s s') : Settles s (s'.updateCloseState c) where
  follows := fun c' => by
    obtain ⟨closing, closed⟩ := before.flags c'
    by_cases same : c' = c
    · subst same
      unfold updateCloseState
      rw [modifyChannel_channels, Function.update_self]
      split
      · next recomputed =>
          refine ⟨closing, .inr ?_⟩
          rw [← closing, recomputed, Bool.or_true]
      · next kept =>
          refine ⟨closing, .inr ?_⟩
          rw [← closing, eq_false_of_ne_true kept, Bool.or_false, closed]
    · unfold updateCloseState
      rw [modifyChannel_channels, Function.update_of_ne same]
      exact ⟨closing, .inl ⟨closed, before.balance c' same⟩⟩
  blocks := before.blocks

end Shifts

namespace Settles

/-- A shift that changes no balance. -/
theorem of_shifts (before : Shifts c s s')
    (balance : (s'.channels c).balance = (s.channels c).balance) : Settles s s' where
  follows := fun c' => by
    obtain ⟨closing, closed⟩ := before.flags c'
    refine ⟨closing, .inl ⟨closed, ?_⟩⟩
    by_cases same : c' = c
    · rw [same, balance]
    · exact before.balance c' same
  blocks := before.blocks

theorem of_spares (spared : Spares s s') : Settles s s' where
  follows := fun c => by
    rw [spared.channels]
    exact ⟨rfl, .inl ⟨rfl, rfl⟩⟩
  blocks := spared.blocksOpen

theorem spared (before : Settles s s') (spared : s'.Spares s'') : Settles s s'' where
  follows := fun c => by
    rw [spared.channels]
    exact before.follows c
  blocks := before.blocks.spared spared

/-- Recomputing the flag once more changes nothing about that. -/
theorem updateCloseState (before : Settles s s') (c : ChannelId) :
    Settles s (s'.updateCloseState c) where
  follows := fun c' => by
    obtain ⟨closing, closed⟩ := before.follows c'
    by_cases same : c' = c
    · subst same
      unfold State.updateCloseState
      rw [modifyChannel_channels, Function.update_self]
      split
      · next recomputed =>
          refine ⟨closing, .inr ?_⟩
          rw [← closing, recomputed, Bool.or_true]
      · next kept => exact ⟨closing, closed⟩
    · unfold State.updateCloseState
      rw [modifyChannel_channels, Function.update_of_ne same]
      exact ⟨closing, closed⟩
  blocks := before.blocks

end Settles

end State

/-! ## The channel operations -/

/-- At most the balance of `c` changed of what the close states depend on. -/
def Shifts (c : ChannelId) (k k' : Config ν) : Prop := k.state.Shifts c k'.state

/-- The close state of every channel follows its balance. -/
def Settles (k k' : Config ν) : Prop := k.state.Settles k'.state

variable {k k' k'' : Config ν} {c : ChannelId}

theorem Spares.settles (spared : Spares k k') : Settles k k' :=
  State.Settles.of_spares spared

theorem Settles.spared (before : Settles k k') (spared : Spares k' k'') : Settles k k'' :=
  State.Settles.spared before spared

theorem Settles.updateCloseState (before : Settles k k') (c : ChannelId) :
    Settles k (k'.withState (k'.state.updateCloseState c)) :=
  State.Settles.updateCloseState before c

theorem Spares.shifts (spared : Spares k k') (c : ChannelId) : Shifts c k k' :=
  (State.Shifts.refl k.state c).spared spared

theorem Shifts.spared (before : Shifts c k k') (spared : Spares k' k'') : Shifts c k k'' :=
  State.Shifts.spared before spared

theorem Shifts.modifyTasklet (before : Shifts c k k') (t : TaskletId)
    (change : Tasklet ν → Tasklet ν) (frees : Frees change) :
    Shifts c k (k'.modifyTasklet t change) :=
  before.spared ((Spares.refl k').modifyTasklet t change frees)

theorem Shifts.unblock (before : Shifts c k k') (t : TaskletId) :
    Shifts c k (k'.modifyTasklet t .unblock) :=
  before.modifyTasklet t .unblock fun _ => .inr rfl

theorem Shifts.removed (before : Shifts c k k') (t : TaskletId) :
    Shifts c k (k'.withState (k'.state.removeTaskletFromBlocked c t)) :=
  State.Shifts.removed before t

theorem Shifts.popped (before : Shifts c k k') {d : ChannelDirection} {s : State ν}
    {next : Option TaskletId} (found : k'.state.popNextTaskletBlocked d c = (s, next)) :
    Shifts c k (k'.withState s) := by
  have popped := State.Shifts.popped before d
  rw [found] at popped
  exact popped

theorem Shifts.block (before : Shifts c k k') (t : TaskletId)
    (opened : (k.state.channels c).closing = false) :
    Shifts c k (k'.modifyTasklet t (.block c)) :=
  State.Shifts.block before t opened

theorem Shifts.settles (before : Shifts c k k') :
    Settles k (k'.withState (k'.state.updateCloseState c)) :=
  State.Shifts.settles before

namespace Settles

/-- Switching and scheduling after a settled change. -/
theorem schedule (before : Settles k k') (position : RescheduleType) (remove : Bool) :
    Settles k (k'.schedule position remove) :=
  before.spared ((Spares.refl k').schedule position remove)

theorem modifyTasklet (before : Settles k k') (t : TaskletId) (change : Tasklet ν → Tasklet ν)
    (frees : Frees change) :
    Settles k (k'.modifyTasklet t change) :=
  before.spared ((Spares.refl k').modifyTasklet t change frees)

/-- The end of `Channel::Send`. -/
theorem sendDone (before : Settles k k') (c : ChannelId) (current : TaskletId) :
    Settles k (k'.sendDone c current) :=
  (before.modifyTasklet current (.setTransferInProgress false) fun _ => .inl rfl).updateCloseState c

/-- A channel operation that fails. -/
theorem failCall (before : Settles k k') (t : TaskletId) : Settles k (k'.failCall t) := before

theorem refuseCall (before : Settles k k') (t : TaskletId) (error : SchedulerError) :
    Settles k (k'.refuseCall t error) := before

/-- The end of `Channel::Receive`. -/
theorem receiveDone (before : Settles k k') (c : ChannelId) (current : TaskletId) :
    Settles k (k'.receiveDone c current) := by
  have cleared := (before.modifyTasklet current (.setTransferInProgress false)
    fun _ => .inl rfl).modifyTasklet
    current .clearTransferArguments fun _ => .inl rfl
  have settled := cleared.updateCloseState c
  unfold Config.receiveDone
  dsimp only
  split
  · exact settled
  · exact cleared
  · exact settled
  · exact cleared

/-- An insertion into the run queue and what follows it. -/
theorem afterInsert (before : Settles k k') {t : TaskletId} {next : Config ν → Config ν}
    (goes : ∀ k'', Settles k k'' → Settles k (next k'')) :
    Settles k (k'.afterInsert (k'.state.insertTasklet t) next) := by
  unfold Config.afterInsert
  split
  · next s' done => exact goes _ (before.spared (State.insertTasklet_spares done))
  · exact before

/-- `Channel::Send` to a waiting receiver, after the transfer. -/
theorem resumeReceiver (before : Settles k k') (c : ChannelId) (current receiving : TaskletId) :
    Settles k (k'.resumeReceiver c current receiving) := by
  unfold Config.resumeReceiver
  split
  · have inserted := (Spares.refl k').withState
      (State.insertTaskletToRunNext_spares k'.state receiving)
    exact (before.spared (inserted.push _)).schedule _ _
  · exact before.afterInsert fun k'' inserted => inserted.sendDone c current

/-- `Channel::Receive` from a waiting sender, after the transfer. -/
theorem resumeSender (before : Settles k k') (c : ChannelId) (current sending : TaskletId) :
    Settles k (k'.resumeSender c current sending) := by
  unfold Config.resumeSender
  split
  · have inserted := (Spares.refl k').withState
      (State.insertTaskletToRunNext_spares k'.state sending)
    exact (before.spared (inserted.push _)).schedule _ _
  · exact before.afterInsert fun k'' inserted => inserted.receiveDone c current

end Settles

/-- The failure of the blocked path of `Channel::Send`. -/
theorem Spares.sendFailed (before : Spares k k') (c : ChannelId) (current : TaskletId) :
    Settles k (k'.sendFailed c current) := by
  have removed := ((before.modifyTasklet current (.setTransferInProgress false)
    fun _ => .inl rfl).shifts c).removed
    current
  exact ((removed.modifyTasklet current .clearTransferArguments
    fun _ => .inl rfl).unblock current).settles

/-- The failure of the blocked path of `Channel::Receive`. -/
theorem Spares.receiveFailed (before : Spares k k') (c : ChannelId) (current : TaskletId) :
    Settles k (k'.receiveFailed c current) := by
  have removed := ((before.shifts c).removed current).unblock current
  exact ((removed.modifyTasklet current (.setTransferInProgress false)
    fun _ => .inl rfl).modifyTasklet current
    .clearTransferArguments fun _ => .inl rfl).settles

/-- `Channel::Send` without a waiting receiver blocks on a channel that is not
closing. -/
theorem Spares.sendBlocks (before : Spares k k') (c : ChannelId) (current : TaskletId)
    (message : Message ν) : Settles k (k'.sendBlocks c current message) := by
  unfold Config.sendBlocks
  split
  · exact before.settles
  split
  · exact before.settles
  next opened =>
    have listed : Shifts c k (k'.withState (k'.state.addTaskletToWaitingToSend c current)) :=
      State.Shifts.relisted (before.shifts c)
        (State.addTaskletToWaitingToSend_eraseBlockedLists _ c current)
        fun c' other => State.addTaskletToWaitingToSend_balance _ current other
    have closing : (k.state.channels c).closing = false := by
      rw [← before.channels]
      simp only [Bool.or_eq_true, not_or, Bool.not_eq_true] at opened
      exact opened.2
    have settled := (listed.block current closing).settles
    exact (settled.modifyTasklet current (.setTransferArguments message.arguments
      message.exception message.restore) fun _ => .inl rfl).spared (((Spares.refl _).push _).yield)

/-- `Channel::Receive` without a waiting sender blocks on a channel that is not
closing.  A refused receive takes back what it added. -/
theorem Spares.receiveBlocks (before : Spares k k') (c : ChannelId) (current : TaskletId) :
    Settles k (k'.receiveBlocks c current) := by
  have listed : Shifts c k (k'.withState (k'.state.addTaskletToWaitingToReceive c current)) :=
    State.Shifts.relisted (before.shifts c)
      (State.addTaskletToWaitingToReceive_eraseBlockedLists _ c current)
      fun c' other =>
        (State.addTaskletToWaitingToReceive_balance _ c current c').trans (if_neg other)
  have refused : ∀ error, Settles k ((k'.withState
      (k'.state.addTaskletToWaitingToReceive c current)).refuseReceive c current error) := by
    intro error
    have balance : (((k'.state.addTaskletToWaitingToReceive c current).removeTaskletFromBlocked c
        current).channels c).balance = (k.state.channels c).balance := by
      rw [State.removeTaskletFromBlocked_balance, if_pos rfl,
        State.addTaskletToWaitingToReceive_balance, if_pos rfl,
        State.addTaskletToWaitingToReceive_blockedDirection, before.channels]
      simp [ChannelDirection.weight]
    have back := State.Settles.of_shifts (listed.removed current) balance
    exact Settles.modifyTasklet back current (.setTransferInProgress false) fun _ => .inl rfl
  unfold Config.receiveBlocks
  dsimp only
  split
  · exact refused _
  split
  · exact refused _
  next opened =>
    have closing : (k.state.channels c).closing = false := by
      rw [← (listed.flags c).closing]
      simp only [Bool.or_eq_true, not_or, Bool.not_eq_true] at opened
      exact opened.2
    have settled := (listed.block current closing).settles
    exact settled.spared (((Spares.refl _).push _).yield)

/-- `Channel::Send`. -/
theorem Settles.send (k : Config ν) (c : ChannelId) (message : Message ν) :
    Settles k (k.send c message) := by
  have called : Spares k (k.recordCall c (.send message)) := (Spares.refl k).goesOn rfl rfl
  have begun := called.modifyTasklet k.state.currentTasklet (.setTransferInProgress true)
    fun _ => .inl rfl
  unfold Config.send State.popNextTaskletBlockedOnReceive
  dsimp only
  split
  · exact Spares.sendBlocks begun c _ message
  · next s receiving found =>
      have popped := (begun.shifts c).popped found
      refine Settles.resumeReceiver ?_ c _ receiving
      exact ((popped.unblock receiving).modifyTasklet receiving (.setTransferArguments
        message.arguments message.exception message.restore) fun _ => .inl rfl).settles

/-- `Channel::Receive`, unless it dereferences the missing arguments of a sender. -/
theorem Settles.receive (k : Config ν) (c : ChannelId) :
    ((k.receive c).control = .crashed ∧ k.state.BlocksOpen (k.receive c).state) ∨
      Settles k (k.receive c) := by
  have called : Spares k (k.recordCall c .receive) := (Spares.refl k).goesOn rfl rfl
  have begun := called.modifyTasklet k.state.currentTasklet (.setTransferInProgress true)
    fun _ => .inl rfl
  unfold Config.receive State.popNextTaskletBlockedOnSend
  dsimp only
  split
  · exact .inr (Spares.receiveBlocks begun c _)
  · next s sending found =>
      have popped := (begun.shifts c).popped found
      have woken := (popped.unblock sending).modifyTasklet sending
        (.setTransferInProgress false) fun _ => .inl rfl
      unfold Config.receiveFrom
      dsimp only
      split
      · exact .inl ⟨rfl, woken.blocks⟩
      · refine .inr (Settles.resumeSender ?_ c _ sending)
        exact ((woken.modifyTasklet _ (.setTransferArguments _ _ _)
          fun _ => .inl rfl).modifyTasklet sending
          .clearTransferArguments fun _ => .inl rfl).settles

end CarbonLab.Scheduler
