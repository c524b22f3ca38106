import CarbonLab.Lib.LinkedList
import CarbonLab.Scheduler.State

/-!
# The blocked lists of channels

Each channel threads the tasklets blocked on it into two intrusive lists, one of
senders and one of receivers, through the same pair of fields of the tasklets.
-/

namespace CarbonLab.Scheduler

open LinkedList

variable {ν : Type}

namespace State

/-- Move the first pointer of a blocked list. -/
def setFirstBlocked (s : State ν) (c : ChannelId) (d : ChannelDirection)
    (t : Option TaskletId) : State ν :=
  s.modifyChannel c fun channel => channel.setEnds d { channel.ends d with first := t }

/-- Move the last pointer of a blocked list. -/
def setLastBlocked (s : State ν) (c : ChannelId) (d : ChannelDirection)
    (t : Option TaskletId) : State ν :=
  s.modifyChannel c fun channel => channel.setEnds d { channel.ends d with last := t }

/-- `Channel::IncrementBalance`. -/
def incrementBalance (s : State ν) (c : ChannelId) : State ν :=
  s.modifyChannel c fun channel => { channel with balance := channel.balance + 1 }

/-- `Channel::DecrementBalance`. -/
def decrementBalance (s : State ν) (c : ChannelId) : State ν :=
  s.modifyChannel c fun channel => { channel with balance := channel.balance - 1 }

/-- The part of `RemoveTaskletFromBlocked` for a tasklet that is the last node of
the list of one direction, with whether it was. -/
def detachLast (s : State ν) (d : ChannelDirection) (c : ChannelId) (t : TaskletId) :
    State ν × Bool :=
  if ((s.channels c).ends d).last = some t then
    let last := (s.tasklets t).nextBlocked
    ((s.setLastBlocked c d last).modifyTasklet? last
      fun tasklet => { tasklet with previousBlocked := none }, true)
  else
    (s, false)

/-- The part of `RemoveTaskletFromBlocked` for a tasklet that is the first node of
the list of one direction, with whether it was. -/
def detachFirst (s : State ν) (d : ChannelDirection) (c : ChannelId) (t : TaskletId) :
    State ν × Bool :=
  if ((s.channels c).ends d).first = some t then
    let first := (s.tasklets t).previousBlocked
    ((s.setFirstBlocked c d first).modifyTasklet? first
      fun tasklet => { tasklet with nextBlocked := none }, true)
  else
    (s, false)

/-- The part of `RemoveTaskletFromBlocked` for a tasklet at neither end of a
list. -/
def detachMiddle (s : State ν) (t : TaskletId) : State ν :=
  let s := s.modifyTasklet? (s.tasklets t).previousBlocked
    fun tasklet => { tasklet with nextBlocked := (s.tasklets t).nextBlocked }
  s.modifyTasklet? (s.tasklets t).nextBlocked
    fun tasklet => { tasklet with previousBlocked := (s.tasklets t).previousBlocked }

/-- The four end-node cases of `RemoveTaskletFromBlocked`, with whether one of
them applied. -/
def detachEnds (s : State ν) (c : ChannelId) (t : TaskletId) : State ν × Bool :=
  let (s, lastReceive) := s.detachLast .receiver c t
  let (s, lastSend) := s.detachLast .sender c t
  let (s, firstReceive) := s.detachFirst .receiver c t
  let (s, firstSend) := s.detachFirst .sender c t
  (s, lastReceive || lastSend || firstReceive || firstSend)

/-- The end of `RemoveTaskletFromBlocked`: clear the tasklet's links and account
for it in the balance. -/
def clearBlockedFields (s : State ν) (c : ChannelId) (t : TaskletId) : State ν :=
  let s := s.modifyTasklet t
    fun tasklet => { tasklet with nextBlocked := none, previousBlocked := none }
  let s := match (s.tasklets t).blockedDirection with
    | .sender => s.decrementBalance c
    | .receiver => s.incrementBalance c
    | .neither => s
  s.modifyTasklet t fun tasklet => { tasklet with blockedDirection := .neither }

/-- `Channel::RemoveTaskletFromBlocked`. -/
def removeTaskletFromBlocked (s : State ν) (c : ChannelId) (t : TaskletId) : State ν :=
  let (s, endNode) := s.detachEnds c t
  let s := if endNode then s else s.detachMiddle t
  s.clearBlockedFields c t

/-- `Channel::AddTaskletToWaitingToSend` and `AddTaskletToWaitingToReceive`, the
same but for the list and the sign of the balance. -/
def addTaskletToWaiting (s : State ν) (d : ChannelDirection) (c : ChannelId) (t : TaskletId) :
    State ν :=
  let s := match ((s.channels c).ends d).last with
    | none => (s.setLastBlocked c d (some t)).setFirstBlocked c d (some t)
    | some last =>
        let s := s.modifyTasklet last fun tasklet => { tasklet with previousBlocked := some t }
        let s := s.modifyTasklet t fun tasklet => { tasklet with nextBlocked := some last }
        s.setLastBlocked c d (some t)
  s.modifyTasklet t fun tasklet => { tasklet with blockedDirection := d }

/-- `Channel::AddTaskletToWaitingToSend`. -/
def addTaskletToWaitingToSend (s : State ν) (c : ChannelId) (t : TaskletId) : State ν :=
  (s.addTaskletToWaiting .sender c t).incrementBalance c

/-- `Channel::AddTaskletToWaitingToReceive`. -/
def addTaskletToWaitingToReceive (s : State ν) (c : ChannelId) (t : TaskletId) : State ν :=
  (s.addTaskletToWaiting .receiver c t).decrementBalance c

/-- `Channel::PopNextTaskletBlockedOnSend` and `PopNextTaskletBlockedOnReceive`,
the same but for the list. -/
def popNextTaskletBlocked (s : State ν) (d : ChannelDirection) (c : ChannelId) :
    State ν × Option TaskletId :=
  match ((s.channels c).ends d).first with
  | some next => (s.removeTaskletFromBlocked c next, some next)
  | none => (s, none)

/-- `Channel::PopNextTaskletBlockedOnSend`. -/
def popNextTaskletBlockedOnSend (s : State ν) (c : ChannelId) : State ν × Option TaskletId :=
  s.popNextTaskletBlocked .sender c

/-- `Channel::PopNextTaskletBlockedOnReceive`. -/
def popNextTaskletBlockedOnReceive (s : State ν) (c : ChannelId) : State ν × Option TaskletId :=
  s.popNextTaskletBlocked .receiver c

/-- A tasklet is on the blocked list of a channel and direction: following the
pointers from the first node meets it. -/
def OnBlockedList (s : State ν) (c : ChannelId) (d : ChannelDirection) (t : TaskletId) : Prop :=
  OnList (fun u => (s.tasklets u).previousBlocked) ((s.channels c).ends d).first t

end State

/-- The blocked lists of all channels, first node first. -/
abbrev BlockedLists := ChannelId → ChannelDirection → List TaskletId

/-- The pointers, directions and balances of a state represent the given blocked
lists. -/
structure BlockedRep (s : State ν) (lists : BlockedLists) : Prop where
  segment : ∀ c d, Segment (fun t => (s.tasklets t).previousBlocked)
    (fun t => (s.tasklets t).nextBlocked) none (lists c d) none
  first : ∀ c d, ((s.channels c).ends d).first = (lists c d).head?
  last : ∀ c d, ((s.channels c).ends d).last = (lists c d).getLast?
  nodup : ∀ c d, (lists c d).Nodup
  direction : ∀ c d, ∀ t ∈ lists c d, (s.tasklets t).blockedDirection = d
  disjoint : ∀ c c' d d' t, t ∈ lists c d → t ∈ lists c' d' → c = c' ∧ d = d'
  unlisted : ∀ t, (∀ c d, t ∉ lists c d) →
    (s.tasklets t).nextBlocked = none ∧ (s.tasklets t).previousBlocked = none ∧
      (s.tasklets t).blockedDirection = .neither
  balance : ∀ c, (s.channels c).balance =
    ((lists c .sender).length : Int) - (lists c .receiver).length
  neither : ∀ c, lists c .neither = []

namespace BlockedRep

variable {s : State ν} {lists : BlockedLists}

/-- Membership by following pointers is membership in the represented list. -/
theorem onBlockedList_iff (rep : BlockedRep s lists) (c : ChannelId) (d : ChannelDirection)
    (t : TaskletId) : s.OnBlockedList c d t ↔ t ∈ lists c d := by
  rw [State.OnBlockedList, rep.first]
  exact (rep.segment c d).onList_iff t

/-- The represented lists are determined by the state. -/
theorem unique {lists' : BlockedLists} (rep : BlockedRep s lists) (rep' : BlockedRep s lists') :
    lists = lists' := by
  funext c d
  exact (rep.segment c d).unique (rep'.segment c d) (by rw [← rep.first, ← rep'.first])

end BlockedRep

/-- The lists with one of them replaced. -/
def BlockedLists.set (lists : BlockedLists) (c : ChannelId) (d : ChannelDirection)
    (nodes : List TaskletId) : BlockedLists :=
  Function.update lists c (Function.update (lists c) d nodes)

theorem BlockedLists.set_apply (lists : BlockedLists) (c c' : ChannelId)
    (d d' : ChannelDirection) (nodes : List TaskletId) :
    lists.set c d nodes c' d' = if c' = c ∧ d' = d then nodes else lists c' d' := by
  by_cases sameChannel : c' = c
  · subst sameChannel
    by_cases sameSide : d' = d
    · subst sameSide
      simp [BlockedLists.set]
    · simp [BlockedLists.set, sameSide]
  · simp [BlockedLists.set, sameChannel]

/-! ## What the operations leave alone -/

/-- The tasklet without its blocked-list fields. -/
def Tasklet.eraseBlockedLinks (tasklet : Tasklet ν) : Tasklet ν :=
  { tasklet with nextBlocked := none, previousBlocked := none, blockedDirection := .neither }

/-- The channel without its blocked lists and balance. -/
def Channel.eraseBlocked (channel : Channel) : Channel :=
  { channel with balance := 0, blockedOnSend := {}, blockedOnReceive := {} }

/-- The state without the blocked lists of its channels. -/
def State.eraseBlockedLists (s : State ν) : State ν :=
  { s with
    tasklets := fun t => (s.tasklets t).eraseBlockedLinks
    channels := fun c => (s.channels c).eraseBlocked }

namespace State

theorem modifyTasklet_eraseBlockedLists (s : State ν) (t : TaskletId)
    {change : Tasklet ν → Tasklet ν}
    (keeps : ∀ tasklet, (change tasklet).eraseBlockedLinks = tasklet.eraseBlockedLinks) :
    (s.modifyTasklet t change).eraseBlockedLists = s.eraseBlockedLists := by
  have tasklets : (fun u => (Function.update s.tasklets t (change (s.tasklets t)) u).eraseBlockedLinks) =
      fun u => (s.tasklets u).eraseBlockedLinks := by
    funext u
    rw [Function.update_apply]
    split
    · next same => rw [keeps, same]
    · rfl
  simp only [eraseBlockedLists, modifyTasklet, tasklets]

theorem modifyTasklet?_eraseBlockedLists (s : State ν) (t : Option TaskletId)
    {change : Tasklet ν → Tasklet ν}
    (keeps : ∀ tasklet, (change tasklet).eraseBlockedLinks = tasklet.eraseBlockedLinks) :
    (s.modifyTasklet? t change).eraseBlockedLists = s.eraseBlockedLists := by
  cases t with
  | none => rfl
  | some t => exact modifyTasklet_eraseBlockedLists s t keeps

theorem modifyChannel_eraseBlockedLists (s : State ν) (c : ChannelId) {change : Channel → Channel}
    (keeps : ∀ channel, (change channel).eraseBlocked = channel.eraseBlocked) :
    (s.modifyChannel c change).eraseBlockedLists = s.eraseBlockedLists := by
  have channels : (fun u => (Function.update s.channels c (change (s.channels c)) u).eraseBlocked) =
      fun u => (s.channels u).eraseBlocked := by
    funext u
    rw [Function.update_apply]
    split
    · next same => rw [keeps, same]
    · rfl
  simp only [eraseBlockedLists, modifyChannel, channels]

theorem setEnds_eraseBlocked (channel : Channel) (d : ChannelDirection) (ends : BlockedEnds) :
    (channel.setEnds d ends).eraseBlocked = channel.eraseBlocked := by
  cases d <;> rfl

theorem setLastBlocked_eraseBlockedLists (s : State ν) (c : ChannelId) (d : ChannelDirection)
    (last : Option TaskletId) :
    (s.setLastBlocked c d last).eraseBlockedLists = s.eraseBlockedLists :=
  modifyChannel_eraseBlockedLists s c fun channel => setEnds_eraseBlocked channel d _

theorem setFirstBlocked_eraseBlockedLists (s : State ν) (c : ChannelId) (d : ChannelDirection)
    (first : Option TaskletId) :
    (s.setFirstBlocked c d first).eraseBlockedLists = s.eraseBlockedLists :=
  modifyChannel_eraseBlockedLists s c fun channel => setEnds_eraseBlocked channel d _

theorem detachLast_eraseBlockedLists (s : State ν) (d : ChannelDirection) (c : ChannelId)
    (t : TaskletId) : (s.detachLast d c t).1.eraseBlockedLists = s.eraseBlockedLists := by
  unfold detachLast
  split
  · exact (modifyTasklet?_eraseBlockedLists _ _ (by intro; rfl)).trans
      (setLastBlocked_eraseBlockedLists s c d _)
  · rfl

theorem detachFirst_eraseBlockedLists (s : State ν) (d : ChannelDirection) (c : ChannelId)
    (t : TaskletId) : (s.detachFirst d c t).1.eraseBlockedLists = s.eraseBlockedLists := by
  unfold detachFirst
  split
  · exact (modifyTasklet?_eraseBlockedLists _ _ (by intro; rfl)).trans
      (setFirstBlocked_eraseBlockedLists s c d _)
  · rfl

theorem clearBlockedFields_eraseBlockedLists (s : State ν) (c : ChannelId) (t : TaskletId) :
    (s.clearBlockedFields c t).eraseBlockedLists = s.eraseBlockedLists := by
  have links : (s.modifyTasklet t fun tasklet =>
      { tasklet with nextBlocked := none, previousBlocked := none }).eraseBlockedLists =
      s.eraseBlockedLists :=
    modifyTasklet_eraseBlockedLists s t (by intro; rfl)
  unfold clearBlockedFields
  refine (modifyTasklet_eraseBlockedLists _ t (by intro; rfl)).trans ?_
  split
  · exact (modifyChannel_eraseBlockedLists _ c (by intro; rfl)).trans links
  · exact (modifyChannel_eraseBlockedLists _ c (by intro; rfl)).trans links
  · exact links

/-- A removal touches nothing but the blocked lists. -/
theorem removeTaskletFromBlocked_eraseBlockedLists (s : State ν) (c : ChannelId) (t : TaskletId) :
    (s.removeTaskletFromBlocked c t).eraseBlockedLists = s.eraseBlockedLists := by
  have ends : (s.detachEnds c t).1.eraseBlockedLists = s.eraseBlockedLists := by
    simp only [detachEnds, detachFirst_eraseBlockedLists, detachLast_eraseBlockedLists]
  rw [← ends]
  simp only [removeTaskletFromBlocked, clearBlockedFields_eraseBlockedLists]
  split
  · rfl
  · exact (modifyTasklet?_eraseBlockedLists _ _ (by intro; rfl)).trans
      (modifyTasklet?_eraseBlockedLists _ _ (by intro; rfl))

/-- An add touches nothing but the blocked lists. -/
theorem addTaskletToWaiting_eraseBlockedLists (s : State ν) (d : ChannelDirection) (c : ChannelId)
    (t : TaskletId) : (s.addTaskletToWaiting d c t).eraseBlockedLists = s.eraseBlockedLists := by
  unfold addTaskletToWaiting
  refine (modifyTasklet_eraseBlockedLists _ t (by intro; rfl)).trans ?_
  split
  · rw [setFirstBlocked_eraseBlockedLists, setLastBlocked_eraseBlockedLists]
  · rw [setLastBlocked_eraseBlockedLists]
    exact (modifyTasklet_eraseBlockedLists _ t (by intro; rfl)).trans
      (modifyTasklet_eraseBlockedLists s _ (by intro; rfl))

theorem addTaskletToWaitingToSend_eraseBlockedLists (s : State ν) (c : ChannelId) (t : TaskletId) :
    (s.addTaskletToWaitingToSend c t).eraseBlockedLists = s.eraseBlockedLists := by
  refine Eq.trans ?_ (addTaskletToWaiting_eraseBlockedLists s .sender c t)
  unfold addTaskletToWaitingToSend incrementBalance
  exact modifyChannel_eraseBlockedLists _ c (by intro; rfl)

theorem addTaskletToWaitingToReceive_eraseBlockedLists (s : State ν) (c : ChannelId)
    (t : TaskletId) :
    (s.addTaskletToWaitingToReceive c t).eraseBlockedLists = s.eraseBlockedLists := by
  refine Eq.trans ?_ (addTaskletToWaiting_eraseBlockedLists s .receiver c t)
  unfold addTaskletToWaitingToReceive decrementBalance
  exact modifyChannel_eraseBlockedLists _ c (by intro; rfl)

end State

end CarbonLab.Scheduler
