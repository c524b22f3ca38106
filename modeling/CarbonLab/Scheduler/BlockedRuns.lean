import CarbonLab.Scheduler.BlockedLinks

/-!
# Runs of blocked-list operations

Any sequence of adds, pops and removals keeps every channel's pointers a
representation of the lists that the same sequence builds by appending, taking
the first element and deleting one element.
-/

namespace CarbonLab.Scheduler

open LinkedList State

variable {ν : Type}

/-- The operations on the blocked lists of a channel. -/
inductive BlockedOp where
  | addToSend (c : ChannelId) (t : TaskletId)
  | addToReceive (c : ChannelId) (t : TaskletId)
  | popSend (c : ChannelId)
  | popReceive (c : ChannelId)
  | remove (c : ChannelId) (t : TaskletId)

namespace BlockedOp

/-- Run one operation, with the tasklet a pop returns. -/
def apply (s : State ν) : BlockedOp → State ν × Option TaskletId
  | addToSend c t => (s.addTaskletToWaitingToSend c t, none)
  | addToReceive c t => (s.addTaskletToWaitingToReceive c t, none)
  | popSend c => s.popNextTaskletBlockedOnSend c
  | popReceive c => s.popNextTaskletBlockedOnReceive c
  | remove c t => (s.removeTaskletFromBlocked c t, none)

/-- What the operation is meant to do to the lists: append, take the first, or
delete one tasklet and keep the order of the others. -/
def onLists (lists : BlockedLists) : BlockedOp → BlockedLists × Option TaskletId
  | addToSend c t => (lists.set c .sender (lists c .sender ++ [t]), none)
  | addToReceive c t => (lists.set c .receiver (lists c .receiver ++ [t]), none)
  | popSend c => (lists.set c .sender (lists c .sender).tail, (lists c .sender).head?)
  | popReceive c => (lists.set c .receiver (lists c .receiver).tail, (lists c .receiver).head?)
  | remove c t => (fun c' d => if c' = c then (lists c' d).erase t else lists c' d, none)

/-- Only tasklets on no list are added; those removed are on a list of the
channel or on no list. -/
def Allowed (s : State ν) : BlockedOp → Prop
  | addToSend _ t | addToReceive _ t => ∀ c d, ¬ s.OnBlockedList c d t
  | popSend _ | popReceive _ => True
  | remove c t => (∃ d, s.OnBlockedList c d t) ∨ ∀ c d, ¬ s.OnBlockedList c d t

/-- A tasklet is added to one list only while the opposite list is empty. -/
def Opposite (s : State ν) : BlockedOp → Prop
  | addToSend c _ => ∀ t, ¬ s.OnBlockedList c .receiver t
  | addToReceive c _ => ∀ t, ¬ s.OnBlockedList c .sender t
  | popSend _ | popReceive _ | remove _ _ => True

/-- Run operations in order, collecting what each returned. -/
def run (s : State ν) : List BlockedOp → State ν × List (Option TaskletId)
  | [] => (s, [])
  | op :: ops => ((run (op.apply s).1 ops).1, (op.apply s).2 :: (run (op.apply s).1 ops).2)

/-- The meaning of operations in order, collecting what each should return. -/
def runOnLists (lists : BlockedLists) : List BlockedOp → BlockedLists × List (Option TaskletId)
  | [] => (lists, [])
  | op :: ops =>
      ((runOnLists (op.onLists lists).1 ops).1,
        (op.onLists lists).2 :: (runOnLists (op.onLists lists).1 ops).2)

/-- Every operation of a run satisfies a condition on the state it is run in. -/
def Along (condition : State ν → BlockedOp → Prop) (s : State ν) : List BlockedOp → Prop
  | [] => True
  | op :: ops => condition s op ∧ Along condition (op.apply s).1 ops

/-- One allowed operation does to the represented lists what it is meant to. -/
theorem apply_rep {s : State ν} {lists : BlockedLists} (rep : BlockedRep s lists)
    {op : BlockedOp} (allowed : op.Allowed s) :
    BlockedRep (op.apply s).1 (op.onLists lists).1 ∧ (op.apply s).2 = (op.onLists lists).2 := by
  cases op with
  | addToSend c t =>
      simp only [Allowed, rep.onBlockedList_iff] at allowed
      exact ⟨rep.addTaskletToWaitingToSend c allowed, rfl⟩
  | addToReceive c t =>
      simp only [Allowed, rep.onBlockedList_iff] at allowed
      exact ⟨rep.addTaskletToWaitingToReceive c allowed, rfl⟩
  | popSend c => exact rep.popNextTaskletBlocked .sender c
  | popReceive c => exact rep.popNextTaskletBlocked .receiver c
  | remove c t =>
      simp only [Allowed, rep.onBlockedList_iff] at allowed
      refine ⟨?_, rfl⟩
      change BlockedRep (s.removeTaskletFromBlocked c t) fun c' d =>
        if c' = c then (lists c' d).erase t else lists c' d
      rcases allowed with ⟨d, member⟩ | unlisted
      · have removed := rep.removeTaskletFromBlocked member
        convert removed using 3 with c' d'
        rw [BlockedLists.set_apply]
        by_cases sameChannel : c' = c
        · subst sameChannel
          by_cases sameSide : d' = d
          · simp [sameSide]
          · have absent : t ∉ lists c' d' := fun other =>
              sameSide (rep.disjoint c' c' d' d t other member).2
            simp [sameSide, List.erase_of_not_mem absent]
        · simp [sameChannel]
      · rw [rep.removeTaskletFromBlocked_unlisted c unlisted]
        convert rep using 3 with c' d'
        simp [List.erase_of_not_mem (unlisted c' d')]

/-- One operation keeps at most one list of each channel nonempty. -/
theorem onLists_one_sided {s : State ν} {lists : BlockedLists} (rep : BlockedRep s lists)
    {op : BlockedOp} (opposite : op.Opposite s)
    (oneSided : ∀ c, lists c .sender = [] ∨ lists c .receiver = []) (c : ChannelId) :
    (op.onLists lists).1 c .sender = [] ∨ (op.onLists lists).1 c .receiver = [] := by
  have before := oneSided c
  cases op with
  | addToSend c' t =>
      have empty : lists c' .receiver = [] := List.eq_nil_iff_forall_not_mem.mpr fun t member =>
        opposite t ((rep.onBlockedList_iff _ _ _).mpr member)
      by_cases same : c = c'
      · subst same
        simp [onLists, BlockedLists.set_apply, empty]
      · simpa [onLists, BlockedLists.set_apply, same] using before
  | addToReceive c' t =>
      have empty : lists c' .sender = [] := List.eq_nil_iff_forall_not_mem.mpr fun t member =>
        opposite t ((rep.onBlockedList_iff _ _ _).mpr member)
      by_cases same : c = c'
      · subst same
        simp [onLists, BlockedLists.set_apply, empty]
      · simpa [onLists, BlockedLists.set_apply, same] using before
  | popSend c' =>
      by_cases same : c = c'
      · subst same
        rcases before with empty | empty <;> simp [onLists, BlockedLists.set_apply, empty]
      · simpa [onLists, BlockedLists.set_apply, same] using before
  | popReceive c' =>
      by_cases same : c = c'
      · subst same
        rcases before with empty | empty <;> simp [onLists, BlockedLists.set_apply, empty]
      · simpa [onLists, BlockedLists.set_apply, same] using before
  | remove c' t =>
      by_cases same : c = c'
      · subst same
        rcases before with empty | empty <;> simp [onLists, empty]
      · simpa [onLists, same] using before

/-- A run of allowed operations does to the represented lists what it is meant
to. -/
theorem run_rep (ops : List BlockedOp) {s : State ν} {lists : BlockedLists}
    (rep : BlockedRep s lists) (allowed : Along Allowed s ops) :
    BlockedRep (run s ops).1 (runOnLists lists ops).1 ∧
      (run s ops).2 = (runOnLists lists ops).2 := by
  induction ops generalizing s lists with
  | nil => exact ⟨rep, rfl⟩
  | cons op ops ih =>
      obtain ⟨stepRep, returned⟩ := apply_rep rep allowed.1
      obtain ⟨restRep, restReturned⟩ := ih stepRep allowed.2
      exact ⟨restRep, by rw [run, runOnLists, returned, restReturned]⟩

/-- A run whose adds are opposite to an empty list keeps at most one list of
each channel nonempty. -/
theorem runOnLists_one_sided (ops : List BlockedOp) {s : State ν} {lists : BlockedLists}
    (rep : BlockedRep s lists) (allowed : Along Allowed s ops) (opposite : Along Opposite s ops)
    (oneSided : ∀ c, lists c .sender = [] ∨ lists c .receiver = []) (c : ChannelId) :
    (runOnLists lists ops).1 c .sender = [] ∨ (runOnLists lists ops).1 c .receiver = [] := by
  induction ops generalizing s lists with
  | nil => exact oneSided c
  | cons op ops ih =>
      exact ih (apply_rep rep allowed.1).1 allowed.2 opposite.2
        (onLists_one_sided rep opposite.1 oneSided)

end BlockedOp

/-- No tasklet is blocked: all blocked-list fields are as constructed. -/
def State.NoneBlocked (s : State ν) : Prop :=
  (∀ t, (s.tasklets t).nextBlocked = none ∧ (s.tasklets t).previousBlocked = none ∧
    (s.tasklets t).blockedDirection = .neither) ∧
  ∀ c, (s.channels c).blockedOnSend = {} ∧ (s.channels c).blockedOnReceive = {} ∧
    (s.channels c).balance = 0

theorem State.NoneBlocked.rep {s : State ν} (start : s.NoneBlocked) :
    BlockedRep s fun _ _ => [] where
  segment _ _ := trivial
  first c d := by cases d <;> simp [Channel.ends, start.2 c]
  last c d := by cases d <;> simp [Channel.ends, start.2 c]
  nodup _ _ := List.nodup_nil
  direction _ _ _ member := by cases member
  disjoint _ _ _ _ _ member := by cases member
  unlisted t _ := start.1 t
  balance c := by simp [start.2 c]
  neither _ := rfl


/-- **Blocked lists are lists.** From a state with nobody blocked, any run of
allowed operations leaves pointers, directions and balances that represent the
lists built by appending, taking the first and deleting one; pops return the
members in insertion order, and removing a tasklet that is on no list changes
nothing.  If tasklets are added only while the opposite list is empty, at most
one list of a channel is nonempty and the balance counts its members. -/
theorem blockedRun_represents (s : State ν) (start : s.NoneBlocked) (ops : List BlockedOp)
    (allowed : BlockedOp.Along BlockedOp.Allowed s ops) :
    BlockedRep (BlockedOp.run s ops).1 (BlockedOp.runOnLists (fun _ _ => []) ops).1 ∧
      (BlockedOp.run s ops).2 = (BlockedOp.runOnLists (fun _ _ => []) ops).2 ∧
      (∀ c t, (∀ c' d, ¬ (BlockedOp.run s ops).1.OnBlockedList c' d t) →
        (BlockedOp.run s ops).1.removeTaskletFromBlocked c t = (BlockedOp.run s ops).1) ∧
      (BlockedOp.Along BlockedOp.Opposite s ops → ∀ c,
        ((BlockedOp.runOnLists (fun _ _ => []) ops).1 c .sender = [] ∨
          (BlockedOp.runOnLists (fun _ _ => []) ops).1 c .receiver = []) ∧
        ((BlockedOp.run s ops).1.channels c).balance.natAbs =
          ((BlockedOp.runOnLists (fun _ _ => []) ops).1 c .sender).length +
            ((BlockedOp.runOnLists (fun _ _ => []) ops).1 c .receiver).length) := by
  obtain ⟨rep, returned⟩ := BlockedOp.run_rep ops start.rep allowed
  refine ⟨rep, returned, ?_, ?_⟩
  · intro c t nowhere
    simp only [rep.onBlockedList_iff] at nowhere
    exact rep.removeTaskletFromBlocked_unlisted c nowhere
  · intro opposite c
    have oneSided := BlockedOp.runOnLists_one_sided ops start.rep allowed opposite
      (fun _ => .inl rfl) c
    refine ⟨oneSided, ?_⟩
    rw [rep.balance]
    rcases oneSided with empty | empty <;> rw [empty] <;> simp

/-- Two senders queue up on a fresh channel, the first gives up and the second
is popped. -/
theorem blockedRun_represents_two_senders :
    (BlockedOp.run (State.initial (ν := Unit) fun _ => 0)
        [.addToSend 7 1, .addToSend 7 2, .remove 7 1, .popSend 7]).2 =
      [none, none, none, some 2] := by
  have start : (State.initial (ν := Unit) fun _ => 0).NoneBlocked := by
    refine ⟨fun t => ?_, fun c => ⟨rfl, rfl, rfl⟩⟩
    by_cases main : t = mainTasklet <;> simp [State.initial, Tasklet.main, main]
  have rep := start.rep
  have allowedOne : (BlockedOp.addToSend 7 1).Allowed (State.initial (ν := Unit) fun _ => 0) := by
    simp [BlockedOp.Allowed, rep.onBlockedList_iff]
  have one := (BlockedOp.apply_rep rep allowedOne).1
  have allowedTwo : (BlockedOp.addToSend 7 2).Allowed
      ((BlockedOp.addToSend 7 1).apply (State.initial (ν := Unit) fun _ => 0)).1 := by
    simp only [BlockedOp.Allowed, one.onBlockedList_iff, BlockedOp.onLists, BlockedLists.set_apply]
    intro c d
    split <;> simp
  have two := (BlockedOp.apply_rep one allowedTwo).1
  have allowed : BlockedOp.Along BlockedOp.Allowed (State.initial (ν := Unit) fun _ => 0)
      [.addToSend 7 1, .addToSend 7 2, .remove 7 1, .popSend 7] := by
    refine ⟨allowedOne, allowedTwo, .inl ⟨.sender, ?_⟩, trivial, trivial⟩
    rw [two.onBlockedList_iff]
    simp [BlockedOp.onLists, BlockedLists.set_apply]
  exact (blockedRun_represents _ start _ allowed).2.1

end CarbonLab.Scheduler
