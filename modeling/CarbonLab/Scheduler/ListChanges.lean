import CarbonLab.Scheduler.Orderly

/-!
# Changes of the run queue and of the blocked lists

How the parts of the invariant follow when a tasklet enters or leaves the run
queue or a blocked list.
-/

namespace CarbonLab.Scheduler

variable {ν : Type} {promise : Promise}

/-! ## The run queue -/

/-- What is behind the first occurrence of the head of a sublist. -/
theorem sublist_behind {α : Type*} {a : α} {l front back : List α}
    (sublist : (a :: l).Sublist (front ++ a :: back)) (outside : a ∉ front) : l.Sublist back := by
  induction front with
  | nil => exact List.cons_sublist_cons.mp sublist
  | cons first front ih =>
      rw [List.mem_cons, not_or] at outside
      cases sublist with
      | cons _ sublist => exact ih sublist outside.2
      | cons_cons _ _ => exact absurd rfl outside.1

/-- Where a queued tasklet and the one that follows it stand. -/
theorem QueueRep.split_following {s : State ν} {queue : List TaskletId} (rep : QueueRep s queue)
    {base t : TaskletId} (scheduled : (s.tasklets base).scheduled = true)
    (next : (s.tasklets base).next = some t) :
    ∃ front back, mainTasklet :: queue = front ++ base :: t :: back := by
  obtain ⟨front, back, split⟩ := List.append_of_mem ((rep.scheduled base).mp scheduled)
  have segment := rep.segment
  rw [split] at segment
  have first : back.head? = some t := by
    rw [← next]
    simpa using segment.around.2.symm
  obtain ⟨rest, rfl⟩ := List.head?_eq_some_iff.mp first
  exact ⟨front, rest, split⟩

namespace Queued

variable {s s' : State ν} {chain : List TaskletId}

/-- A scheduled tasklet other than main stands behind another one. -/
theorem behind (queued : Queued promise s chain) {t : TaskletId}
    (scheduled : (s.tasklets t).scheduled = true) (notMain : t ≠ mainTasklet) :
    ∃ base, (s.tasklets t).previous = some base ∧ (s.tasklets base).next = some t := by
  obtain ⟨queue, rep⟩ := queued.rep
  have member : t ∈ queue := by simpa [notMain] using (rep.scheduled t).mp scheduled
  obtain ⟨front, back, before, split, -, isBefore, previous, -⟩ := rep.neighbours member
  obtain ⟨front', whole⟩ := List.getLast?_eq_some_iff.mp isBefore
  have segment := rep.segment
  rw [split, ← List.cons_append, whole, List.append_assoc, List.singleton_append] at segment
  exact ⟨before, previous, segment.around.2⟩

/-- What follows a tasklet is another one, scheduled and not main. -/
theorem follows (queued : Queued promise s chain) {base t : TaskletId}
    (next : (s.tasklets base).next = some t) :
    (s.tasklets t).scheduled = true ∧ t ≠ mainTasklet ∧ t ≠ base := by
  obtain ⟨queue, rep⟩ := queued.rep
  cases scheduled : (s.tasklets base).scheduled with
  | false =>
      rw [(queued.detached base scheduled).1] at next
      cases next
  | true =>
      obtain ⟨front, back, split⟩ := rep.split_following scheduled next
      have nodup := rep.nodup
      rw [split] at nodup
      obtain ⟨-, ⟨⟨notBase, -⟩, -⟩, disjoint⟩ := by simpa [List.nodup_append] using nodup
      refine ⟨by simp [rep.scheduled, split], ?_, Ne.symm notBase⟩
      rintro rfl
      cases front with
      | nil => exact notBase (List.cons.inj split).1.symm
      | cons head front =>
          obtain rfl := (List.cons.inj split).1
          exact (disjoint _ (.head _)).2.1 rfl

/-- A tasklet was linked into the queue. -/
theorem insertedAfter (queued : Queued promise s chain) {t anchor : TaskletId}
    {following : Option TaskletId} (inserted : QueueRep.InsertedAfter s s' anchor t following)
    {queue queue' : List TaskletId} (rep : QueueRep s queue) (rep' : QueueRep s' queue')
    (grows : (mainTasklet :: queue).Sublist (mainTasklet :: queue'))
    (anchored : (s.tasklets anchor).scheduled = true)
    (followed : ∀ u, following = some u → (s.tasklets u).scheduled = true)
    (present : t < s.taskletCount) (count : s'.taskletCount = s.taskletCount)
    (standard : s'.runType = s.runType ∧ s'.stopScheduler = s.stopScheduler)
    (nested : s'.useNestedTasklets = s.useNestedTasklets) : Queued promise s' chain where
  rep := ⟨queue', rep'⟩
  detached := by
    intro u unscheduled
    rw [inserted.scheduled, Bool.or_eq_false_iff, beq_eq_false_iff_ne] at unscheduled
    have notAnchor : u ≠ anchor := by
      rintro rfl
      exact Bool.false_ne_true (unscheduled.1.symm.trans anchored)
    have notFollowing : following ≠ some u := fun same =>
      Bool.false_ne_true (unscheduled.1.symm.trans (followed u same))
    rw [inserted.next, inserted.previous, if_neg notAnchor, if_neg unscheduled.2,
      if_neg unscheduled.2, if_neg notFollowing]
    exact queued.detached u unscheduled.1
  active := fun u member => by rw [inserted.scheduled, queued.active u member, Bool.true_or]
  bounded := by
    intro u scheduled
    rw [count]
    rw [inserted.scheduled, Bool.or_eq_true, beq_iff_eq] at scheduled
    obtain before | rfl := scheduled
    · exact queued.bounded u before
    · exact present
  standard := by
    rw [standard.1, standard.2]
    exact queued.standard
  flat := fun flat => nested.trans (queued.flat flat)
  lined := fun flat other rep'' => by
    obtain rfl := rep'.unique rep''
    exact (queued.lined flat queue rep).trans grows

/-- A tasklet that is not active was taken out of the queue. -/
theorem removed (queued : Queued promise s chain) {queue : List TaskletId} (rep : QueueRep s queue)
    {t : TaskletId} (removed : QueueRep.Removed s s' queue t) (outside : t ∉ chain)
    (count : s'.taskletCount = s.taskletCount)
    (standard : s'.runType = s.runType ∧ s'.stopScheduler = s.stopScheduler)
    (nested : s'.useNestedTasklets = s.useNestedTasklets) : Queued promise s' chain where
  rep := ⟨_, rep.of_removed removed⟩
  detached := by
    obtain ⟨front, back, before, split, -, isBefore, between⟩ := removed
    intro u unscheduled
    by_cases same : u = t
    · exact same ▸ between.own
    · rw [between.scheduled] at unscheduled
      have before_unscheduled : (s.tasklets u).scheduled = false := by simpa [same] using unscheduled
      have absent : u ∉ mainTasklet :: queue := by
        rw [← rep.scheduled, before_unscheduled]
        exact Bool.false_ne_true
      rw [split, ← List.cons_append] at absent
      have notBefore : u ≠ before := fun here =>
        absent (List.mem_append_left _ (here ▸ List.mem_of_mem_getLast? isBefore))
      have notAfter : back.head? ≠ some u := fun here =>
        absent (List.mem_append_right _ (.tail _ (List.mem_of_mem_head? here)))
      rw [between.next u same, between.previous u same, if_neg notBefore, if_neg notAfter]
      exact queued.detached u before_unscheduled
  active := by
    obtain ⟨_, _, _, -, -, -, between⟩ := removed
    intro u member
    have other : u ≠ t := fun same => outside (same ▸ member)
    simp [between.scheduled, queued.active u member, other]
  bounded := by
    obtain ⟨_, _, _, -, -, -, between⟩ := removed
    intro u scheduled
    rw [count]
    refine queued.bounded u ?_
    rw [between.scheduled, Bool.and_eq_true] at scheduled
    exact scheduled.1
  standard := by
    rw [standard.1, standard.2]
    exact queued.standard
  flat := fun flat => nested.trans (queued.flat flat)
  lined := fun flat other rep' => by
    obtain rfl := (rep.of_removed removed).unique rep'
    obtain ⟨_, _, _, split, -⟩ := removed
    have notMain : mainTasklet ≠ t := fun same =>
      (List.nodup_cons.mp rep.nodup).1 (by simp [same, split])
    have erased := (queued.lined flat queue rep).erase t
    rwa [List.erase_of_not_mem (by simpa using outside), List.erase_cons_tail (by simpa)] at erased

end Queued

/-- The states differ in their run queues only. -/
def SameButQueue (s s' : State ν) : Prop :=
  s'.eraseQueue = s.eraseQueue

namespace SameButQueue

variable {s s' s'' : State ν}

theorem field {β : Type*} (same : SameButQueue s s') (t : TaskletId) (view : Tasklet ν → β)
    (blind : ∀ tasklet : Tasklet ν, view tasklet.eraseQueueLinks = view tasklet) :
    view (s'.tasklets t) = view (s.tasklets t) :=
  State.eq_of_eraseQueue (fun s => view (s.tasklets t)) (fun s => blind (s.tasklets t)) same

theorem view {β : Type*} (same : SameButQueue s s') (view : State ν → β)
    (blind : ∀ s : State ν, view s.eraseQueue = view s) : view s' = view s :=
  State.eq_of_eraseQueue view blind same

end SameButQueue

theorem Chained.requeue {k k' : Config ν} {chain : List TaskletId} (chained : Chained k chain)
    (same : SameButQueue k.state k'.state) (running : k'.running = k.running)
    (stack : k'.stack = k.stack) : Chained k' chain :=
  chained.congr_links running (same.view State.taskletCount fun _ => rfl)
    (fun t => same.field t Tasklet.links fun _ => rfl) fun t _ => by rw [stack]

theorem Shaped.requeue {k k' : Config ν} (shaped : Shaped promise k)
    (same : SameButQueue k.state k'.state) (stack : k'.stack = k.stack) : Shaped promise k' where
  proper := fun t => by
    rw [stack]
    exact shaped.proper t
  blocked := fun t blocked => by
    rw [same.field t Tasklet.blocked fun _ => rfl] at blocked
    obtain ⟨c, frame, channel, waits, shape⟩ := shaped.blocked t blocked
    refine ⟨c, frame, (same.field t Tasklet.channelBlockedOn fun _ => rfl).trans channel, waits, ?_⟩
    rw [stack]
    exact shape
  passed := fun t started => by
    rw [same.field t Tasklet.greenlet fun _ => rfl] at started
    rw [same.field t Tasklet.Passed fun _ => rfl]
    exact shaped.passed t started

theorem Exclusive.requeue {s s' : State ν} {doomed transit transit' : Option TaskletId}
    (exclusive : Exclusive s doomed transit) (same : SameButQueue s s')
    (waiting : ∀ t, t ≠ mainTasklet → some t ≠ transit' → (s.tasklets t).blocked = true →
      (s'.tasklets t).scheduled = false) : Exclusive s' doomed transit' where
  lists := by
    obtain ⟨lists, rep, listed⟩ := exclusive.lists
    refine ⟨lists, ⟨?_, ?_, ?_, rep.nodup, ?_, rep.disjoint, ?_, ?_, rep.neither⟩, ?_⟩
    · exact fun c d => (rep.segment c d).congr
        (fun t _ => same.field t Tasklet.previousBlocked fun _ => rfl)
        (fun t _ => same.field t Tasklet.nextBlocked fun _ => rfl)
    · exact fun c d => (congrArg (fun channels => ((channels c).ends d).first)
        (same.view State.channels fun _ => rfl)).trans (rep.first c d)
    · exact fun c d => (congrArg (fun channels => ((channels c).ends d).last)
        (same.view State.channels fun _ => rfl)).trans (rep.last c d)
    · exact fun c d t member =>
        (same.field t Tasklet.blockedDirection fun _ => rfl).trans (rep.direction c d t member)
    · intro t nowhere
      rw [same.field t Tasklet.nextBlocked fun _ => rfl,
        same.field t Tasklet.previousBlocked fun _ => rfl,
        same.field t Tasklet.blockedDirection fun _ => rfl]
      exact rep.unlisted t nowhere
    · exact fun c => (congrArg (fun channels => (channels c).balance)
        (same.view State.channels fun _ => rfl)).trans (rep.balance c)
    · intro t spared c
      rw [same.field t Tasklet.blocked fun _ => rfl,
        same.field t Tasklet.channelBlockedOn fun _ => rfl]
      exact listed t spared c
  waiting := fun t notMain settled blocked => by
    rw [same.field t Tasklet.blocked fun _ => rfl] at blocked
    exact waiting t notMain settled blocked

/-- Unblocking keeps the shape of the stacks. -/
theorem Shaped.unblock {k k' : Config ν} (shaped : Shaped promise k) (t : TaskletId)
    (state : k'.state = k.state.modifyTasklet t .unblock) (stack : k'.stack = k.stack) :
    Shaped promise k' where
  proper := fun u => stack ▸ shaped.proper u
  blocked := fun u blocked => by
    have other : u ≠ t := by
      rintro rfl
      simp [state] at blocked
    simpa [state, stack, other] using
      shaped.blocked u (by simpa [state, other] using blocked)
  passed := fun u started => by
    have same : (k'.state.tasklets u).greenlet = (k.state.tasklets u).greenlet ∧
        ((k'.state.tasklets u).Passed ↔ (k.state.tasklets u).Passed) := by
      by_cases here : u = t <;> simp [state, here, Tasklet.Passed]
    exact same.2.mpr (shaped.passed u (same.1 ▸ started))

/-- Unblocking a tasklet that is not blocked, or that may be anywhere. -/
theorem Exclusive.unblock {s : State ν} {doomed transit : Option TaskletId}
    (exclusive : Exclusive s doomed transit) {t : TaskletId}
    (spared : (s.tasklets t).blocked = false ∨ doomed = some t) :
    Exclusive (s.modifyTasklet t .unblock) doomed transit where
  lists := by
    obtain ⟨lists, rep, listed⟩ := exclusive.lists
    refine ⟨lists, ⟨?_, rep.first, rep.last, rep.nodup, ?_, rep.disjoint, ?_, rep.balance,
      rep.neither⟩, ?_⟩
    · refine fun c d => (rep.segment c d).congr (fun u _ => ?_) (fun u _ => ?_) <;>
        by_cases here : u = t <;> simp [here]
    · intro c d u member
      rw [← rep.direction c d u member]
      by_cases here : u = t <;> simp [here]
    · intro u nowhere
      have before := rep.unlisted u nowhere
      by_cases here : u = t
      · subst here
        simpa using before
      · simpa [here] using before
    · intro u notDoomed c
      rw [listed u notDoomed c]
      by_cases here : u = t
      · subst here
        rcases spared with unblocked | isDoomed
        · simp [unblocked]
        · exact absurd isDoomed.symm notDoomed
      · simp [here]
  waiting := fun u notMain settled blocked => by
    have other : u ≠ t := by
      rintro rfl
      simp at blocked
    simp only [State.modifyTasklet_tasklets, ne_eq, other, not_false_eq_true,
      Function.update_of_ne] at blocked ⊢
    exact exclusive.waiting u notMain settled blocked

/-- The tasklet `t` is in the run queue: it was put there and unblocked, or it was
there and will be put at the back. -/
structure Inserted (s s' : State ν) (t : TaskletId) : Prop where
  scheduled : ∀ u, (s'.tasklets u).scheduled = ((s.tasklets u).scheduled || u == t)
  same : SameButQueue (s.modifyTasklet t .unblock) s' ∨
    s' = s.modifyTasklet t (.setReschedule .back)

namespace Inserted

variable {s s' : State ν} {t : TaskletId}

theorem of_scheduled (scheduled : (s.tasklets t).scheduled = true) :
    Inserted s (s.modifyTasklet t (.setReschedule .back)) t where
  scheduled := fun u => by
    by_cases here : u = t
    · simp [here, scheduled]
    · simp [here]
  same := .inr rfl

theorem view {β : Type*} (inserted : Inserted s s' t) (view : State ν → β)
    (blind : ∀ s : State ν, view s.eraseQueue = view s)
    (keeps : ∀ s t change, view (State.modifyTasklet s t change) = view s) : view s' = view s := by
  rcases inserted.same with same | same
  · exact (same.view view blind).trans (keeps _ _ _)
  · rw [same, keeps]

theorem field {β : Type*} (inserted : Inserted s s' t) (u : TaskletId) (view : Tasklet ν → β)
    (blind : ∀ tasklet : Tasklet ν, view tasklet.eraseQueueLinks = view tasklet)
    (unblock : ∀ tasklet : Tasklet ν, view tasklet.unblock = view tasklet)
    (reschedule : ∀ tasklet : Tasklet ν, view (tasklet.setReschedule .back) = view tasklet) :
    view (s'.tasklets u) = view (s.tasklets u) := by
  rcases inserted.same with same | same
  · rw [same.field u view blind]
    by_cases here : u = t
    · subst here
      simp [unblock]
    · simp [here]
  · rw [same]
    by_cases here : u = t
    · subst here
      simp [reschedule]
    · simp [here]

theorem unblocked (inserted : Inserted s s' t) {u : TaskletId}
    (unblocked : (s.tasklets u).blocked = false) : (s'.tasklets u).blocked = false := by
  rcases inserted.same with same | same
  · rw [same.field u Tasklet.blocked fun _ => rfl]
    by_cases here : u = t
    · simp [here]
    · simpa [here] using unblocked
  · rw [same]
    by_cases here : u = t
    · subst here
      simpa using unblocked
    · simpa [here] using unblocked

theorem exclusive (inserted : Inserted s s' t) {doomed transit : Option TaskletId}
    (exclusive : Exclusive s doomed transit) (unblocked : (s.tasklets t).blocked = false) :
    Exclusive s' doomed transit := by
  rcases inserted.same with same | same
  · refine (exclusive.unblock (.inl unblocked)).requeue same fun u notMain settled blocked => ?_
    have other : u ≠ t := by
      rintro rfl
      simp at blocked
    rw [inserted.scheduled]
    simp only [State.modifyTasklet_tasklets, ne_eq, other, not_false_eq_true,
      Function.update_of_ne] at blocked
    simpa [other] using exclusive.waiting u notMain settled blocked
  · rw [same]
    exact exclusive.congr (SameLists.modifyTasklet _ _ _ fun _ => rfl)

end Inserted

namespace Queued

variable {s : State ν} {chain : List TaskletId} {t : TaskletId}

/-- `InsertTasklet`. -/
theorem insertTasklet (queued : Queued promise s chain) (present : t < s.taskletCount) :
    ∃ s', s.insertTasklet t = some s' ∧ Queued promise s' chain ∧ Inserted s s' t := by
  cases scheduled : (s.tasklets t).scheduled with
  | true =>
      refine ⟨_, by simp [State.insertTasklet, scheduled], ?_, .of_scheduled scheduled⟩
      exact queued.congr (SameLists.modifyTasklet _ _ _ fun _ => rfl)
  | false =>
      obtain ⟨queue, rep⟩ := queued.rep
      obtain ⟨s', done, rep'⟩ := rep.insertTasklet scheduled
      obtain ⟨s'', front, last, done', split, inserted⟩ := rep.inserted scheduled
      obtain rfl := Option.some.inj (done.symm.trans done')
      have same : SameButQueue (s.modifyTasklet t .unblock) s' :=
        State.insertTasklet_eraseQueue scheduled done
      refine ⟨s', done, ?_, inserted.scheduled, .inl same⟩
      refine queued.insertedAfter inserted rep rep' (by simp) ?_ (by simp) present
        (same.view State.taskletCount fun _ => rfl)
        ⟨same.view State.runType fun _ => rfl, same.view State.stopScheduler fun _ => rfl⟩
        (same.view State.useNestedTasklets fun _ => rfl)
      exact (rep.scheduled last).mpr (by simp [split])

/-- `InsertTaskletToRunNext`. -/
theorem insertTaskletToRunNext (queued : Queued promise s chain) (present : t < s.taskletCount)
    (current : (s.tasklets s.currentTasklet).scheduled = true) :
    Queued promise (s.insertTaskletToRunNext t) chain ∧ Inserted s (s.insertTaskletToRunNext t) t := by
  cases scheduled : (s.tasklets t).scheduled with
  | true =>
      rw [show s.insertTaskletToRunNext t = s.modifyTasklet t (.setReschedule .back) by
        simp [State.insertTaskletToRunNext, scheduled]]
      exact ⟨queued.congr (SameLists.modifyTasklet _ _ _ fun _ => rfl), .of_scheduled scheduled⟩
  | false =>
      obtain ⟨queue, rep⟩ := queued.rep
      obtain ⟨front, back, split⟩ := List.append_of_mem ((rep.scheduled _).mp current)
      obtain ⟨queue', rep', split'⟩ := rep.insertTaskletToRunNext split scheduled
      have inserted := rep.insertedNext split scheduled
      have same : SameButQueue (s.modifyTasklet t .unblock) (s.insertTaskletToRunNext t) :=
        State.insertTaskletToRunNext_eraseQueue scheduled
      refine ⟨?_, inserted.scheduled, .inl same⟩
      refine queued.insertedAfter inserted rep rep' ?_ current ?_ present
        (same.view State.taskletCount fun _ => rfl)
        ⟨same.view State.runType fun _ => rfl, same.view State.stopScheduler fun _ => rfl⟩
        (same.view State.useNestedTasklets fun _ => rfl)
      · rw [split, split']
        simp
      · intro u following
        rw [rep.scheduled, split]
        exact List.mem_append_right _ (.tail _ (List.mem_of_mem_head? following))

theorem mem_queue {queue : List TaskletId} (rep : QueueRep s queue)
    (scheduled : (s.tasklets t).scheduled = true) (notMain : t ≠ mainTasklet) : t ∈ queue := by
  simpa [notMain] using (rep.scheduled t).mp scheduled

theorem removed_scheduled {s' : State ν} {queue : List TaskletId}
    (removed : QueueRep.Removed s s' queue t) (u : TaskletId) :
    (s'.tasklets u).scheduled = ((s.tasklets u).scheduled && u != t) := by
  obtain ⟨_, _, _, -, -, -, between⟩ := removed
  exact between.scheduled u

/-- `RemoveTasklet` of a tasklet that is not active. -/
theorem removeTasklet (queued : Queued promise s chain) (scheduled : (s.tasklets t).scheduled = true)
    (notMain : t ≠ mainTasklet) (outside : t ∉ chain) :
    Queued promise (s.removeTasklet t).1 chain ∧ SameButQueue s (s.removeTasklet t).1 ∧
      (s.removeTasklet t).2 = true ∧
      ∀ u, ((s.removeTasklet t).1.tasklets u).scheduled = ((s.tasklets u).scheduled && u != t) := by
  obtain ⟨queue, rep⟩ := queued.rep
  have member := mem_queue rep scheduled notMain
  have same : SameButQueue s (s.removeTasklet t).1 := s.removeTasklet_eraseQueue t
  refine ⟨?_, same, rep.removeTasklet_reports member, removed_scheduled (rep.removed member)⟩
  exact queued.removed rep (rep.removed member) outside
    (same.view State.taskletCount fun _ => rfl)
    ⟨same.view State.runType fun _ => rfl, same.view State.stopScheduler fun _ => rfl⟩
    (same.view State.useNestedTasklets fun _ => rfl)

/-- The run loop takes a tasklet out that is not active. -/
theorem leaveQueue (queued : Queued promise s chain) (scheduled : (s.tasklets t).scheduled = true)
    (notMain : t ≠ mainTasklet) (outside : t ∉ chain) (parent : TaskletId) :
    Queued promise (s.leaveQueue t parent) chain ∧
      SameButQueue (s.setCurrentTasklet parent) (s.leaveQueue t parent) ∧
      ∀ u, ((s.leaveQueue t parent).tasklets u).scheduled =
        ((s.tasklets u).scheduled && u != t) := by
  obtain ⟨queue, rep⟩ := queued.rep
  have member := mem_queue rep scheduled notMain
  have same : SameButQueue (s.setCurrentTasklet parent) (s.leaveQueue t parent) :=
    s.leaveQueue_eraseQueue t parent
  refine ⟨?_, same, removed_scheduled (rep.left member parent)⟩
  exact queued.removed rep (rep.left member parent) outside
    (same.view State.taskletCount fun _ => rfl)
    ⟨same.view State.runType fun _ => rfl, same.view State.stopScheduler fun _ => rfl⟩
    (same.view State.useNestedTasklets fun _ => rfl)

/-- Other active tasklets. -/
theorem mono {chain' : List TaskletId} (queued : Queued promise s chain)
    (active : ∀ u ∈ chain', (s.tasklets u).scheduled = true)
    (lined : promise.flat → ∀ queue, QueueRep s queue →
      chain'.reverse.Sublist (mainTasklet :: queue)) : Queued promise s chain' :=
  ⟨queued.rep, queued.detached, active, queued.bounded, queued.standard, queued.flat, lined⟩

theorem not_flat (queued : Queued promise s chain) (nested : s.useNestedTasklets = true) :
    ¬ promise.flat := fun flat =>
  Bool.false_ne_true ((queued.flat flat).symm.trans nested)

/-- The running tasklet goes back to the one that waits for it. -/
theorem leave (queued : Queued promise s (t :: chain)) : Queued promise s chain := by
  refine queued.mono (fun u member => queued.active u (.tail _ member)) fun flat queue rep => ?_
  have lined := queued.lined flat queue rep
  rw [List.reverse_cons] at lined
  exact (List.sublist_append_left _ _).trans lined

/-- The running tasklet lets the one behind it run. -/
theorem enter {x : TaskletId} (queued : Queued promise s (t :: chain))
    (scheduled : (s.tasklets x).scheduled = true)
    (next : promise.flat → (s.tasklets t).next = some x) : Queued promise s (x :: t :: chain) := by
  refine queued.mono (fun u member => ?_) fun flat queue rep => ?_
  · cases member with
    | head => exact scheduled
    | tail _ member => exact queued.active u member
  · obtain ⟨front, back, split⟩ := rep.split_following (queued.active t (.head _)) (next flat)
    have lined := (queued.lined flat queue rep).reverse
    have nodup := rep.nodup
    rw [split] at lined nodup ⊢
    have outside : t ∉ x :: back := (List.nodup_cons.mp (List.nodup_append.mp nodup).2.1).1
    rw [List.reverse_reverse, List.reverse_append, List.reverse_cons, List.append_assoc,
      List.singleton_append] at lined
    have waiting := (sublist_behind lined (mt List.mem_reverse.mp outside)).reverse
    rw [List.reverse_reverse] at waiting
    simp only [List.reverse_cons, List.append_assoc, List.singleton_append]
    exact waiting.append (by simp)

end Queued

/-- The second state keeps the links and the current tasklet of the first and
blocks no more tasklets. -/
structure Eases (s s' : State ν) : Prop where
  count : s'.taskletCount = s.taskletCount
  current : s'.currentTasklet = s.currentTasklet
  links : ∀ t, (s'.tasklets t).links = (s.tasklets t).links
  passed : ∀ t, (s.tasklets t).Passed → (s'.tasklets t).Passed
  blocked : ∀ t, (s'.tasklets t).blocked = true →
    (s.tasklets t).blocked = true ∧
      (s'.tasklets t).channelBlockedOn = (s.tasklets t).channelBlockedOn

namespace Eases

variable {s s' s'' : State ν}

theorem trans (first : Eases s s') (second : Eases s' s'') : Eases s s'' where
  count := second.count.trans first.count
  current := second.current.trans first.current
  links := fun t => (second.links t).trans (first.links t)
  passed := fun t passed => second.passed t (first.passed t passed)
  blocked := fun t blocked => by
    obtain ⟨middle, channel⟩ := second.blocked t blocked
    obtain ⟨before, channel'⟩ := first.blocked t middle
    exact ⟨before, channel.trans channel'⟩

theorem unblocked (eases : Eases s s') {t : TaskletId}
    (unblocked : (s.tasklets t).blocked = false) : (s'.tasklets t).blocked = false := by
  by_contra blocked
  rw [(eases.blocked t (by simpa using blocked)).1] at unblocked
  cases unblocked

theorem modifyTasklet (s : State ν) (t : TaskletId) (change : Tasklet ν → Tasklet ν)
    (links : ∀ tasklet, (change tasklet).links = tasklet.links)
    (passed : ∀ tasklet, tasklet.Passed → (change tasklet).Passed)
    (blocked : ∀ tasklet, (change tasklet).blocked = true →
      tasklet.blocked = true ∧ (change tasklet).channelBlockedOn = tasklet.channelBlockedOn) :
    Eases s (s.modifyTasklet t change) := by
  refine ⟨rfl, rfl, fun u => ?_, fun u => ?_, fun u => ?_⟩
  all_goals
    by_cases here : u = t
    · subst here
      simp only [State.modifyTasklet_tasklets, Function.update_self]
      first | exact links _ | exact passed _ | exact blocked _
    · simp [here]

theorem unblock (s : State ν) (t : TaskletId) : Eases s (s.modifyTasklet t .unblock) :=
  modifyTasklet s t .unblock (fun _ => rfl) (fun _ => id) (by simp)

/-- Changing fields the invariant does not read. -/
theorem of_agree (agree : Agree s s') (current : s'.currentTasklet = s.currentTasklet) :
    Eases s s' where
  count := agree.count
  current := current
  links := agree.links
  passed := agree.passed
  blocked := fun t blocked => ⟨(agree.field t Standing.blocked).symm.trans blocked,
    agree.field t Standing.channelBlockedOn⟩

theorem of_eraseBlockedLists (same : s'.eraseBlockedLists = s.eraseBlockedLists) : Eases s s' where
  count := congrArg (fun s => s.taskletCount) same
  current := congrArg (fun s => s.currentTasklet) same
  links := fun t => congrArg (fun s => (s.tasklets t).links) same
  passed := fun t => (congrArg (fun s => (s.tasklets t).Passed) same).mpr
  blocked := fun t blocked =>
    ⟨(congrArg (fun s => (s.tasklets t).blocked) same).symm.trans blocked,
      congrArg (fun s => (s.tasklets t).channelBlockedOn) same⟩

end Eases

theorem SameButQueue.eases {s s' : State ν} (same : SameButQueue s s') : Eases s s' where
  count := same.view State.taskletCount fun _ => rfl
  current := same.view State.currentTasklet fun _ => rfl
  links := fun t => same.field t Tasklet.links fun _ => rfl
  passed := fun t => (same.field t Tasklet.Passed fun _ => rfl).mpr
  blocked := fun t blocked =>
    ⟨(same.field t Tasklet.blocked fun _ => rfl).symm.trans blocked,
      same.field t Tasklet.channelBlockedOn fun _ => rfl⟩

theorem Inserted.eases {s s' : State ν} {t : TaskletId} (inserted : Inserted s s' t) :
    Eases s s' := by
  rcases inserted.same with same | same
  · exact (Eases.unblock s t).trans same.eases
  · rw [same]
    exact Eases.of_agree (Agree.modifyTasklet s t _ (fun _ => rfl) (fun _ => rfl) fun _ => id) rfl

theorem Shaped.eased {k k' : Config ν} (shaped : Shaped promise k) (eases : Eases k.state k'.state)
    (stack : k'.stack = k.stack) : Shaped promise k' where
  proper := fun t => stack ▸ shaped.proper t
  blocked := fun t blocked => by
    obtain ⟨before, sameChannel⟩ := eases.blocked t blocked
    obtain ⟨c, frame, channel, waits, shape⟩ := shaped.blocked t before
    exact ⟨c, frame, sameChannel.trans channel, waits, stack ▸ shape⟩
  passed := fun t started => by
    refine eases.passed t (shaped.passed t ?_)
    exact (congrArg Links.greenlet (eases.links t)).symm.trans started

theorem Entered.eased {k k' : Config ν} {chain : List TaskletId} (entered : Entered promise k chain)
    (eases : Eases k.state k'.state) (queued : Queued promise k'.state chain)
    (running : k'.running = k.running) (stack : k'.stack = k.stack) : Entered promise k' chain where
  chained := entered.chained.congr_links running eases.count eases.links fun t _ => by rw [stack]
  queued := queued
  shaped := entered.shaped.eased eases stack
  operations := by
    rw [running, stack]
    exact entered.operations

/-- The run loop puts a tasklet back where it asked to be, or finds no place. -/
theorem Queued.rescheduleTasklet {s : State ν} {chain : List TaskletId} {t : TaskletId}
    (queued : Queued promise s chain) (exclusive : Exclusive s none none)
    (present : t < s.taskletCount) (unscheduled : (s.tasklets t).scheduled = false)
    (current : (s.tasklets s.currentTasklet).scheduled = true)
    (requested : (s.tasklets t).reschedule ≠ .none → (s.tasklets t).blocked = false) :
    (s.rescheduleTasklet t = none ∧ (s.tasklets t).reschedule = .frontPlusOne ∧
      (s.tasklets s.currentTasklet).next = none) ∨
    ∃ s', s.rescheduleTasklet t = some s' ∧ Queued promise s' chain ∧ Exclusive s' none none ∧
      Eases s s' := by
  have clear : ∀ s' : State ν,
      SameLists s' (s'.modifyTasklet t (.setReschedule .none)) ∧
        Eases s' (s'.modifyTasklet t (.setReschedule .none)) := fun s' =>
    ⟨SameLists.modifyTasklet _ _ _ fun _ => rfl,
      Eases.of_agree (Agree.modifyTasklet _ _ _ (fun _ => rfl) (fun _ => rfl) fun _ => id) rfl⟩
  cases request : (s.tasklets t).reschedule with
  | none =>
      refine .inr ⟨s, by simp [State.rescheduleTasklet, request], queued, exclusive, ?_⟩
      exact Eases.of_agree (Agree.refl s) rfl
  | back =>
      obtain ⟨s', done, queued', inserted⟩ := queued.insertTasklet present
      obtain ⟨lists, eases⟩ := clear s'
      refine .inr ⟨_, by simp [State.rescheduleTasklet, request, done], queued'.congr lists, ?_,
        inserted.eases.trans eases⟩
      exact (inserted.exclusive exclusive (requested (by simp [request]))).congr lists
  | frontPlusOne =>
      cases following : (s.tasklets s.currentTasklet).next with
      | none =>
          left
          simp [State.rescheduleTasklet, request, following]
      | some front =>
          obtain ⟨frontScheduled, frontNotMain, frontNotCurrent⟩ := queued.follows following
          have frontNe : front ≠ t := by
            rintro rfl
            exact Bool.false_ne_true (unscheduled.symm.trans frontScheduled)
          have frontUnblocked : (s.tasklets front).blocked = false := by
            by_contra blocked
            have := exclusive.waiting front frontNotMain (by simp) (by simpa using blocked)
            exact Bool.false_ne_true (this.symm.trans frontScheduled)
          -- in between, `front` is out of the queue even if it is active
          obtain ⟨queued₁, same₁, -, scheduled₁⟩ :=
            (queued.mono (List.forall_mem_nil _) (by simp)).removeTasklet frontScheduled
              frontNotMain List.not_mem_nil
          have current₁ := same₁.view State.currentTasklet fun _ => rfl
          obtain ⟨queued₂, inserted₂⟩ := queued₁.insertTaskletToRunNext (t := t)
            (by rwa [same₁.eases.count])
            (by rw [current₁, scheduled₁, current]; simpa using frontNotCurrent.symm)
          have current₂ := inserted₂.eases.current
          obtain ⟨queued₃, inserted₃⟩ := queued₂.insertTaskletToRunNext (t := front)
            (by
              rw [inserted₂.eases.count, same₁.eases.count]
              exact queued.bounded front frontScheduled)
            (by
              rw [current₂, current₁, inserted₂.scheduled, scheduled₁, current]
              simpa using .inl frontNotCurrent.symm)
          have exclusive₁ : Exclusive (s.removeTasklet front).1 none none :=
            exclusive.requeue same₁ fun u notMain settled blocked => by
              rw [scheduled₁, exclusive.waiting u notMain settled blocked, Bool.false_and]
          have exclusive₂ := inserted₂.exclusive exclusive₁
            (same₁.eases.unblocked (requested (by simp [request])))
          have exclusive₃ := inserted₃.exclusive exclusive₂
            (inserted₂.eases.unblocked (same₁.eases.unblocked frontUnblocked))
          obtain ⟨lists, eases⟩ := clear (((s.removeTasklet front).1.insertTaskletToRunNext
            t).insertTaskletToRunNext front)
          refine .inr ⟨_, by simp [State.rescheduleTasklet, request, following], ?_,
            exclusive₃.congr lists, ((same₁.eases.trans inserted₂.eases).trans inserted₃.eases).trans
              eases⟩
          refine (queued₃.mono (fun u member => ?_) fun flat queue₃ rep₃ => ?_).congr lists
          · rw [inserted₃.scheduled, inserted₂.scheduled, scheduled₁, queued.active u member]
            by_cases here : u = front <;> simp [here]
          · obtain ⟨queue, rep⟩ := queued.rep
            obtain ⟨before, rest, split⟩ := rep.split_following current following
            obtain ⟨queue', rep', split'⟩ := rep.insertBehindFront
              (fun member => Bool.false_ne_true
                (unscheduled.symm.trans ((rep.scheduled t).mpr member))) split
            obtain rfl := rep'.unique rep₃
            refine (queued.lined flat queue rep).trans ?_
            rw [split, split']
            simp

/-! ## The blocked lists -/

/-- What the run queue reads is not touched by changes of the blocked lists. -/
theorem Queued.of_eraseBlockedLists {s s' : State ν} {chain : List TaskletId}
    (queued : Queued promise s chain) (same : s'.eraseBlockedLists = s.eraseBlockedLists) :
    Queued promise s' chain := by
  have field : ∀ {β : Type} (view : Tasklet ν → β),
      (∀ tasklet : Tasklet ν, view tasklet.eraseBlockedLinks = view tasklet) →
      ∀ t, view (s'.tasklets t) = view (s.tasklets t) := fun view blind t =>
    (blind _).symm.trans ((congrArg (fun s => view (s.tasklets t)) same).trans (blind _))
  exact queued.of_fields (field Tasklet.next fun _ => rfl) (field Tasklet.previous fun _ => rfl)
    (field Tasklet.scheduled fun _ => rfl) (congrArg (fun s => s.previousTasklet) same)
    (congrArg (fun s => s.numberOfTaskletsInQueue) same) (congrArg (fun s => s.taskletCount) same)
    (congrArg (fun s => s.runType) same) (congrArg (fun s => s.stopScheduler) same)
    fun _ => congrArg (fun s => s.useNestedTasklets) same

/-- Changing fields of a tasklet that the run queue does not read. -/
theorem Queued.modifyTasklet {s : State ν} {chain : List TaskletId} (queued : Queued promise s chain)
    (t : TaskletId) (change : Tasklet ν → Tasklet ν)
    (next : ∀ tasklet, (change tasklet).next = tasklet.next)
    (previous : ∀ tasklet, (change tasklet).previous = tasklet.previous)
    (scheduled : ∀ tasklet, (change tasklet).scheduled = tasklet.scheduled) :
    Queued promise (s.modifyTasklet t change) chain := by
  refine queued.of_fields (fun u => ?_) (fun u => ?_) (fun u => ?_) rfl rfl rfl rfl rfl fun _ => rfl
  all_goals
    by_cases here : u = t
    · subst here
      simp [next, previous, scheduled]
    · simp [here]

namespace Exclusive

variable {s : State ν} {doomed transit : Option TaskletId} {t : TaskletId}

/-- A tasklet on no list that is not blocked need not be spared. -/
theorem undoom (exclusive : Exclusive s (some t) transit)
    (unlisted : ∀ c d, ¬ s.OnBlockedList c d t) (unblocked : (s.tasklets t).blocked = false) :
    Exclusive s none transit where
  lists := by
    obtain ⟨lists, rep, listed⟩ := exclusive.lists
    refine ⟨lists, rep, fun u _ c => ?_⟩
    by_cases here : u = t
    · subst here
      refine iff_of_false (fun ⟨d, member⟩ => ?_) (by simp [unblocked])
      exact unlisted c d ((rep.onBlockedList_iff c d u).mpr member)
    · exact listed u (by simpa using here) c
  waiting := exclusive.waiting

/-- Two states that differ in blocked lists only have the same blocked tasklets. -/
theorem same_blocked {s' : State ν} (same : s'.eraseBlockedLists = s.eraseBlockedLists)
    (u : TaskletId) : (s'.tasklets u).blocked = (s.tasklets u).blocked ∧
      (s'.tasklets u).channelBlockedOn = (s.tasklets u).channelBlockedOn ∧
      (s'.tasklets u).scheduled = (s.tasklets u).scheduled :=
  ⟨congrArg (fun s => (s.tasklets u).blocked) same,
    congrArg (fun s => (s.tasklets u).channelBlockedOn) same,
    congrArg (fun s => (s.tasklets u).scheduled) same⟩

/-- Take a tasklet off the list it is on, if any. -/
theorem removeTaskletFromBlocked (exclusive : Exclusive s (some t) transit) {c : ChannelId}
    (only : ∀ c' d, s.OnBlockedList c' d t → c' = c) :
    Exclusive (s.removeTaskletFromBlocked c t) (some t) transit ∧
      ∀ c' d, ¬ (s.removeTaskletFromBlocked c t).OnBlockedList c' d t := by
  obtain ⟨lists, rep, listed⟩ := exclusive.lists
  have only' : ∀ c' d, t ∈ lists c' d → c' = c := fun c' d member =>
    only c' d ((rep.onBlockedList_iff c' d t).mpr member)
  by_cases somewhere : ∃ d, t ∈ lists c d
  · obtain ⟨d, member⟩ := somewhere
    have rep' := rep.removeTaskletFromBlocked member
    have same := same_blocked (s.removeTaskletFromBlocked_eraseBlockedLists c t)
    have others : ∀ u, u ≠ t → ∀ c' d', u ∈ lists.set c d ((lists c d).erase t) c' d' ↔
        u ∈ lists c' d' := by
      intro u other c' d'
      rw [BlockedLists.set_apply]
      split
      · next here => rw [List.mem_erase_of_ne other, here.1, here.2]
      · rfl
    refine ⟨⟨⟨_, rep', fun u notDoomed c' => ?_⟩, fun u notMain settled blocked => ?_⟩,
      fun c' d' onList => ?_⟩
    · have other : u ≠ t := by simpa using notDoomed
      simp only [others u other]
      rw [(same u).1, (same u).2.1]
      exact listed u notDoomed c'
    · rw [(same u).2.2]
      exact exclusive.waiting u notMain settled ((same u).1.symm.trans blocked)
    · have inside := (rep'.onBlockedList_iff c' d' t).mp onList
      rw [BlockedLists.set_apply] at inside
      split at inside
      · exact (List.Nodup.mem_erase_iff (rep.nodup c d)).mp inside |>.1 rfl
      · next elsewhere =>
          obtain ⟨sameChannel, sameSide⟩ := rep.disjoint c' c d' d t inside member
          exact elsewhere ⟨sameChannel, sameSide⟩
  · have unlisted : ∀ c' d, t ∉ lists c' d := fun c' d member =>
      somewhere ⟨d, only' c' d member ▸ member⟩
    rw [rep.removeTaskletFromBlocked_unlisted c unlisted]
    exact ⟨exclusive, fun c' d onList =>
      unlisted c' d ((rep.onBlockedList_iff c' d t).mp onList)⟩

theorem unlisted (exclusive : Exclusive s none transit)
    (unblocked : (s.tasklets t).blocked = false) (c : ChannelId) (d : ChannelDirection) :
    ¬ s.OnBlockedList c d t := fun onList =>
  Bool.false_ne_true (unblocked.symm.trans (exclusive.onList_blocked onList).1)

/-- A tasklet was appended to the list of one direction. -/
theorem added (exclusive : Exclusive s none transit) (unblocked : (s.tasklets t).blocked = false)
    {s' : State ν} {c : ChannelId} {d : ChannelDirection}
    (same : s'.eraseBlockedLists = s.eraseBlockedLists)
    (append : ∀ lists, BlockedRep s lists → (∀ c d, t ∉ lists c d) →
      BlockedRep s' (lists.set c d (lists c d ++ [t]))) :
    Exclusive s' (some t) transit ∧ (∀ c' d', s'.OnBlockedList c' d' t → c' = c) ∧
      s'.OnBlockedList c d t := by
  obtain ⟨lists, rep, listed⟩ := exclusive.lists
  have unlisted : ∀ c d, t ∉ lists c d := fun c d member =>
    exclusive.unlisted unblocked c d ((rep.onBlockedList_iff c d t).mpr member)
  have rep' := append lists rep unlisted
  have same := same_blocked same
  refine ⟨⟨⟨_, rep', fun u notDoomed c' => ?_⟩, fun u notMain settled blocked => ?_⟩,
    fun c' d' onList => ?_, ?_⟩
  · have other : u ≠ t := by simpa using notDoomed
    have members : ∀ d', u ∈ lists.set c d (lists c d ++ [t]) c' d' ↔ u ∈ lists c' d' := by
      intro d'
      rw [BlockedLists.set_apply]
      split
      · next here => simp [here.1, here.2, other]
      · rfl
    simp only [members]
    rw [(same u).1, (same u).2.1]
    exact listed u (by simp) c'
  · rw [(same u).2.2]
    exact exclusive.waiting u notMain settled ((same u).1.symm.trans blocked)
  · have inside := (rep'.onBlockedList_iff c' d' t).mp onList
    rw [BlockedLists.set_apply] at inside
    split at inside
    · next here => exact here.1
    · exact absurd inside (unlisted c' d')
  · rw [rep'.onBlockedList_iff, BlockedLists.set_apply, if_pos ⟨rfl, rfl⟩]
    simp

/-- Block a tasklet that is on the list of one channel. -/
theorem block (exclusive : Exclusive s (some t) none) {c : ChannelId} {d : ChannelDirection}
    (only : ∀ c' d', s.OnBlockedList c' d' t → c' = c) (onList : s.OnBlockedList c d t) :
    Exclusive (s.modifyTasklet t (.block (some c))) none (some t) where
  lists := by
    obtain ⟨lists, rep, listed⟩ := exclusive.lists
    refine ⟨lists, ⟨?_, rep.first, rep.last, rep.nodup, ?_, rep.disjoint, ?_, rep.balance,
      rep.neither⟩, ?_⟩
    · refine fun c d => (rep.segment c d).congr (fun u _ => ?_) (fun u _ => ?_) <;>
        by_cases here : u = t <;> simp [here]
    · intro c d u member
      rw [← rep.direction c d u member]
      by_cases here : u = t <;> simp [here]
    · intro u nowhere
      have before := rep.unlisted u nowhere
      by_cases here : u = t
      · subst here
        simpa using before
      · simpa [here] using before
    · intro u _ c'
      by_cases here : u = t
      · subst here
        simp only [State.modifyTasklet_tasklets, Function.update_self, Tasklet.block_blocked,
          Tasklet.block_channelBlockedOn, true_and, Option.some.injEq]
        refine ⟨fun ⟨d', member⟩ => ?_, fun sameChannel => ?_⟩
        · exact (only c' d' ((rep.onBlockedList_iff c' d' u).mpr member)).symm
        · subst sameChannel
          exact ⟨d, (rep.onBlockedList_iff c d u).mp onList⟩
      · simp only [State.modifyTasklet_tasklets, ne_eq, here, not_false_eq_true,
          Function.update_of_ne]
        exact listed u (by simpa using here) c'
  waiting := fun u notMain settled blocked => by
    have other : u ≠ t := by simpa using settled
    simp only [State.modifyTasklet_tasklets, ne_eq, other, not_false_eq_true,
      Function.update_of_ne] at blocked ⊢
    exact exclusive.waiting u notMain (by simp) blocked

end Exclusive

end CarbonLab.Scheduler
