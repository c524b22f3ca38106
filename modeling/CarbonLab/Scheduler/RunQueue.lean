import CarbonLab.Lib.LinkedList
import CarbonLab.Scheduler.State

/-!
# The run queue

The schedule manager links the runnable tasklets behind the main tasklet through
`next` and `previous`, with `previousTasklet` pointing at the last one.  The
operations are compared with the list operations they stand for.
-/

namespace CarbonLab.Scheduler

open LinkedList

variable {ν : Type}

namespace State

/-- `ScheduleManager::InsertTaskletToRunNext`. -/
def insertTaskletToRunNext (s : State ν) (t : TaskletId) : State ν :=
  if (s.tasklets t).scheduled then
    s.modifyTasklet t (.setReschedule .back)
  else
    let current := s.currentTasklet
    let s := s.modifyTasklet t (.setNext (s.tasklets current).next)
    let s := s.modifyTasklet t (.setPrevious current)
    let s := s.modifyTasklet current (.setNext t)
    let s := match (s.tasklets t).next with
      | some next => s.modifyTasklet next (.setPrevious t)
      | none => s
    let s := if (s.tasklets t).previous = s.previousTasklet then s.setPreviousTasklet t else s
    let s := s.modifyTasklet t .unblock
    let s := s.modifyTasklet t (.setScheduled true)
    s.setNumberOfTaskletsInQueue (s.numberOfTaskletsInQueue + 1)

/-- `ScheduleManager::InsertTasklet`, `none` when `m_previousTasklet` is null and
dereferenced. -/
def insertTasklet (s : State ν) (t : TaskletId) : Option (State ν) :=
  if (s.tasklets t).scheduled then
    some (s.modifyTasklet t (.setReschedule .back))
  else
    match s.previousTasklet with
    | none => none
    | some last =>
        let s := s.modifyTasklet last (.setNext t)
        let s := s.modifyTasklet t (.setPrevious last)
        let s := s.modifyTasklet t (.setNext none)
        let s := s.setPreviousTasklet t
        let s := s.modifyTasklet t .unblock
        let s := s.modifyTasklet t (.setScheduled true)
        some (s.setNumberOfTaskletsInQueue (s.numberOfTaskletsInQueue + 1))

/-- `ScheduleManager::RemoveTasklet`, with its result. -/
def removeTasklet (s : State ν) (t : TaskletId) : State ν × Bool :=
  let previous := (s.tasklets t).previous
  let next := (s.tasklets t).next
  if previous = next then
    (s, false)
  else
    let s := s.modifyTasklet? previous (.setNext next)
    let s := match next with
      | some next => s.modifyTasklet next (.setPrevious previous)
      | none => s.setPreviousTasklet previous
    let s := s.setNumberOfTaskletsInQueue (s.numberOfTaskletsInQueue - 1)
    let s := s.modifyTasklet t (.setNext none)
    let s := s.modifyTasklet t (.setPrevious none)
    (s.modifyTasklet t (.setScheduled false), true)

/-- The part of `ScheduleManager::Run` after a successful switch to `t` that makes
its parent current again and takes `t` out of the queue. -/
def leaveQueue (s : State ν) (t parent : TaskletId) : State ν :=
  let s := s.setCurrentTasklet parent
  let s := if (s.tasklets t).next = none then s.setPreviousTasklet (s.tasklets t).previous else s
  let (s, _) := s.removeTasklet t
  s.modifyTasklet t (.setScheduled false)

/-- The part of `ScheduleManager::Run` that follows and puts `t` back where it
asked to be, `none` when a null pointer is dereferenced. -/
def rescheduleTasklet (s : State ν) (t : TaskletId) : Option (State ν) :=
  match (s.tasklets t).reschedule with
  | .back => do
      let s ← s.insertTasklet t
      return s.modifyTasklet t (.setReschedule .none)
  | .frontPlusOne => do
      let front ← (s.tasklets s.currentTasklet).next
      let (s, _) := s.removeTasklet front
      let s := s.insertTaskletToRunNext t
      let s := s.insertTaskletToRunNext front
      return s.modifyTasklet t (.setReschedule .none)
  | .none => return s

/-- The post-switch step of `ScheduleManager::Run`. -/
def runPostSwitch (s : State ν) (t : TaskletId) : Option (State ν) := do
  let parent ← (s.tasklets t).taskletParent
  (s.leaveQueue t parent).rescheduleTasklet t

/-- `ScheduleManager::GetCachedTaskletCount`. -/
def getCachedTaskletCount (s : State ν) : Int :=
  s.numberOfTaskletsInQueue + 1

/-- The loop of `GetCalculatedTaskletCount` with a bound on its iterations,
`none` when the bound is reached. -/
def countLoop (s : State ν) : Nat → TaskletId → Int → Option Int
  | 0, _, _ => none
  | fuel + 1, t, count =>
      match (s.tasklets t).next with
      | some next => countLoop s fuel next (count + 1)
      | none => some (count + 1)

/-- `ScheduleManager::GetCalculatedTaskletCount`. -/
def getCalculatedTaskletCount (s : State ν) (fuel : Nat) : Option Int :=
  s.countLoop fuel mainTasklet 0

end State

/-- The pointers, scheduled flags and cached count of a state represent the run
queue `main :: queue`. -/
structure QueueRep (s : State ν) (queue : List TaskletId) : Prop where
  segment : Segment (fun t => (s.tasklets t).next) (fun t => (s.tasklets t).previous) none
    (mainTasklet :: queue) none
  nodup : (mainTasklet :: queue).Nodup
  last : s.previousTasklet = (mainTasklet :: queue).getLast?
  scheduled : ∀ t, (s.tasklets t).scheduled = true ↔ t ∈ mainTasklet :: queue
  count : s.numberOfTaskletsInQueue = queue.length

namespace QueueRep

variable {s : State ν} {queue : List TaskletId}

/-- Two representations of a state are the same queue. -/
theorem unique {queue' : List TaskletId} (rep : QueueRep s queue) (rep' : QueueRep s queue') :
    queue = queue' := by
  have whole := rep.segment.unique rep'.segment rfl
  exact (List.cons.inj whole).2

theorem countLoop_eq {before : Option TaskletId} {t : TaskletId} {rest : List TaskletId}
    (segment : Segment (fun t => (s.tasklets t).next) (fun t => (s.tasklets t).previous) before
      (t :: rest) none) (count : Int) {fuel : Nat} (enough : rest.length < fuel) :
    s.countLoop fuel t count = some (count + rest.length + 1) := by
  induction rest generalizing before t count fuel with
  | nil =>
      obtain ⟨fuel, rfl⟩ := Nat.exists_eq_add_one.mpr enough
      obtain ⟨-, next, -⟩ := segment
      simp only [List.head?_nil, Option.or_none] at next
      simp [State.countLoop, next]
  | cons following rest ih =>
      obtain ⟨fuel, rfl⟩ : ∃ smaller, fuel = smaller + 1 :=
        Nat.exists_eq_add_one.mpr (Nat.lt_of_le_of_lt (Nat.zero_le _) enough)
      obtain ⟨-, next, tail⟩ := segment
      simp only [List.head?_cons, Option.some_or] at next
      have shorter := ih tail (count + 1) (Nat.lt_of_succ_lt_succ enough)
      simp only [State.countLoop, next, shorter, List.length_cons]
      congr 1
      push_cast
      omega

/-- Only the queue fields of a state matter to its queue. -/
theorem congr {s' : State ν} (rep : QueueRep s queue)
    (next : ∀ t, (s'.tasklets t).next = (s.tasklets t).next)
    (previous : ∀ t, (s'.tasklets t).previous = (s.tasklets t).previous)
    (scheduled : ∀ t, (s'.tasklets t).scheduled = (s.tasklets t).scheduled)
    (last : s'.previousTasklet = s.previousTasklet)
    (count : s'.numberOfTaskletsInQueue = s.numberOfTaskletsInQueue) : QueueRep s' queue where
  segment := rep.segment.congr (fun t _ => next t) (fun t _ => previous t)
  nodup := rep.nodup
  last := last.trans rep.last
  scheduled := fun t => by rw [scheduled, rep.scheduled]
  count := count.trans rep.count

/-- The counting loop terminates and agrees with the cached count. -/
theorem getCalculatedTaskletCount_eq (rep : QueueRep s queue) {fuel : Nat}
    (enough : queue.length < fuel) :
    s.getCalculatedTaskletCount fuel = some s.getCachedTaskletCount := by
  rw [State.getCalculatedTaskletCount, countLoop_eq rep.segment 0 enough,
    State.getCachedTaskletCount, rep.count, Int.zero_add]

/-- The main tasklet heads the queue, so any other member is behind it. -/
theorem split_of_mem {t : TaskletId} (rep : QueueRep s queue) (member : t ∈ queue) :
    ∃ front back, queue = front ++ t :: back ∧ queue.erase t = front ++ back ∧
      t ∉ mainTasklet :: front := by
  obtain ⟨front, back, split⟩ := List.append_of_mem member
  have nodup := rep.nodup
  rw [split, ← List.cons_append] at nodup
  have outside := (List.nodup_cons.mp (List.nodup_middle.mp nodup)).1
  have notFront : t ∉ mainTasklet :: front := fun inside =>
    outside (List.mem_append_left _ inside)
  refine ⟨front, back, split, ?_, notFront⟩
  rw [split, List.erase_append_right _ (fun inside => notFront (.tail _ inside)),
    List.erase_cons_head]

/-- A tasklet linked directly behind `anchor`, which `following` used to be. -/
structure InsertedAfter (s s' : State ν) (anchor t : TaskletId) (following : Option TaskletId) :
    Prop where
  next : ∀ u, (s'.tasklets u).next =
    if u = anchor then some t else if u = t then following else (s.tasklets u).next
  previous : ∀ u, (s'.tasklets u).previous =
    if u = t then some anchor else if following = some u then some t
    else (s.tasklets u).previous
  scheduled : ∀ u, (s'.tasklets u).scheduled = ((s.tasklets u).scheduled || u == t)
  last : s'.previousTasklet =
    if s.previousTasklet = some anchor then some t else s.previousTasklet
  count : s'.numberOfTaskletsInQueue = s.numberOfTaskletsInQueue + 1

theorem insertAfter (rep : QueueRep s queue) {s' : State ν} {t anchor : TaskletId}
    {front back : List TaskletId} (split : mainTasklet :: queue = front ++ anchor :: back)
    (unscheduled : (s.tasklets t).scheduled = false)
    (inserted : InsertedAfter s s' anchor t back.head?) :
    ∃ queue', QueueRep s' queue' ∧ mainTasklet :: queue' = front ++ anchor :: t :: back := by
  have absent : t ∉ mainTasklet :: queue := by
    rw [← rep.scheduled, unscheduled]
    exact Bool.false_ne_true
  have segment := rep.segment
  have nodup := rep.nodup
  rw [split] at segment nodup absent
  rw [List.append_cons] at segment nodup
  obtain ⟨queue', whole⟩ : ∃ queue', mainTasklet :: queue' = front ++ anchor :: t :: back := by
    cases front with
    | nil => exact ⟨t :: back, by rw [List.nil_append, (List.cons.inj split).1]⟩
    | cons first front =>
        exact ⟨front ++ anchor :: t :: back, by rw [List.cons_append, (List.cons.inj split).1]⟩
  have spelled : front ++ anchor :: t :: back = (front ++ [anchor]) ++ t :: back := by simp
  refine ⟨queue', ⟨?_, ?_, ?_, ?_, ?_⟩, whole⟩
  case refine_1 =>
    have anchorNe : anchor ≠ t := fun same => absent (by simp [same])
    rw [whole, spelled]
    refine segment.insert nodup ?_ ?_ ?_ ?_ ?_ ?_
    · rw [inserted.next, if_neg anchorNe.symm, if_pos rfl]
    · rw [inserted.previous, if_pos rfl, List.getLast?_concat]
    · intro other isLast
      rw [List.getLast?_concat] at isLast
      rw [inserted.next, if_pos (Option.some.inj isLast).symm]
    · intro other isFirst
      have differs : other ≠ t := fun same =>
        absent (by simp [← same, List.mem_of_mem_head? isFirst])
      rw [inserted.previous, if_neg differs, if_pos isFirst]
    · intro other member notLast
      rw [List.getLast?_concat] at notLast
      have differs : other ≠ t := fun same => absent (by simpa [same] using member)
      rw [inserted.next, if_neg (fun same => notLast (congrArg some same.symm)), if_neg differs]
    · intro other member notFirst
      have differs : other ≠ t := fun same => absent (by simpa [same] using member)
      rw [inserted.previous, if_neg differs, if_neg notFirst]
  case refine_2 =>
    rw [whole, spelled, List.nodup_middle, List.nodup_cons]
    exact ⟨by simpa using absent, nodup⟩
  case refine_3 =>
    rw [inserted.last, rep.last, split, whole]
    cases back with
    | nil => simp
    | cons following rest =>
        have notAnchor : (following :: rest).getLast? ≠ some anchor := fun same =>
          (List.disjoint_of_nodup_append nodup) (by simp) (List.mem_of_mem_getLast? same)
        rw [List.getLast?_append_of_ne_nil _ (List.cons_ne_nil _ _), List.getLast?_cons_cons,
          if_neg notAnchor, List.getLast?_append_of_ne_nil _ (List.cons_ne_nil _ _),
          List.getLast?_cons_cons, List.getLast?_cons_cons]
  case refine_4 =>
    intro u
    have before := rep.scheduled u
    rw [split] at before
    rw [inserted.scheduled, whole, spelled, Bool.or_eq_true, before, beq_iff_eq]
    simp only [List.mem_append, List.mem_cons, List.not_mem_nil]
    tauto
  case refine_5 =>
    have lengths := congrArg List.length split
    have lengths' := congrArg List.length whole
    simp only [List.length_cons, List.length_append] at lengths lengths'
    rw [inserted.count, rep.count]
    omega

/-- `InsertTasklet` links an unscheduled tasklet behind the last one. -/
theorem inserted (rep : QueueRep s queue) {t : TaskletId}
    (unscheduled : (s.tasklets t).scheduled = false) :
    ∃ s' front last, s.insertTasklet t = some s' ∧ mainTasklet :: queue = front ++ [last] ∧
      InsertedAfter s s' last t none := by
  obtain ⟨front, last, split⟩ := (mainTasklet :: queue).eq_nil_or_concat.resolve_left
    (List.cons_ne_nil _ _)
  rw [List.concat_eq_append] at split
  have isLast : s.previousTasklet = some last := by rw [rep.last, split, List.getLast?_concat]
  have lastNe : last ≠ t := by
    intro same
    have queued := (rep.scheduled last).mpr (by simp [split])
    simp [same, unscheduled] at queued
  obtain ⟨s', done⟩ : ∃ s', s.insertTasklet t = some s' := by
    simp [State.insertTasklet, unscheduled, isLast]
  refine ⟨s', front, last, done, split, ?_⟩
  simp only [State.insertTasklet, unscheduled, isLast, Bool.false_eq_true, if_false,
    Option.some.injEq] at done
  subst done
  constructor
  case count => simp
  case last => simp [isLast]
  all_goals
    intro u
    by_cases atLast : u = last <;> by_cases new : u = t <;> simp_all

/-- `InsertTasklet` appends an unscheduled tasklet. -/
theorem insertTasklet (rep : QueueRep s queue) {t : TaskletId}
    (unscheduled : (s.tasklets t).scheduled = false) :
    ∃ s', s.insertTasklet t = some s' ∧ QueueRep s' (queue ++ [t]) := by
  obtain ⟨s', front, last, done, split, inserted⟩ := rep.inserted unscheduled
  obtain ⟨queue', rep', whole⟩ := rep.insertAfter split unscheduled inserted
  rw [List.append_cons, ← split, List.cons_append] at whole
  exact ⟨s', done, (List.cons.inj whole).2 ▸ rep'⟩

theorem insertedToRunNext {t : TaskletId} (unscheduled : (s.tasklets t).scheduled = false)
    (currentNe : s.currentTasklet ≠ t)
    (followingNe : (s.tasklets s.currentTasklet).next ≠ some t)
    (atEnd : s.previousTasklet = some s.currentTasklet ↔
      (s.tasklets s.currentTasklet).next = none) :
    InsertedAfter s (s.insertTaskletToRunNext t) s.currentTasklet t
      (s.tasklets s.currentTasklet).next := by
  have tNe := currentNe.symm
  cases after : (s.tasklets s.currentTasklet).next with
  | none =>
    have isLast := atEnd.mpr after
    clear followingNe atEnd
    constructor
    case count => simp [State.insertTaskletToRunNext, unscheduled, after, isLast, tNe]
    case last => simp [State.insertTaskletToRunNext, unscheduled, after, isLast, tNe]
    all_goals
      intro u
      by_cases atLast : u = s.currentTasklet <;> by_cases new : u = t <;>
        simp_all [State.insertTaskletToRunNext]
  | some next =>
    have notLast : s.previousTasklet ≠ some s.currentTasklet := by simp [atEnd, after]
    have nextNe : t ≠ next := by simpa [after, eq_comm] using followingNe
    clear followingNe atEnd
    constructor
    case count =>
      simp [State.insertTaskletToRunNext, unscheduled, after, notLast.symm, tNe, nextNe]
    case last =>
      simp [State.insertTaskletToRunNext, unscheduled, after, notLast.symm, notLast, tNe, nextNe]
    all_goals
      intro u
      simp only [State.insertTaskletToRunNext, unscheduled, after, notLast.symm, tNe, nextNe,
        State.modifyTasklet_tasklets, State.modifyTasklet_previousTasklet,
        State.setNumberOfTaskletsInQueue_tasklets, Bool.false_eq_true, if_false, ne_eq,
        not_false_eq_true, Function.update_of_ne, Function.update_self, Tasklet.setPrevious_next,
        Tasklet.setPrevious_previous, Tasklet.setNext_next]
      by_cases new : u = t
      · subst new
        simp [tNe]
      by_cases atCurrent : u = s.currentTasklet
      · subst atCurrent
        by_cases atNext : s.currentTasklet = next
        · simp [currentNe, ← atNext]
        · simp [currentNe, atNext, Ne.symm atNext]
      by_cases atNext : u = next
      · subst atNext
        simp [new, atCurrent]
      · simp [new, atCurrent, atNext, Ne.symm atNext]

/-- `InsertTaskletToRunNext` links an unscheduled tasklet behind the current one. -/
theorem insertedNext (rep : QueueRep s queue) {t : TaskletId} {front back : List TaskletId}
    (split : mainTasklet :: queue = front ++ s.currentTasklet :: back)
    (unscheduled : (s.tasklets t).scheduled = false) :
    InsertedAfter s (s.insertTaskletToRunNext t) s.currentTasklet t back.head? := by
  have segment := rep.segment
  have nodup := rep.nodup
  rw [split] at segment
  rw [split, List.nodup_append, List.nodup_cons] at nodup
  have following := segment.around.2
  have queued := (rep.scheduled s.currentTasklet).mpr (by simp [split])
  rw [← following]
  refine insertedToRunNext unscheduled ?_ ?_ ?_
  · intro same
    simp [same, unscheduled] at queued
  · rw [following]
    intro same
    have member := (rep.scheduled t).mpr (by simp [split, List.mem_of_mem_head? same])
    simp [unscheduled] at member
  · rw [following, rep.last, split]
    cases back with
    | nil => simp
    | cons first rest =>
        rw [List.getLast?_append_of_ne_nil _ (List.cons_ne_nil _ _), List.getLast?_cons_cons]
        refine iff_of_false (fun same => ?_) (by simp)
        exact nodup.2.1.1 (List.mem_of_mem_getLast? same)

/-- `InsertTaskletToRunNext` puts an unscheduled tasklet behind the current one. -/
theorem insertTaskletToRunNext (rep : QueueRep s queue) {t : TaskletId}
    {front back : List TaskletId}
    (split : mainTasklet :: queue = front ++ s.currentTasklet :: back)
    (unscheduled : (s.tasklets t).scheduled = false) :
    ∃ queue', QueueRep (s.insertTaskletToRunNext t) queue' ∧
      mainTasklet :: queue' = front ++ s.currentTasklet :: t :: back :=
  rep.insertAfter split unscheduled (rep.insertedNext split unscheduled)

/-- A tasklet unlinked from between `before` and `following`. -/
structure RemovedBetween (s s' : State ν) (before t : TaskletId) (following : Option TaskletId) :
    Prop where
  next : ∀ u, u ≠ t → (s'.tasklets u).next =
    if u = before then following else (s.tasklets u).next
  previous : ∀ u, u ≠ t → (s'.tasklets u).previous =
    if following = some u then some before else (s.tasklets u).previous
  scheduled : ∀ u, (s'.tasklets u).scheduled = ((s.tasklets u).scheduled && u != t)
  last : s'.previousTasklet = if following = none then some before else s.previousTasklet
  count : s'.numberOfTaskletsInQueue = s.numberOfTaskletsInQueue - 1
  own : (s'.tasklets t).next = none ∧ (s'.tasklets t).previous = none

theorem removedBetween {before t : TaskletId} {following : Option TaskletId}
    (previous : (s.tasklets t).previous = some before) (next : (s.tasklets t).next = following)
    (beforeNe : before ≠ t) (differs : following ≠ some before) (followingNe : following ≠ some t) :
    RemovedBetween s (s.removeTasklet t).1 before t following := by
  subst next
  have tNe := beforeNe.symm
  cases after : (s.tasklets t).next with
  | none =>
    constructor
    case last => simp [State.removeTasklet, State.modifyTasklet?, previous, after]
    case count => simp [State.removeTasklet, State.modifyTasklet?, previous, after]
    case own => simp [State.removeTasklet, State.modifyTasklet?, previous, after]
    all_goals
      intro u
      by_cases own : u = t <;> by_cases atBefore : u = before <;>
        simp_all [State.removeTasklet, State.modifyTasklet?]
  | some following =>
    have nextNe : t ≠ following := by simpa [after, eq_comm] using followingNe
    have nextNe' : before ≠ following := by simpa [after, eq_comm] using differs
    clear followingNe differs
    constructor
    case last => simp [State.removeTasklet, State.modifyTasklet?, previous, after, nextNe']
    case count => simp [State.removeTasklet, State.modifyTasklet?, previous, after, nextNe']
    case own => simp [State.removeTasklet, State.modifyTasklet?, previous, after, nextNe']
    all_goals
      intro u
      by_cases own : u = t
      · subst own
        simp [State.removeTasklet, State.modifyTasklet?, previous, after, nextNe']
      by_cases atNext : following = u
      · subst atNext
        simp [State.removeTasklet, State.modifyTasklet?, previous, after, nextNe', own,
          nextNe'.symm]
      by_cases atBefore : u = before
      · subst atBefore
        simp [State.removeTasklet, State.modifyTasklet?, previous, after, nextNe', own, atNext]
      · simp [State.removeTasklet, State.modifyTasklet?, previous, after, nextNe', own, atBefore,
          atNext, Ne.symm atNext]

theorem removeBetween (rep : QueueRep s queue) {s' : State ν} {t before : TaskletId}
    {front back : List TaskletId} (split : queue = front ++ t :: back)
    (isBefore : (mainTasklet :: front).getLast? = some before)
    (removed : RemovedBetween s s' before t back.head?) : QueueRep s' (front ++ back) := by
  have segment := rep.segment
  have nodup := rep.nodup
  rw [split, ← List.cons_append] at segment nodup
  have outside := (List.nodup_cons.mp (List.nodup_middle.mp nodup)).1
  have nodup' := (List.nodup_cons.mp (List.nodup_middle.mp nodup)).2
  have ne_of_mem : ∀ u ∈ (mainTasklet :: front) ++ back, u ≠ t := fun u inside same =>
    outside (same ▸ inside)
  constructor
  case segment =>
    rw [← List.cons_append]
    refine segment.remove nodup' ?_ ?_ ?_ ?_
    · intro last isLast
      have inside := List.mem_append_left back (List.mem_of_mem_getLast? isLast)
      rw [removed.next _ (ne_of_mem last inside),
        if_pos (Option.some.inj (isLast.symm.trans isBefore))]
    · intro first isFirst
      have inside := List.mem_append_right (mainTasklet :: front) (List.mem_of_mem_head? isFirst)
      rw [removed.previous _ (ne_of_mem first inside), if_pos isFirst, isBefore]
    · intro other inside notLast
      rw [removed.next _ (ne_of_mem other inside), if_neg]
      rintro rfl
      exact notLast isBefore
    · intro other inside notFirst
      rw [removed.previous _ (ne_of_mem other inside), if_neg notFirst]
  case nodup => exact nodup'
  case last =>
    rw [removed.last, rep.last, split]
    cases back with
    | nil => simpa using isBefore.symm
    | cons following rest =>
        rw [← List.cons_append, ← List.cons_append,
          List.getLast?_append_of_ne_nil _ (List.cons_ne_nil _ _),
          List.getLast?_append_of_ne_nil _ (List.cons_ne_nil _ _), List.getLast?_cons_cons]
        simp
  case scheduled =>
    intro u
    have queued := rep.scheduled u
    rw [split, ← List.cons_append] at queued
    rw [removed.scheduled, Bool.and_eq_true, queued, bne_iff_ne, ← List.cons_append]
    simp only [List.mem_append, List.mem_cons]
    constructor
    · rintro ⟨inside, other⟩
      tauto
    · intro inside
      refine ⟨by tauto, ne_of_mem u ?_⟩
      simpa [or_assoc] using inside
  case count =>
    rw [removed.count, rep.count, split]
    simp only [List.length_append, List.length_cons]
    omega

/-- Where a queued tasklet other than main stands. -/
theorem neighbours (rep : QueueRep s queue) {t : TaskletId} (member : t ∈ queue) :
    ∃ front back before, queue = front ++ t :: back ∧ queue.erase t = front ++ back ∧
      (mainTasklet :: front).getLast? = some before ∧
      (s.tasklets t).previous = some before ∧ (s.tasklets t).next = back.head? ∧
      before ≠ t ∧ back.head? ≠ some before ∧ back.head? ≠ some t := by
  obtain ⟨front, back, split, erased, notFront⟩ := rep.split_of_mem member
  have segment := rep.segment
  have nodup := rep.nodup
  rw [split, ← List.cons_append] at segment nodup
  obtain ⟨before, isBefore⟩ : ∃ before, (mainTasklet :: front).getLast? = some before :=
    ⟨_, List.getLast?_eq_getLast_of_ne_nil (List.cons_ne_nil _ _)⟩
  obtain ⟨previous, next⟩ := segment.around
  have inFront := List.mem_of_mem_getLast? isBefore
  refine ⟨front, back, before, split, erased, isBefore, previous.trans isBefore, next, ?_, ?_, ?_⟩
  · exact fun same => notFront (same ▸ inFront)
  · intro same
    exact (List.disjoint_of_nodup_append nodup) inFront
      (List.mem_cons_of_mem _ (List.mem_of_mem_head? same))
  · intro same
    exact (List.nodup_cons.mp (List.nodup_append.mp nodup).2.1).1 (List.mem_of_mem_head? same)

/-- A queued tasklet other than main was taken out of the queue. -/
def Removed (s s' : State ν) (queue : List TaskletId) (t : TaskletId) : Prop :=
  ∃ front back before, queue = front ++ t :: back ∧ queue.erase t = front ++ back ∧
    (mainTasklet :: front).getLast? = some before ∧ RemovedBetween s s' before t back.head?

theorem of_removed (rep : QueueRep s queue) {s' : State ν} {t : TaskletId}
    (removed : Removed s s' queue t) : QueueRep s' (queue.erase t) := by
  obtain ⟨front, back, before, split, erased, isBefore, between⟩ := removed
  rw [erased]
  exact rep.removeBetween split isBefore between

theorem removed (rep : QueueRep s queue) {t : TaskletId} (member : t ∈ queue) :
    Removed s (s.removeTasklet t).1 queue t := by
  obtain ⟨front, back, before, split, erased, isBefore, previous, next, beforeNe, differs, tNe⟩ :=
    rep.neighbours member
  exact ⟨front, back, before, split, erased, isBefore,
    removedBetween previous next beforeNe differs tNe⟩

/-- `RemoveTasklet` deletes exactly a queued tasklet other than main. -/
theorem removeTasklet (rep : QueueRep s queue) {t : TaskletId} (member : t ∈ queue) :
    QueueRep (s.removeTasklet t).1 (queue.erase t) :=
  rep.of_removed (rep.removed member)

theorem left (rep : QueueRep s queue) {t : TaskletId} (member : t ∈ queue)
    (parent : TaskletId) : Removed s (s.leaveQueue t parent) queue t := by
  obtain ⟨front, back, before, split, erased, isBefore, previous, next, beforeNe, differs, tNe⟩ :=
    rep.neighbours member
  -- the early update of the last pointer is the one the removal makes again
  obtain ⟨prepared, sameTasklets, sameCount, sameLast, unfolded⟩ :
      ∃ prepared : State ν, prepared.tasklets = s.tasklets ∧
        prepared.numberOfTaskletsInQueue = s.numberOfTaskletsInQueue ∧
        ((s.tasklets t).next ≠ none → prepared.previousTasklet = s.previousTasklet) ∧
        s.leaveQueue t parent =
          (prepared.removeTasklet t).1.modifyTasklet t (.setScheduled false) := by
    refine ⟨_, ?_, ?_, ?_, rfl⟩
    all_goals by_cases last : (s.tasklets t).next = none <;> simp [last]
  refine ⟨front, back, before, split, erased, isBefore, ?_⟩
  have removed : RemovedBetween prepared (prepared.removeTasklet t).1 before t back.head? :=
    removedBetween (by rw [sameTasklets, previous]) (by rw [sameTasklets, next]) beforeNe differs
      tNe
  rw [unfolded]
  constructor
  case next =>
    intro u other
    simp [other, removed.next, sameTasklets]
  case previous =>
    intro u other
    simp [other, removed.previous, sameTasklets]
  case scheduled =>
    intro u
    by_cases own : u = t <;> simp [own, removed.scheduled, sameTasklets]
  case last =>
    rw [State.modifyTasklet_previousTasklet, removed.last]
    split
    · rfl
    · next more => exact sameLast (next ▸ more)
  case count => simp [removed.count, sameCount]
  case own => simpa using removed.own

/-- The post-switch step takes the tasklet out of the queue. -/
theorem leaveQueue (rep : QueueRep s queue) {t : TaskletId} (member : t ∈ queue)
    (parent : TaskletId) : QueueRep (s.leaveQueue t parent) (queue.erase t) :=
  rep.of_removed (rep.left member parent)

end QueueRep

/-! ## What the operations leave alone -/

/-- The tasklet without its run-queue fields. -/
def Tasklet.eraseQueueLinks (tasklet : Tasklet ν) : Tasklet ν :=
  { tasklet with next := none, previous := none, scheduled := false }

namespace State

/-- The state without its run queue. -/
def eraseQueue (s : State ν) : State ν :=
  { s with
    tasklets := fun t => (s.tasklets t).eraseQueueLinks
    previousTasklet := none
    numberOfTaskletsInQueue := 0 }

/-- What does not look at the run queue agrees on states that differ there. -/
theorem eq_of_eraseQueue {β : Type*} {s s' : State ν} (view : State ν → β)
    (blind : ∀ s, view s.eraseQueue = view s) (same : s.eraseQueue = s'.eraseQueue) :
    view s = view s' := by
  rw [← blind s, same, blind]

theorem modifyTasklet_eraseQueue (s : State ν) (t : TaskletId) {change : Tasklet ν → Tasklet ν}
    (keeps : ∀ tasklet, (change tasklet).eraseQueueLinks = tasklet.eraseQueueLinks) :
    (s.modifyTasklet t change).eraseQueue = s.eraseQueue := by
  have tasklets : (fun u => (Function.update s.tasklets t (change (s.tasklets t)) u).eraseQueueLinks) =
      fun u => (s.tasklets u).eraseQueueLinks := by
    funext u
    rw [Function.update_apply]
    split
    · next same => rw [keeps, same]
    · rfl
  simp only [eraseQueue, modifyTasklet, tasklets]

@[simp] theorem setNext_eraseQueue (s : State ν) (t : TaskletId) (next : Option TaskletId) :
    (s.modifyTasklet t (.setNext next)).eraseQueue = s.eraseQueue :=
  s.modifyTasklet_eraseQueue t fun _ => rfl

@[simp] theorem setPrevious_eraseQueue (s : State ν) (t : TaskletId)
    (previous : Option TaskletId) :
    (s.modifyTasklet t (.setPrevious previous)).eraseQueue = s.eraseQueue :=
  s.modifyTasklet_eraseQueue t fun _ => rfl

@[simp] theorem setScheduled_eraseQueue (s : State ν) (t : TaskletId) (value : Bool) :
    (s.modifyTasklet t (.setScheduled value)).eraseQueue = s.eraseQueue :=
  s.modifyTasklet_eraseQueue t fun _ => rfl

@[simp] theorem setPreviousTasklet_eraseQueue (s : State ν) (t : Option TaskletId) :
    (s.setPreviousTasklet t).eraseQueue = s.eraseQueue :=
  rfl

@[simp] theorem setNumberOfTaskletsInQueue_eraseQueue (s : State ν) (number : Int) :
    (s.setNumberOfTaskletsInQueue number).eraseQueue = s.eraseQueue :=
  rfl

/-- A removal touches nothing but the run queue. -/
theorem removeTasklet_eraseQueue (s : State ν) (t : TaskletId) :
    (s.removeTasklet t).1.eraseQueue = s.eraseQueue := by
  simp only [removeTasklet]
  split
  · rfl
  · cases (s.tasklets t).previous <;> cases (s.tasklets t).next <;> simp [modifyTasklet?]

theorem leaveQueue_eraseQueue (s : State ν) (t parent : TaskletId) :
    (s.leaveQueue t parent).eraseQueue = (s.setCurrentTasklet parent).eraseQueue := by
  simp only [leaveQueue, setScheduled_eraseQueue, removeTasklet_eraseQueue]
  split
  · rfl
  · rfl

/-- Unblocking commutes with what the run queue changes. -/
theorem unblock_eraseQueue {s s' : State ν} (same : s.eraseQueue = s'.eraseQueue)
    (t : TaskletId) :
    (s.modifyTasklet t .unblock).eraseQueue = (s'.modifyTasklet t .unblock).eraseQueue := by
  have pull : ∀ s : State ν, (s.modifyTasklet t .unblock).eraseQueue =
      s.eraseQueue.modifyTasklet t .unblock := by
    intro s
    simp only [eraseQueue, modifyTasklet]
    congr 1
    funext u
    by_cases at_t : u = t
    · subst at_t
      simp [Tasklet.eraseQueueLinks, Tasklet.unblock]
    · simp [at_t]
  rw [pull, pull, same]

theorem insertTaskletToRunNext_eraseQueue {s : State ν} {t : TaskletId}
    (unscheduled : (s.tasklets t).scheduled = false) :
    (s.insertTaskletToRunNext t).eraseQueue = (s.modifyTasklet t .unblock).eraseQueue := by
  simp only [insertTaskletToRunNext, unscheduled, Bool.false_eq_true, if_false,
    setNumberOfTaskletsInQueue_eraseQueue, setScheduled_eraseQueue]
  apply unblock_eraseQueue
  split
  all_goals split <;> simp

theorem insertTasklet_eraseQueue {s s' : State ν} {t : TaskletId}
    (unscheduled : (s.tasklets t).scheduled = false) (done : s.insertTasklet t = some s') :
    s'.eraseQueue = (s.modifyTasklet t .unblock).eraseQueue := by
  simp only [insertTasklet, unscheduled, Bool.false_eq_true, if_false] at done
  split at done
  · cases done
  · cases done
    simp only [setNumberOfTaskletsInQueue_eraseQueue, setScheduled_eraseQueue]
    apply unblock_eraseQueue
    simp

end State

namespace QueueRep

variable {s : State ν} {queue : List TaskletId}

/-- A tasklet that is on no queue is not scheduled. -/
theorem unscheduled_of_not_mem (rep : QueueRep s queue) {t : TaskletId}
    (absent : t ∉ mainTasklet :: queue) : (s.tasklets t).scheduled = false := by
  rw [← rep.scheduled] at absent
  simpa using absent

theorem not_mem_erase (rep : QueueRep s queue) {t : TaskletId} (member : t ∈ queue) :
    t ∉ mainTasklet :: queue.erase t := by
  obtain ⟨notMain, nodup⟩ := List.nodup_cons.mp rep.nodup
  intro inside
  cases inside with
  | head => exact notMain member
  | tail _ inside => exact (List.Nodup.mem_erase_iff nodup).mp inside |>.1 rfl

/-- Changing the reschedule request leaves the queue alone. -/
theorem setReschedule (rep : QueueRep s queue) (t : TaskletId) (value : RescheduleType) :
    QueueRep (s.modifyTasklet t (.setReschedule value)) queue := by
  refine rep.congr ?_ ?_ ?_ rfl rfl
  all_goals
    intro u
    by_cases same : u = t <;> simp [same]

/-- The remove and reinsert dance of `FRONT_PLUS_ONE` puts a tasklet behind the
one that follows the current tasklet. -/
theorem insertBehindFront (rep : QueueRep s queue) {t follower : TaskletId}
    {front back : List TaskletId} (absent : t ∉ mainTasklet :: queue)
    (split : mainTasklet :: queue = front ++ s.currentTasklet :: follower :: back) :
    ∃ queue', QueueRep (((s.removeTasklet follower).1.insertTaskletToRunNext
        t).insertTaskletToRunNext follower) queue' ∧
      mainTasklet :: queue' = front ++ s.currentTasklet :: follower :: t :: back := by
  have nodup := rep.nodup
  have behind : ∃ rest, front ++ s.currentTasklet :: follower :: back = mainTasklet :: rest ∧
      follower ∈ rest := by
    cases front with
    | nil => exact ⟨follower :: back, by rw [List.nil_append, (List.cons.inj split).1], by simp⟩
    | cons first front =>
        exact ⟨front ++ s.currentTasklet :: follower :: back,
          by rw [List.cons_append, (List.cons.inj split).1], by simp⟩
  obtain ⟨rest, spelled, followerQueued⟩ := behind
  obtain rfl : queue = rest := (List.cons.inj (split.trans spelled)).2
  have followerNe : follower ≠ mainTasklet := fun same =>
    (List.nodup_cons.mp nodup).1 (same ▸ followerQueued)
  have removed := rep.removeTasklet followerQueued
  have outside : follower ∉ (front ++ [s.currentTasklet]) ++ back := by
    rw [split, List.append_cons] at nodup
    exact (List.nodup_cons.mp (List.nodup_middle.mp nodup)).1
  have removedSplit : mainTasklet :: queue.erase follower =
      front ++ s.currentTasklet :: back := by
    rw [← List.erase_cons_tail (by simpa using followerNe.symm), split, List.append_cons,
      List.erase_append_right _ (fun inside => outside (List.mem_append_left _ inside)),
      List.erase_cons_head, List.append_assoc, List.singleton_append]
  have current : (s.removeTasklet follower).1.currentTasklet = s.currentTasklet :=
    State.eq_of_eraseQueue State.currentTasklet (fun _ => rfl)
      (s.removeTasklet_eraseQueue follower)
  rw [← current] at removedSplit
  have absent' : t ∉ mainTasklet :: queue.erase follower := by
    intro inside
    cases inside with
    | head => exact absent (.head _)
    | tail _ inside => exact absent (.tail _ (List.mem_of_mem_erase inside))
  have tUnscheduled := removed.unscheduled_of_not_mem absent'
  obtain ⟨queue₁, rep₁, split₁⟩ := removed.insertTaskletToRunNext removedSplit tUnscheduled
  have current₁ : ((s.removeTasklet follower).1.insertTaskletToRunNext t).currentTasklet =
      (s.removeTasklet follower).1.currentTasklet :=
    (State.eq_of_eraseQueue State.currentTasklet (fun _ => rfl)
      (State.insertTaskletToRunNext_eraseQueue tUnscheduled)).trans rfl
  rw [← current₁] at split₁
  have followerAbsent : follower ∉ mainTasklet :: queue₁ := by
    have tNe : follower ≠ t := fun same => absent (.tail _ (same ▸ followerQueued))
    rw [split₁, current₁, current]
    simp only [List.mem_append, List.mem_cons, List.not_mem_nil] at outside ⊢
    tauto
  obtain ⟨queue₂, rep₂, split₂⟩ := rep₁.insertTaskletToRunNext split₁
    (rep₁.unscheduled_of_not_mem followerAbsent)
  rw [current₁, current] at split₂
  exact ⟨queue₂, rep₂, split₂⟩

/-- `RemoveTasklet` reports the removal of a queued tasklet. -/
theorem removeTasklet_reports (rep : QueueRep s queue) {t : TaskletId} (member : t ∈ queue) :
    (s.removeTasklet t).2 = true := by
  obtain ⟨_, back, before, -, -, -, previous, next, -, differs, -⟩ := rep.neighbours member
  have apart : ¬ (s.tasklets t).previous = (s.tasklets t).next := by
    rw [previous, next]
    exact differs.symm
  simp [State.removeTasklet, apart]

end QueueRep

/-- A state holds the run queue `queue'`, which is `queue` up to the place of `t`,
and its two counts agree. -/
structure Requeued (s' : State ν) (queue queue' : List TaskletId) (t : TaskletId) : Prop where
  rep : QueueRep s' queue'
  others : queue'.erase t = queue.erase t
  counts : ∀ fuel, queue'.length < fuel →
    s'.getCalculatedTaskletCount fuel = some s'.getCachedTaskletCount

namespace QueueRep

variable {s s' : State ν} {queue queue' : List TaskletId}

theorem requeued (rep : QueueRep s' queue') {t : TaskletId}
    (others : queue'.erase t = queue.erase t) : Requeued s' queue queue' t :=
  ⟨rep, others, fun _ enough => rep.getCalculatedTaskletCount_eq enough⟩

theorem rescheduled (rep : QueueRep s queue) {t parent : TaskletId} (member : t ∈ queue)
    (isParent : (s.tasklets t).taskletParent = some parent) :
    s.runPostSwitch t = (s.leaveQueue t parent).rescheduleTasklet t ∧
      ((s.leaveQueue t parent).tasklets t).reschedule = (s.tasklets t).reschedule ∧
      (s.leaveQueue t parent).currentTasklet = parent ∧
      QueueRep (s.leaveQueue t parent) (queue.erase t) ∧
      ((s.leaveQueue t parent).tasklets t).scheduled = false := by
  have left := rep.leaveQueue member parent
  have erased := s.leaveQueue_eraseQueue t parent
  refine ⟨by simp [State.runPostSwitch, isParent], ?_, ?_, left,
    left.unscheduled_of_not_mem (rep.not_mem_erase member)⟩
  · exact (State.eq_of_eraseQueue (fun s => (s.tasklets t).reschedule) (fun _ => rfl)
      erased).trans rfl
  · exact State.eq_of_eraseQueue State.currentTasklet (fun _ => rfl) erased

/-- The post-switch step leaves a tasklet without a reschedule request out. -/
theorem runPostSwitch_none (rep : QueueRep s queue) {t parent : TaskletId} (member : t ∈ queue)
    (isParent : (s.tasklets t).taskletParent = some parent)
    (request : (s.tasklets t).reschedule = .none) :
    ∃ s', s.runPostSwitch t = some s' ∧ QueueRep s' (queue.erase t) := by
  obtain ⟨unfolded, kept, -, left, -⟩ := rep.rescheduled member isParent
  refine ⟨s.leaveQueue t parent, ?_, left⟩
  rw [unfolded, State.rescheduleTasklet, kept, request]
  rfl

/-- The post-switch step appends a tasklet that asked for the back. -/
theorem runPostSwitch_back (rep : QueueRep s queue) {t parent : TaskletId} (member : t ∈ queue)
    (isParent : (s.tasklets t).taskletParent = some parent)
    (request : (s.tasklets t).reschedule = .back) :
    ∃ s', s.runPostSwitch t = some s' ∧ QueueRep s' (queue.erase t ++ [t]) := by
  obtain ⟨unfolded, kept, -, left, unscheduled⟩ := rep.rescheduled member isParent
  obtain ⟨inserted, done, rep'⟩ := left.insertTasklet unscheduled
  refine ⟨inserted.modifyTasklet t (.setReschedule .none), ?_, rep'.setReschedule t .none⟩
  rw [unfolded, State.rescheduleTasklet, kept, request]
  simp [done]

/-- The post-switch step puts a tasklet that asked for the second place behind the
follower of its parent. -/
theorem runPostSwitch_frontPlusOne (rep : QueueRep s queue) {t parent follower : TaskletId}
    {front back : List TaskletId} (member : t ∈ queue)
    (isParent : (s.tasklets t).taskletParent = some parent)
    (request : (s.tasklets t).reschedule = .frontPlusOne)
    (split : mainTasklet :: queue.erase t = front ++ parent :: follower :: back) :
    ∃ s' queue', s.runPostSwitch t = some s' ∧ QueueRep s' queue' ∧
      mainTasklet :: queue' = front ++ parent :: follower :: t :: back := by
  obtain ⟨unfolded, kept, current, left, -⟩ := rep.rescheduled member isParent
  rw [← current] at split
  have segment := left.segment
  rw [split] at segment
  have following := segment.around.2
  rw [List.head?_cons] at following
  obtain ⟨queue', rep', split'⟩ := left.insertBehindFront (rep.not_mem_erase member) split
  rw [current] at split'
  refine ⟨_, queue', ?_, rep'.setReschedule t .none, split'⟩
  rw [unfolded, State.rescheduleTasklet, kept, request]
  simp [following]

end QueueRep

/-- Taking an inserted tasklet out again gives the old queue. -/
theorem erase_inserted {t : TaskletId} {queue queue' front back : List TaskletId}
    (absent : t ∉ mainTasklet :: queue) (old : mainTasklet :: queue = front ++ back)
    (new : mainTasklet :: queue' = front ++ t :: back) : queue'.erase t = queue := by
  have notMain : mainTasklet ≠ t := fun same => absent (same ▸ .head _)
  have notFront : t ∉ front := fun inside => absent (old ▸ List.mem_append_left back inside)
  have erased := congrArg (List.erase · t) new
  simp only [List.erase_append_right _ notFront, List.erase_cons_head] at erased
  rw [List.erase_cons_tail (by simpa using notMain), ← old] at erased
  exact (List.cons.inj erased).2

/-- The run-queue operations and the post-switch step of the run loop refine the
list operations they stand for. -/
theorem runQueue_refines {s : State ν} {queue : List TaskletId} (rep : QueueRep s queue) :
    (∀ t, (s.tasklets t).scheduled = false →
      ∃ s', s.insertTasklet t = some s' ∧ Requeued s' queue (queue ++ [t]) t) ∧
    (∀ t front back, (s.tasklets t).scheduled = false →
      mainTasklet :: queue = front ++ s.currentTasklet :: back →
      ∃ queue', mainTasklet :: queue' = front ++ s.currentTasklet :: t :: back ∧
        Requeued (s.insertTaskletToRunNext t) queue queue' t) ∧
    (∀ t ∈ queue, (s.removeTasklet t).2 = true ∧
      Requeued (s.removeTasklet t).1 queue (queue.erase t) t) ∧
    (∀ t ∈ queue, ∀ parent, (s.tasklets t).taskletParent = some parent →
      ((s.tasklets t).reschedule = .none →
        ∃ s', s.runPostSwitch t = some s' ∧ Requeued s' queue (queue.erase t) t) ∧
      ((s.tasklets t).reschedule = .back →
        ∃ s', s.runPostSwitch t = some s' ∧ Requeued s' queue (queue.erase t ++ [t]) t) ∧
      ((s.tasklets t).reschedule = .frontPlusOne → ∀ front follower back,
        mainTasklet :: queue.erase t = front ++ parent :: follower :: back →
        ∃ s' queue', s.runPostSwitch t = some s' ∧
          mainTasklet :: queue' = front ++ parent :: follower :: t :: back ∧
          Requeued s' queue queue' t)) := by
  have absent : ∀ t, (s.tasklets t).scheduled = false → t ∉ mainTasklet :: queue := by
    intro t unscheduled
    rw [← rep.scheduled, unscheduled]
    exact Bool.false_ne_true
  have erase_absent : ∀ t, t ∉ mainTasklet :: queue → queue.erase t = queue := fun t outside =>
    List.erase_of_not_mem fun inside => outside (.tail _ inside)
  refine ⟨?_, ?_, ?_, ?_⟩
  · intro t unscheduled
    obtain ⟨s', done, rep'⟩ := rep.insertTasklet unscheduled
    have outside := absent t unscheduled
    refine ⟨s', done, rep'.requeued ?_⟩
    rw [erase_absent t outside]
    exact erase_inserted outside (List.append_nil (mainTasklet :: queue)).symm
      (List.cons_append ..).symm
  · intro t front back unscheduled split
    obtain ⟨queue', rep', split'⟩ := rep.insertTaskletToRunNext split unscheduled
    have outside := absent t unscheduled
    refine ⟨queue', split', rep'.requeued ?_⟩
    rw [erase_absent t outside]
    rw [List.append_cons] at split split'
    exact erase_inserted outside split split'
  · intro t member
    refine ⟨rep.removeTasklet_reports member, (rep.removeTasklet member).requeued ?_⟩
    exact List.erase_of_not_mem fun inside => rep.not_mem_erase member (.tail _ inside)
  · intro t member parent isParent
    have outside := rep.not_mem_erase member
    refine ⟨fun request => ?_, fun request => ?_, fun request front follower back split => ?_⟩
    · obtain ⟨s', done, rep'⟩ := rep.runPostSwitch_none member isParent request
      refine ⟨s', done, rep'.requeued ?_⟩
      exact List.erase_of_not_mem fun inside => outside (.tail _ inside)
    · obtain ⟨s', done, rep'⟩ := rep.runPostSwitch_back member isParent request
      refine ⟨s', done, rep'.requeued ?_⟩
      exact erase_inserted outside (List.append_nil (mainTasklet :: queue.erase t)).symm
        (List.cons_append ..).symm
    · obtain ⟨s', queue', done, rep', split'⟩ :=
        rep.runPostSwitch_frontPlusOne member isParent request split
      refine ⟨s', queue', done, split', rep'.requeued ?_⟩
      rw [List.append_cons, List.append_cons] at split split'
      exact erase_inserted outside split split'

/-- A freshly created schedule manager has only the main tasklet queued. -/
theorem State.initial_queueRep (clock : Nat → Int) : QueueRep (State.initial (ν := ν) clock) [] where
  segment := by simp [segment_singleton, State.initial, Tasklet.main]
  nodup := by simp
  last := rfl
  scheduled := by
    intro t
    by_cases main : t = mainTasklet <;> simp [State.initial, Tasklet.main, main]
  count := rfl

theorem runQueue_refines_two_tasklets :
    ∃ s₁ s₂ : State Unit, (State.initial fun _ => 0).insertTasklet 1 = some s₁ ∧
      s₁.insertTasklet 2 = some s₂ ∧ Requeued s₂ [1] [1, 2] 2 := by
  obtain ⟨s₁, done₁, requeued₁⟩ :=
    (runQueue_refines (State.initial_queueRep (ν := Unit) fun _ => 0)).1 1 rfl
  obtain ⟨s₂, done₂, requeued₂⟩ := (runQueue_refines requeued₁.rep).1 2 (by cases done₁; rfl)
  exact ⟨s₁, s₂, done₁, done₂, requeued₂⟩

end CarbonLab.Scheduler
