import CarbonLab.Scheduler.OrderedRuns

/-!
# Blocked or runnable, not both

Membership in a blocked list is recorded in the list itself, in the blocked flag
and in the channel pointer, and a blocked tasklet must not be in the run queue.
Wherever Python code runs the four agree, in every run that keeps to regular
steps; a pending throw into a blocked tasklet is one that does not.
-/

namespace CarbonLab.Scheduler

open LinkedList Transition

variable {ν : Type} {promise : Promise}

/-- The tasklet waits in the run queue: following the pointers from main meets it. -/
def State.WaitsInRunQueue (s : State ν) (t : TaskletId) : Prop :=
  OnList (fun u => (s.tasklets u).next) (s.tasklets mainTasklet).next t

theorem QueueRep.waitsInRunQueue_iff {s : State ν} {queue : List TaskletId}
    (rep : QueueRep s queue) (t : TaskletId) : s.WaitsInRunQueue t ↔ t ∈ queue := by
  obtain ⟨-, next, tail⟩ := rep.segment
  simp only [Option.or_none] at next
  rw [State.WaitsInRunQueue, next]
  exact tail.onList_iff t

/-- Blocked lists, blocked flags, channel pointers and run queue agree. -/
structure Config.RunBlockedExclusive (k : Config ν) : Prop where
  listed : ∀ t c, (∃ d, k.state.OnBlockedList c d t) ↔
    (k.state.tasklets t).blocked = true ∧ (k.state.tasklets t).channelBlockedOn = some c
  single : ∀ t c c' d d', k.state.OnBlockedList c d t → k.state.OnBlockedList c' d' t → c = c'
  waiting : ∀ t c d, k.state.OnBlockedList c d t → t ≠ k.running → ¬ k.state.WaitsInRunQueue t

/-- Where Python code runs in an orderly configuration, the lists exclude each
other. -/
theorem Resting.runBlockedExclusive {k : Config ν} {chain : List TaskletId}
    (resting : Resting promise k chain) : k.RunBlockedExclusive where
  listed := by
    obtain ⟨lists, rep, listed⟩ := resting.rest.exclusive.lists
    intro t c
    rw [← listed t (by simp) c]
    simp only [rep.onBlockedList_iff]
  single := by
    intro t c c' d d' here there
    have channel := (resting.rest.exclusive.onList_blocked here).2
    rw [(resting.rest.exclusive.onList_blocked there).2] at channel
    exact (Option.some.inj channel).symm
  waiting := by
    intro t c d onList _
    obtain ⟨queue, rep⟩ := resting.entered.queued.rep
    rw [rep.waitsInRunQueue_iff]
    intro member
    have notMain : t ≠ mainTasklet := fun main =>
      (List.nodup_cons.mp rep.nodup).1 (main ▸ member)
    have unscheduled := resting.rest.exclusive.waiting t notMain (by simp)
      (resting.rest.exclusive.onList_blocked onList).1
    exact Bool.false_ne_true (unscheduled.symm.trans ((rep.scheduled t).mpr (.tail _ member)))

/-- A step that does not get the lists out of order, also where letting go of a live
greenlet would unwind it. -/
def Config.Tidy (k : Config ν) (label : Option (Action ν)) : Prop :=
  k.DropsGreenlet label = false ∧ k.Regular label

instance (k : Config ν) (label : Option (Action ν)) : Decidable (k.Tidy label) :=
  inferInstanceAs (Decidable (_ ∧ _))

/-- A run of regular steps keeps configurations orderly. -/
theorem ordered_of_reachable {clock : Nat → Int} {nested : Bool} {k : Config ν}
    (reached : Reachable Config.step Config.Regular (Config.initial clock nested) k) :
    Ordered ⟨False, False⟩ k :=
  reached.invariant (Config.initial_ordered clock nested False.elim)
    fun _ _ _ ordered regular taken =>
      ordered.step regular (fun _ => id) False.elim False.elim taken

/-- **Run/blocked exclusivity.** Whatever the greenlet library does with a live greenlet,
in every run of tidy steps, wherever Python code runs, a tasklet is on the blocked list
of a channel exactly when it is blocked on that channel, it is on no other list, and it
does not wait in the run queue. -/
theorem reachable_runBlockedExclusive {unwind : Unwinding ν} {clock : Nat → Int} {nested : Bool}
    {k : Config ν}
    (reached : Reachable (fun k => Config.stepWith k unwind) Config.Tidy
      (Config.initial clock nested) k)
    (python : k.control = .python) : k.RunBlockedExclusive := by
  have regular : Reachable Config.step Config.Regular (Config.initial clock nested) k :=
    (reached.congr_step fun _ _ tidy => Config.stepWith_eq_step tidy.1 unwind).mono
      fun _ _ => And.right
  obtain ⟨chain, resting, -⟩ := (ordered_of_reachable regular).resting python
  exact resting.runBlockedExclusive

/-- A tasklet blocked in a receive while main runs. -/
theorem reachable_runBlockedExclusive_receiver :
    ∃ k : Config Unit, k.state.OnBlockedList 0 .receiver 1 ∧ k.RunBlockedExclusive := by
  have ran : (runLabels (fun k => Config.stepWith k .never) (fun k label => decide (k.Tidy label))
      (Config.initial (fun _ => 0) true)
      [some (.create true), none, some (.setup 1 (some true) none), none, some (.run 1),
        some (.receive 0), none, none, none]).map
      (fun k : Config Unit => (k.control, (k.state.channels 0).blockedOnReceive.first)) =
      some (.python, some 1) := by
    decide +kernel
  obtain ⟨k, done, facts⟩ := Option.map_eq_some_iff.mp ran
  simp only [Prod.mk.injEq] at facts
  obtain ⟨python, first⟩ := facts
  refine ⟨k, ?_, reachable_runBlockedExclusive ((Reachable.of_runLabels .refl done).mono
    fun _ _ => of_decide_eq_true) python⟩
  rw [State.OnBlockedList, show ((k.state.channels 0).ends .receiver).first = some 1 from first]
  exact (onList_some _ _).mpr (.inl rfl)

/-- The operations on tasklets and channels that move tasklets between the lists. -/
def Action.isListOperation : Action ν → Bool
  | .create _ | .bind _ _ _ _ | .setup _ _ _ | .insert _ | .remove _ | .run _ | .switch _
  | .schedule | .send _ _ | .receive _ | .kill _ _ | .throw _ _ _ | .clear _ _ => true
  | _ => false

/-- A tasklet blocks in a receive and gets a pending throw: it is unblocked and
queued and stays on the blocked list. -/
def pendingThrowLabels : List (Option (Action Unit)) :=
  [some (.create true), none, some (.setup 1 (some true) none), none, some (.run 1),
    some (.receive 0), none, none, none, some (.throw 1 (.object ()) true), none]

theorem pendingThrow_not_exclusive :
    ∃ k : Config Unit, Reachable (fun k => Config.stepWith k .never)
      (fun _ label => label.all Action.isListOperation = true)
      (Config.initial (fun _ => 0) true) k ∧ k.control = .python ∧ ¬ k.RunBlockedExclusive := by
  have ran : (runLabels (fun k => Config.stepWith k .never)
      (fun _ label => label.all Action.isListOperation)
      (Config.initial (fun _ => 0) true) pendingThrowLabels).map
      (fun k => (k.control, (k.state.tasklets 1).blocked,
        (k.state.channels 0).blockedOnReceive.first)) = some (.python, false, some 1) := by
    decide +kernel
  obtain ⟨k, done, facts⟩ := Option.map_eq_some_iff.mp ran
  simp only [Prod.mk.injEq] at facts
  obtain ⟨python, unblocked, first⟩ := facts
  refine ⟨k, Reachable.of_runLabels .refl done, python, fun exclusive => ?_⟩
  have onList : k.state.OnBlockedList 0 .receiver 1 := by
    rw [State.OnBlockedList, show ((k.state.channels 0).ends .receiver).first = some 1 from first]
    exact (onList_some _ _).mpr (.inl rfl)
  have blocked := ((exclusive.listed 1 0).mp ⟨_, onList⟩).1
  rw [unblocked] at blocked
  cases blocked

end CarbonLab.Scheduler
