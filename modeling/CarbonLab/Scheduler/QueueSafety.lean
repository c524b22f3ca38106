import CarbonLab.Scheduler.Requests

/-!
# Public calls and the run queue

Inserting, removing, running and killing tasklets keeps the run queue whole as
long as no active tasklet is taken out of it: not by `remove`, and where tasklets
do not nest not by `run` or `kill`.  Main can not be run or killed from another
tasklet, it has no place behind another one.
-/

namespace CarbonLab.Scheduler

open Transition

variable {ν : Type} {promise : Promise}

/-- The calls that work on the run queue, those that make tasklets to work on, and
the ends of bodies. -/
def Action.isQueueOperation : Action ν → Bool
  | .create _ | .bind _ _ _ _ | .unBind _ | .setup _ _ _ | .insert _ | .remove _ | .run _
  | .kill _ _ | .schedule | .schedulerRun | .finish | .raise _ => true
  | _ => false

namespace Config

/-- The call does not take an active tasklet out of the queue and does not run or
kill main. -/
def SparesQueue (k : Config ν) : Action ν → Prop
  | .remove t => ¬ k.IsActive t
  | .run t => (k.state.tasklets t).alive = true →
      t ≠ mainTasklet ∧ (k.state.useNestedTasklets = false → ¬ k.IsActive t)
  | .kill t pending => (k.state.tasklets t).alive = true → k.state.currentTasklet ≠ t →
      if pending then k.state.useNestedTasklets = false → t ≠ mainTasklet
      else t ≠ mainTasklet ∧ (k.state.useNestedTasklets = false → ¬ k.IsActive t)
  | _ => True

instance (k : Config ν) (action : Action ν) : Decidable (k.SparesQueue action) :=
  match action with
  | .remove t => (inferInstance : Decidable (¬ k.IsActive t))
  | .run t => (inferInstance : Decidable ((k.state.tasklets t).alive = true →
      t ≠ mainTasklet ∧ (k.state.useNestedTasklets = false → ¬ k.IsActive t)))
  | .kill t pending => (inferInstance : Decidable ((k.state.tasklets t).alive = true →
      k.state.currentTasklet ≠ t →
      if pending then k.state.useNestedTasklets = false → t ≠ mainTasklet
      else t ≠ mainTasklet ∧ (k.state.useNestedTasklets = false → ¬ k.IsActive t)))
  | .create _ | .bind .. | .unBind _ | .setup .. | .insert _ | .switch _ | .throw ..
  | .schedule | .scheduleRemove | .schedulerRun | .runNTasklets _ | .runTaskletsForTime _
  | .send .. | .receive _ | .clear .. | .close _ | .open _ | .setPreference ..
  | .setBlocktrap .. | .switchTrap _ | .setUseNestedTasklets _ | .finish | .raise _ =>
      (inferInstance : Decidable True)

/-- A step of a run that works on the queue. -/
def WorksOnQueue (_ : Config ν) (label : Option (Action ν)) : Prop :=
  label.all Action.isQueueOperation = true

/-- A step that works on the queue and spares the active tasklets. -/
def WorksWithCare (k : Config ν) : Option (Action ν) → Prop
  | some action => action.isQueueOperation = true ∧ k.SparesQueue action
  | none => True

instance (k : Config ν) (label : Option (Action ν)) : Decidable (k.WorksWithCare label) := by
  cases label <;> unfold WorksWithCare <;> infer_instance

/-- The run queue is whole and no null pointer was dereferenced: main and the queued
tasklets form a finite chain, which ends in `m_previousTasklet` and holds exactly
the scheduled tasklets, and counting it terminates with the cached count. -/
structure QueueWhole (k : Config ν) : Prop where
  alive : k.control ≠ .crashed
  chain : ∃ queue, QueueRep k.state queue ∧
    (∃ last, k.state.previousTasklet = some last ∧
      (mainTasklet :: queue).getLast? = some last) ∧
    ∀ fuel, queue.length < fuel →
      k.state.getCalculatedTaskletCount fuel = some k.state.getCachedTaskletCount

end Config

theorem Config.modifyTasklet_modifyTasklet (k : Config ν) (t : TaskletId)
    (first second : Tasklet ν → Tasklet ν) :
    (k.modifyTasklet t first).modifyTasklet t second = k.modifyTasklet t (second ∘ first) := by
  simp [Config.modifyTasklet, State.modifyTasklet]

/-- A tasklet as the calls that work on the queue leave it. -/
structure Tasklet.Tame (tasklet : Tasklet ν) : Prop where
  unblocked : tasklet.blocked = false
  exits : ∀ error, tasklet.exceptionState = some error → error = .taskletExit

theorem Tasklet.Tame.undisturbed {tasklet tasklet' : Tasklet ν} (tame : tasklet.Tame)
    (undisturbed : tasklet.Undisturbed tasklet') : tasklet'.Tame where
  unblocked := by
    by_contra blocked
    have before := (undisturbed.blocked (by simpa using blocked)).1
    exact Bool.false_ne_true (tame.unblocked.symm.trans before)
  exits := fun error exception => by
    rcases undisturbed.exception with same | cleared
    · exact tame.exits error (same.symm.trans exception)
    · rw [cleared] at exception
      cases exception

/-- The part of the invariant that is about single tasklets and frames. -/
structure Tame (flat : Prop) (k : Config ν) : Prop where
  tasklets : ∀ t, (k.state.tasklets t).Tame
  main : flat → (k.state.tasklets mainTasklet).exceptionState = none
  trap : k.state.switchTrapLevel = 0
  mode : ¬ flat → k.state.useNestedTasklets = true
  frames : ∀ t, ∀ frame ∈ k.stack t,
    frame.isSwitching = true ∨ ∃ u channel, frame = .kill u false channel

namespace Tame

variable {flat : Prop} {k k' : Config ν}

theorem schedules (tame : Tame flat k) (schedules : Schedules k k') : Tame flat k' where
  tasklets := fun t => (tame.tasklets t).undisturbed (schedules.state.tasklets t)
  main := fun isFlat => by
    rcases (schedules.state.tasklets mainTasklet).exception with same | cleared
    · rw [same]
      exact tame.main isFlat
    · exact cleared
  trap := schedules.state.trap.trans tame.trap
  mode := fun nested => schedules.state.nested.trans (tame.mode nested)
  frames := fun t frame member => by
    rcases schedules.frames t frame member with older | switching
    · exact tame.frames t frame older
    · exact .inl switching

theorem modifyTasklet (tame : Tame flat k) (t : TaskletId) {change : Tasklet ν → Tasklet ν}
    (keeps : (k.state.tasklets t).Tame → (change (k.state.tasklets t)).Tame)
    (main : flat → t = mainTasklet → (change (k.state.tasklets t)).exceptionState = none ∨
      (change (k.state.tasklets t)).exceptionState = (k.state.tasklets t).exceptionState) :
    Tame flat (k.modifyTasklet t change) where
  tasklets := fun u => by
    by_cases here : u = t
    · subst here
      simpa using keeps (tame.tasklets u)
    · simpa [here] using tame.tasklets u
  main := fun isFlat => by
    by_cases here : mainTasklet = t
    · subst here
      simp only [Config.modifyTasklet_state, State.modifyTasklet_tasklets, Function.update_self]
      rcases main isFlat rfl with cleared | same
      · exact cleared
      · rw [same]
        exact tame.main isFlat
    · simpa [here] using tame.main isFlat
  trap := tame.trap
  mode := tame.mode
  frames := tame.frames

/-- Changing other fields than the blocked flag and the exception. -/
theorem modifyOther (tame : Tame flat k) (t : TaskletId) (change : Tasklet ν → Tasklet ν)
    (blocked : ∀ tasklet, (change tasklet).blocked = tasklet.blocked)
    (exception : ∀ tasklet, (change tasklet).exceptionState = tasklet.exceptionState) :
    Tame flat (k.modifyTasklet t change) :=
  tame.modifyTasklet t
    (fun before => ⟨(blocked _).trans before.unblocked, fun error raised =>
      before.exits error ((exception _).symm.trans raised)⟩)
    fun _ _ => .inr (exception _)

theorem withState (tame : Tame flat k) {s : State ν} (undisturbed : k.state.Undisturbed s) :
    Tame flat (k.withState s) :=
  tame.schedules ((Schedules.refl k).withState undisturbed)

end Tame

/-- The tasklet behind `r` that stays there when `t` leaves the queue. -/
def HasFollower (s : State ν) (r t : TaskletId) : Prop :=
  ∃ queue front back y, QueueRep s queue ∧ mainTasklet :: queue = front ++ r :: back ∧ y ∈ back ∧
    y ≠ t

theorem HasFollower.agree {s s' : State ν} {r t : TaskletId} (agree : Agree s s')
    (follower : HasFollower s r t) : HasFollower s' r t := by
  obtain ⟨queue, front, back, y, rep, split, member, other⟩ := follower
  refine ⟨queue, front, back, y, ?_, split, member, other⟩
  exact rep.congr (fun u => agree.field u Standing.next) (fun u => agree.field u Standing.previous)
    (fun u => agree.field u Standing.scheduled) agree.last agree.number

/-- A tasklet with two others behind it still has one behind it when one leaves. -/
theorem QueueRep.next_of_left {s : State ν} {queue front back : List TaskletId} {r x y p : TaskletId}
    (rep : QueueRep s queue) (split : mainTasklet :: queue = front ++ r :: back) (member : y ∈ back)
    (other : y ≠ x) (queued : x ∈ queue) (notSelf : r ≠ x) :
    ((s.leaveQueue x p).tasklets r).next ≠ none := by
  have rep' := rep.leaveQueue queued p
  have notMain : mainTasklet ≠ x := fun same =>
    (List.nodup_cons.mp rep.nodup).1 (same ▸ queued)
  have remains : ∃ front' back', mainTasklet :: queue.erase x = front' ++ r :: back' ∧ y ∈ back' := by
    rw [← List.erase_cons_tail (by simpa using notMain), split]
    by_cases before : x ∈ front
    · exact ⟨front.erase x, back, List.erase_append_left _ before, member⟩
    · refine ⟨front, back.erase x, ?_, (List.mem_erase_of_ne other).mpr member⟩
      rw [List.erase_append_right _ before, List.erase_cons_tail (by simpa using notSelf)]
  obtain ⟨front', back', split', stays⟩ := remains
  have segment := rep'.segment
  rw [split'] at segment
  rw [segment.around.2]
  cases back' with
  | nil => cases stays
  | cons next rest => simp

/-- The tasklet that was queued behind the running one follows its parent too. -/
theorem HasFollower.of_lined {s : State ν} {queue front back : List TaskletId} {r p t : TaskletId}
    {rest : List TaskletId} (rep : QueueRep s queue)
    (split : mainTasklet :: queue = front ++ r :: t :: back)
    (lined : (r :: p :: rest).reverse.Sublist (mainTasklet :: queue)) : HasFollower s p r := by
  have nodup := rep.nodup
  rw [split] at nodup
  have outside : r ∉ t :: back := (List.nodup_cons.mp (List.nodup_append.mp nodup).2.1).1
  have backwards := lined.reverse
  rw [split, List.reverse_reverse, List.reverse_append, List.reverse_cons, List.append_assoc,
    List.singleton_append] at backwards
  have waiting := sublist_behind backwards (mt List.mem_reverse.mp outside)
  have before : p ∈ front := List.mem_reverse.mp (waiting.subset (.head _))
  obtain ⟨first, second, rfl⟩ := List.append_of_mem before
  refine ⟨queue, first, second ++ r :: t :: back, t, rep, ?_, by simp, ?_⟩
  · simpa using split
  · rintro rfl
    exact outside (.head _)

/-- No request for the second place is open. -/
structure Settled (flat : Prop) (k : Config ν) : Prop extends Tame flat k where
  requests : NoRequests (· = .frontPlusOne) k

/-- What the calls that work on the queue keep besides the lists. -/
structure Careful (flat : Prop) (k : Config ν) : Prop extends Tame flat k where
  requests : Requests (· = .frontPlusOne) HasFollower k

namespace Settled

variable {flat : Prop} {k k' : Config ν}

theorem careful (settled : Settled flat k) : Careful flat k :=
  ⟨settled.toTame, settled.requests.requests⟩

theorem schedules (settled : Settled flat k) (schedules : Schedules k k') : Settled flat k' :=
  ⟨settled.toTame.schedules schedules, settled.requests.undisturbed (by simp) schedules.state⟩

theorem withState (settled : Settled flat k) {s : State ν} (undisturbed : k.state.Undisturbed s) :
    Settled flat (k.withState s) :=
  settled.schedules ((Schedules.refl k).withState undisturbed)

/-- Changing one tasklet without a request for the second place. -/
theorem modifyTasklet (settled : Settled flat k) (t : TaskletId) {change : Tasklet ν → Tasklet ν}
    (tame : Tame flat (k.modifyTasklet t change))
    (request : (k.state.tasklets t).reschedule ≠ .frontPlusOne →
      (change (k.state.tasklets t)).reschedule ≠ .frontPlusOne) :
    Settled flat (k.modifyTasklet t change) := by
  refine ⟨tame, fun u notMain => ?_⟩
  by_cases here : u = t
  · subst here
    simpa using request (settled.requests u notMain)
  · simpa [here] using settled.requests u notMain

theorem modifyOther (settled : Settled flat k) (t : TaskletId) (change : Tasklet ν → Tasklet ν)
    (blocked : ∀ tasklet, (change tasklet).blocked = tasklet.blocked)
    (exception : ∀ tasklet, (change tasklet).exceptionState = tasklet.exceptionState)
    (request : ∀ tasklet, tasklet.reschedule ≠ .frontPlusOne →
      (change tasklet).reschedule ≠ .frontPlusOne) : Settled flat (k.modifyTasklet t change) :=
  settled.modifyTasklet t (settled.toTame.modifyOther t change blocked exception) (request _)

theorem insertTasklet (settled : Settled flat k) {t : TaskletId} {s' : State ν}
    (done : k.state.insertTasklet t = some s') : Settled flat (k.withState s') := by
  cases scheduled : (k.state.tasklets t).scheduled with
  | false => exact settled.withState ((State.Undisturbed.refl _).insertTasklet scheduled done)
  | true =>
      obtain rfl : k.state.modifyTasklet t (.setReschedule .back) = s' := by
        simpa [State.insertTasklet, scheduled] using done
      exact settled.modifyOther t (.setReschedule .back) (fun _ => rfl) (fun _ => rfl)
        fun _ _ => by simp

theorem ret (settled : Settled flat k) (ok : Bool) : Settled flat (k.ret ok) :=
  settled.schedules ((Schedules.refl k).ret ok)

theorem fail (settled : Settled flat k) (error : SchedulerError) : Settled flat (k.fail error) :=
  settled.schedules ((Schedules.refl k).fail error)

theorem afterInsert (settled : Settled flat k) {t : TaskletId} {rest : Config ν → Config ν}
    (goesOn : ∀ k', Settled flat k' → Settled flat (rest k')) :
    Settled flat (k.afterInsert (k.state.insertTasklet t) rest) := by
  cases done : k.state.insertTasklet t with
  | some s' => exact goesOn _ (settled.insertTasklet done)
  | none => exact settled.schedules (Schedules.refl k).crash

/-- `Tasklet::Insert`. -/
theorem insert (settled : Settled flat k) (t : TaskletId) : Settled flat (k.insert t) := by
  rw [Config.insert]
  split
  · exact settled.fail _
  split
  · exact settled.fail _
  · exact settled.afterInsert fun _ inserted =>
      (inserted.modifyOther t (.setPaused false) (fun _ => rfl) (fun _ => rfl) fun _ => id).ret true

/-- `Tasklet::Remove`. -/
theorem remove (settled : Settled flat k) (t : TaskletId) : Settled flat (k.remove t) := by
  rw [Config.remove]
  split
  · refine (modifyOther (settled.withState ((State.Undisturbed.refl _).removeTasklet t)) t
      (.setPaused true) (fun _ => rfl) (fun _ => rfl) fun _ => id).ret true
  · exact settled.ret true

/-- `Tasklet::Bind`. -/
theorem bind (settled : Settled flat k) {t : TaskletId} {callable : Bool}
    {arguments kwArguments : Option Bool}
    (done : k.bind .never t callable arguments kwArguments = some k') : Settled flat k' := by
  have called : Settled flat (if callable then k.modifyTasklet t (.setCallable true) else k) := by
    split
    · exact settled.modifyOther t (.setCallable true) (fun _ => rfl) (fun _ => rfl) fun _ => id
    · exact settled
  simp only [Config.bind, Option.bind_eq_bind] at done
  generalize (if callable then k.modifyTasklet t (.setCallable true) else k) = k₀ at *
  have supplied := called.modifyOther t (.setArguments
    (arguments.or (k₀.state.tasklets t).arguments)
    (kwArguments.or (k₀.state.tasklets t).kwArguments)) (fun _ => rfl) (fun _ => rfl) fun _ => id
  split at done
  · obtain ⟨_, dropped, made⟩ := Option.bind_eq_some_iff.mp done
    obtain ⟨-, rfl⟩ := Config.dropGreenlet_never.mp dropped
    cases made
    exact ((supplied.modifyOther t (.initialise _) (fun _ => rfl) (fun _ => rfl)
      fun _ => id).modifyOther t (.setAlive true) (fun _ => rfl) (fun _ => rfl) fun _ => id).ret true
  · cases done
    exact supplied.ret true

/-- `Tasklet::UnBind`. -/
theorem unBind (settled : Settled flat k) {t : TaskletId} (done : k.unBind .never t = some k') :
    Settled flat k' := by
  simp only [Config.unBind, Option.bind_eq_bind] at done
  split at done
  · cases done
    exact settled.fail _
  split at done
  · cases done
    exact settled.fail _
  obtain ⟨_, dropped, made⟩ := Option.bind_eq_some_iff.mp done
  obtain ⟨-, rfl⟩ := Config.dropGreenlet_never.mp dropped
  cases made
  exact (((settled.modifyOther t (.setCallable false) (fun _ => rfl) (fun _ => rfl)
    fun _ => id).modifyOther t (.setArguments none _) (fun _ => rfl) (fun _ => rfl)
    fun _ => id).modifyOther t .uninitialise (fun _ => rfl) (fun _ => rfl) fun _ => id).ret true

/-- `Tasklet::Setup`. -/
theorem setup (settled : Settled flat k) {t : TaskletId} {arguments kwArguments : Option Bool}
    (done : k.setup .never t arguments kwArguments = some k') : Settled flat k' := by
  simp only [Config.setup, Option.bind_eq_bind] at done
  split at done
  · cases done
    exact settled.fail _
  obtain ⟨_, dropped, made⟩ := Option.bind_eq_some_iff.mp done
  obtain ⟨-, rfl⟩ := Config.dropGreenlet_never.mp dropped
  have alive := ((settled.modifyOther t (.setArguments arguments kwArguments)
    (fun _ => rfl) (fun _ => rfl) fun _ => id).modifyOther t (.initialise k.running)
    (fun _ => rfl) (fun _ => rfl) fun _ => id).modifyOther t (.setAlive true)
    (fun _ => rfl) (fun _ => rfl) fun _ => id
  split at made
  · cases made
    exact ((alive.modifyOther t (.uninitialise) (fun _ => rfl) (fun _ => rfl)
      fun _ => id).modifyOther t (.setArguments none none) (fun _ => rfl) (fun _ => rfl)
      fun _ => id).fail _
  · cases made
    exact alive.insert t

/-- `TaskletInit`. -/
theorem create (settled : Settled flat k) (callable : Bool) : Settled flat (k.create callable) := by
  have grown : Settled flat (k.withState { k.state with taskletCount := k.state.taskletCount + 1 }) :=
    ⟨⟨settled.tasklets, settled.main, settled.trap, settled.mode, settled.frames⟩, settled.requests⟩
  refine (grown.modifyTasklet _ (grown.toTame.modifyTasklet _ (fun _ => ⟨rfl, by simp⟩)
    fun _ _ => .inl rfl) fun _ => by simp).ret true

/-- The body of the running tasklet ends. -/
theorem endBody (settled : Settled flat k) {error : Option (PyError ν)}
    (done : k.endBody error = some k') : Settled flat k' := by
  rw [Config.endBody] at done
  split at done
  · cases done
  split at done
  · cases done
  · cases done
    exact Settled.schedules (settled.modifyOther k.running (.setGreenlet .dead) (fun _ => rfl)
      (fun _ => rfl) fun _ => id) ((Schedules.refl _).enterGreenlet error _ _)

/-- `Schedule` with a request for the second place, made where another tasklet was
queued behind the running one. -/
theorem scheduleBehind {chain : List TaskletId} (settled : Settled flat k)
    (resting : Resting ⟨flat, True⟩ k chain) (isFlat : flat) {queue front back : List TaskletId}
    {t : TaskletId} (rep : QueueRep k.state queue)
    (split : mainTasklet :: queue = front ++ k.running :: t :: back) :
    Careful flat (k.schedule .frontPlusOne false) := by
  have asking := resting.modifyTasklet k.running (.setReschedule .frontPlusOne) (fun _ => rfl)
    (fun _ => rfl) fun _ => id
  have tame := settled.toTame.modifyOther k.running (.setReschedule .frontPlusOne) (fun _ => rfl)
    fun _ => rfl
  have kept := (Schedules.refl (k.modifyTasklet k.running (.setReschedule .frontPlusOne))).yield
  have others : ∀ u, u ≠ mainTasklet → (((k.modifyTasklet k.running
      (.setReschedule .frontPlusOne)).yield).state.tasklets u).reschedule = .frontPlusOne →
      u = k.running := by
    intro u notMain request
    by_contra other
    refine settled.requests u notMain ?_
    have before := @State.Undisturbed.requested _ (· = .frontPlusOne) _ _ kept.state (by simp) u
      request
    simpa [other] using before
  simp only [Config.schedule, resting.rest.current, Bool.false_eq_true, if_false]
  refine ⟨tame.schedules kept, fun u notMain request => ?_⟩
  obtain rfl := others u notMain request
  obtain ⟨p, rest, rfl⟩ := resting.entered.chained.parent notMain
  have yields := asking.entered.yieldsTo asking.rest.inCall asking.rest.yielding
    ⟨tame.trap, tame.main isFlat⟩
  refine ⟨yields.back, ?_⟩
  have lined := resting.entered.queued.lined isFlat queue rep
  have follower : HasFollower k.state p k.running := .of_lined rep split lined
  have agree : Agree k.state (k.modifyTasklet k.running (.setReschedule .frontPlusOne)).yield.state :=
    (Agree.modifyTasklet _ _ (.setReschedule .frontPlusOne) (fun _ => rfl) (fun _ => rfl)
      fun _ => id).trans yields.agree
  rw [yields.running]
  exact follower.agree agree

/-- `Tasklet::Run` of a tasklet, one that is not active unless tasklets nest. -/
theorem taskletRun {chain : List TaskletId} (settled : Settled flat k)
    (resting : Resting ⟨flat, True⟩ k chain) {t : TaskletId} (present : t < k.state.taskletCount)
    (inactive : (k.state.tasklets t).alive = true → k.state.useNestedTasklets = false → t ∉ chain) :
    Careful flat (k.taskletRun t) := by
  simp only [Config.taskletRun]
  split
  · exact (settled.fail _).careful
  next alive =>
  split
  · exact (settled.fail _).careful
  next unblocked =>
  split
  · split
    · exact (settled.schedules ((Schedules.refl k).run _)).careful
    · exact (settled.afterInsert fun _ inserted =>
        inserted.schedules ((Schedules.refl _).run _)).careful
  · next mode =>
      have isFlat : flat := by
        by_contra nested
        exact mode (settled.mode nested)
      have outside := inactive (by simpa using alive) (by simpa using mode)
      obtain ⟨removed, same, unscheduled⟩ := resting.unqueued outside rfl
      have undisturbed := State.Undisturbed.of_sameButQueue same
      generalize (if (k.state.tasklets t).scheduled then (k.state.removeTasklet t).1 else k.state) =
        s' at *
      have present' : t < s'.taskletCount := same.eases.count.symm ▸ present
      have next := removed.insertTaskletToRunNext present'
        (same.eases.unblocked (by simpa using unblocked))
      obtain ⟨queue, rep⟩ := removed.entered.queued.rep
      have current : s'.currentTasklet = k.running := removed.rest.current
      obtain ⟨front, back, split⟩ := List.append_of_mem
        ((rep.scheduled _).mp removed.entered.running_scheduled)
      obtain ⟨queue', rep', split'⟩ := rep.insertTaskletToRunNext (t := t)
        (by rw [Config.withState_state, current]; exact split) unscheduled
      rw [Config.withState_state, current] at split'
      exact scheduleBehind (settled.withState (undisturbed.insertTaskletToRunNext unscheduled)) next
        isFlat rep' split'

theorem pushKill (settled : Settled flat k) (t : TaskletId) (channel : Option ChannelId) :
    Settled flat (k.push (.kill t false channel)) := by
  refine ⟨⟨settled.tasklets, settled.main, settled.trap, settled.mode, fun u frame member => ?_⟩,
    settled.requests⟩
  by_cases here : u = k.running
  · subst here
    simp only [Config.push_stack, Function.update_self, List.mem_cons] at member
    rcases member with rfl | member
    · exact .inr ⟨t, channel, rfl⟩
    · exact settled.frames _ frame member
  · exact settled.frames u frame (by simpa [here] using member)

/-- `Tasklet::Kill`. -/
theorem kill {chain : List TaskletId} (settled : Settled flat k)
    (resting : Resting ⟨flat, True⟩ k chain) {t : TaskletId} (present : t < k.state.taskletCount)
    (pending : Bool)
    (spares : (k.state.tasklets t).alive = true → k.state.currentTasklet ≠ t →
      (flat → t ≠ mainTasklet) ∧
        (pending = false → k.state.useNestedTasklets = false → t ∉ chain)) :
    Careful flat (k.kill t pending) := by
  have unblocked := (settled.tasklets t).unblocked
  simp only [Config.kill, unblocked, Bool.false_eq_true, if_false]
  split
  · exact (settled.ret true).careful
  next condition =>
  have alive : (k.state.tasklets t).alive = true := by
    simp only [Bool.or_eq_true, Bool.not_eq_true', not_or, Bool.not_eq_false] at condition
    exact condition.1
  split
  · refine Settled.careful (Settled.schedules ?_ ((Schedules.refl _).raise _))
    rw [Config.modifyTasklet_modifyTasklet]
    exact settled.modifyTasklet t (settled.toTame.modifyTasklet t
      (fun before => ⟨before.unblocked, by simp⟩) fun _ _ => .inl rfl) id
  next notCurrent =>
  obtain ⟨notMain, inactive⟩ := spares alive notCurrent
  have excepted : Settled flat (k.modifyTasklet t (.setExceptionState .taskletExit)) :=
    settled.modifyTasklet t (settled.toTame.modifyTasklet t
      (fun before => ⟨before.unblocked, fun error raised => (Option.some.inj raised).symm⟩)
      fun isFlat main => absurd main (notMain isFlat)) id
  split
  · exact (excepted.afterInsert fun _ inserted => ((inserted.modifyOther t (.setReschedule .none)
      (fun _ => rfl) (fun _ => rfl) fun _ _ => by simp).modifyOther t (.setKillPending true)
      (fun _ => rfl) (fun _ => rfl) fun _ => id).ret true).careful
  · next notPending =>
      have dropped := excepted.modifyOther t (.setReschedule .none) (fun _ => rfl) (fun _ => rfl)
        fun _ _ => by simp
      have quiet := ((Quiet.refl k).modifyTasklet t (.setExceptionState .taskletExit) (fun _ => rfl)
        (fun _ => rfl) fun _ => id).modifyTasklet t (.setReschedule .none) (fun _ => rfl)
        (fun _ => rfl) fun _ => id
      exact (dropped.pushKill t _).taskletRun ((resting.quiet quiet).push _ rfl
        (by simp [Frame.owner])) present fun _ => inactive (by simpa using notPending)

end Settled

/-- An operation that works on the queue and spares the active tasklets. -/
theorem Settled.act {flat : Prop} {k k' : Config ν} {chain : List TaskletId}
    (settled : Settled flat k) (resting : Resting ⟨flat, True⟩ k chain) {action : Action ν}
    (present : action.target.all (· < k.state.taskletCount) = true)
    (works : action.isQueueOperation = true) (spares : k.SparesQueue action)
    (done : k.act action = some k') : Careful flat k' := by
  have inactive : ∀ t, ¬ k.IsActive t → t ∉ chain := fun t notActive member =>
    notActive ((resting.entered.chained.hasAncestor_iff t).mpr member)
  cases action with
  | create callable =>
      cases done
      exact (settled.create callable).careful
  | bind t => exact (settled.bind done).careful
  | unBind t => exact (settled.unBind done).careful
  | setup t => exact (settled.setup done).careful
  | insert t =>
      cases done
      exact (settled.insert t).careful
  | remove t =>
      cases done
      exact (settled.remove t).careful
  | run t =>
      cases done
      exact settled.taskletRun resting (by simpa [Action.target] using present)
        fun alive mode => inactive t ((spares alive).2 mode)
  | kill t pending =>
      cases done
      refine settled.kill resting (by simpa [Action.target] using present) pending
        fun alive notCurrent => ?_
      have mayKill := spares alive notCurrent
      cases pending with
      | true => exact ⟨fun isFlat => mayKill (resting.entered.queued.flat isFlat), by simp⟩
      | false => exact ⟨fun _ => mayKill.1, fun _ mode => inactive t (mayKill.2 mode)⟩
  | schedule =>
      cases done
      have asking := settled.modifyOther k.state.currentTasklet (.setReschedule .back) (fun _ => rfl)
        (fun _ => rfl) fun _ _ => by simp
      exact (asking.schedules (Schedules.refl _).yield).careful
  | schedulerRun =>
      cases done
      exact (settled.schedules ((Schedules.refl k).run none)).careful
  | finish => exact (settled.endBody done).careful
  | raise error => exact (settled.endBody done).careful
  | _ => cases works

namespace Careful

variable {flat : Prop} {k k' : Config ν} {chain : List TaskletId}

theorem settled (careful : Careful flat k) (leaves : ∀ t, ¬ ComesBack k t) : Settled flat k :=
  ⟨careful.toTame, careful.requests.none leaves⟩

/-- A return into a suspended call. -/
theorem resume (careful : Careful flat k) (orderly : Orderly ⟨flat, True⟩ k chain) {ok : Bool}
    (control : k.control = .returning ok) (alive : (k.resume ok).control ≠ .crashed) :
    Careful flat (k.resume ok) := by
  rw [Config.resume] at alive ⊢
  cases stack : k.stack k.running with
  | nil =>
      have settled := careful.settled fun t back => by
        obtain ⟨_, _, top, -⟩ := back.top
        rw [stack] at top
        cases top
      have back : Schedules k { k with control := .python, raised := none } :=
        (Schedules.refl k).goesOn rfl rfl rfl rfl rfl
      exact (settled.schedules back).careful
  | cons frame below =>
      rw [stack] at alive
      dsimp only at alive ⊢
      have settled : (∀ x, frame ≠ .switchTo x) → (∀ b e u x, frame ≠ .run b e u x) →
          Settled flat k := by
        intro notSwitch notRun
        refine careful.settled fun t back => ?_
        obtain ⟨_, _, top, through⟩ := back.top
        obtain rfl := (List.cons.inj (stack.symm.trans top)).1
        rcases through with switch | ⟨_, _, _, run⟩
        · exact notSwitch _ switch
        · exact notRun _ _ _ _ run
      have kind := careful.frames k.running frame (by simp [stack])
      cases frame with
      | switchTo x =>
          exact ⟨careful.toTame.schedules ((Schedules.refl k).pop.switchedBack x ok),
            careful.requests.switchedBack (by simp) HasFollower.agree control stack
              fun t => (careful.tasklets t).exits⟩
      | run base endTasklet unblocked x =>
          have granted : Settled flat (k.pop.runSwitched base endTasklet unblocked x ok) :=
            ⟨careful.toTame.schedules (orderly.schedules_runSwitched control stack),
              careful.requests.runSwitched (by simp) orderly control stack alive⟩
          exact granted.careful
      | yieldSwitch t =>
          exact ((settled (by simp) (by simp)).schedules
            ((Schedules.refl k).pop.yieldSwitched t ok)).careful
      | yieldBlockedMain =>
          exact ((settled (by simp) (by simp)).schedules ((Schedules.refl k).pop.yieldRan ok)).careful
      | kill t blocked channel =>
          obtain rfl : blocked = false := by
            rcases kind with switching | ⟨_, _, same⟩
            · cases switching
            · cases same
              rfl
          have back := (settled (by simp) (by simp)).schedules ((Schedules.refl k).pop.ret ok)
          simpa [Config.resumeFrame] using back.careful
      | _ =>
          rcases kind with switching | ⟨_, _, same⟩
          · cases switching
          · cases same

/-- The run loop finds a place for the tasklet that comes back. -/
theorem placed (careful : Careful flat k) (orderly : Orderly ⟨flat, True⟩ k chain) {ok : Bool}
    (control : k.control = .returning ok) {base x : TaskletId} {endTasklet : Option TaskletId}
    {unblocked : Bool} {below : List Frame}
    (top : k.stack k.running = .run base endTasklet unblocked x :: below) :
    (k.pop.catchExit x).state.runPostSwitch x ≠ none := by
  obtain ⟨returned, entered⟩ := orderly.returned control top
  have quiet := k.pop.catchExit_quiet x
  have notMain := returned.notMain entered.chained
  have left := (returned.quiet quiet).left (quiet.entered entered)
  rw [left.rest, State.rescheduleTasklet]
  split
  · obtain ⟨s', done, -⟩ := left.queued.insertTasklet left.present
    simp [done]
  · next request =>
      have asked : (k.state.tasklets x).reschedule = .frontPlusOne := by
        rw [left.same.field x Tasklet.reschedule fun _ => rfl] at request
        simpa using request
      obtain ⟨queue, front, back, y, rep, split, member, other⟩ :=
        (((careful.requests x notMain asked).2).agree quiet.agree)
      have following := rep.next_of_left (p := (k.pop.catchExit x).running) split member other
        (Queued.mem_queue rep (returned.quiet quiet).scheduled notMain)
        fun same => returned.outside (same ▸ entered.chained.running_mem)
      obtain ⟨next, isNext⟩ := Option.ne_none_iff_exists'.mp following
      have current : ((k.pop.catchExit x).state.leaveQueue x
          (k.pop.catchExit x).running).currentTasklet = k.running :=
        left.current.trans quiet.running
      simp [current, isNext]
  · simp

/-- A return into a run loop leaves the lists in order. -/
theorem regularReturn (careful : Careful flat k) (orderly : Orderly ⟨flat, True⟩ k chain) {ok : Bool}
    (control : k.control = .returning ok) : k.RegularReturn ok (k.stack k.running) := by
  cases stack : k.stack k.running with
  | nil => trivial
  | cons frame below =>
      have kind := careful.frames k.running frame (by simp [stack])
      cases frame with
      | run base endTasklet unblocked x =>
          have known := orderly.local_
          rw [Local, control, stack] at known
          have free := (careful.tasklets x).unblocked
          rw [Config.RegularReturn, Config.CleanReturn]
          split
          · exact fun _ => free
          · next failed =>
              simp only [Bool.or_eq_true, not_or, Bool.not_eq_true] at failed
              rcases known.2 trivial failed.1 with exit | removed | current
              · exact absurd (failed.2.symm.trans exit) Bool.false_ne_true
              · exact .inl removed
              · refine .inr ⟨fun same => known.1.outside ?_, free⟩
                rw [← same, current]
                exact orderly.chained.running_mem
      | kill t blocked channel =>
          rcases kind with switching | ⟨_, _, same⟩
          · cases switching
          · cases same
            exact .inr rfl
      | switchTo | yieldBlockedMain | yieldSwitch => trivial
      | _ =>
          rcases kind with switching | ⟨_, _, same⟩
          · cases switching
          · cases same

/-- There is no kill to undo. -/
theorem not_restoring (careful : Careful flat k) : ¬ Restoring k := by
  have absent : ∀ t channel below above,
      k.stack k.running ≠ above ++ .kill t true channel :: below ∧
        k.stack k.running ≠ above ++ .throwBlocked t channel :: below := by
    intro t channel below above
    constructor
    · intro stack
      rcases careful.frames k.running (.kill t true channel) (by simp [stack]) with
        switching | ⟨_, _, same⟩
      · cases switching
      · cases same
    · intro stack
      rcases careful.frames k.running (.throwBlocked t channel) (by simp [stack]) with
        switching | ⟨_, _, same⟩
      · cases switching
      · cases same
  rintro ⟨-, t, channel, below, (stack | stack) | ⟨-, base, endTasklet, unblocked, stack | stack⟩⟩
  · exact (absent t channel below []).1 stack
  · exact (absent t channel below []).2 stack
  · exact (absent t channel below [_]).1 stack
  · exact (absent t channel below [_]).2 stack

end Careful

/-- The invariant of the runs that work on the queue with care. -/
structure QueueInvariant (flat : Prop) (k : Config ν) : Prop where
  ordered : Ordered ⟨flat, True⟩ k
  careful : Careful flat k

namespace QueueInvariant

variable {flat : Prop} {k k' : Config ν}

/-- The lists are in order and nothing crashed. -/
theorem orderly (invariant : QueueInvariant flat k) : ∃ chain, Orderly ⟨flat, True⟩ k chain := by
  rcases invariant.ordered with ⟨calm, -⟩ | restoring | orderly
  · exact absurd trivial calm
  · exact absurd restoring invariant.careful.not_restoring
  · exact orderly

theorem alive (invariant : QueueInvariant flat k) : k.control ≠ .crashed := by
  obtain ⟨chain, orderly⟩ := invariant.orderly
  intro crashed
  have known := orderly.local_
  rw [Local, crashed] at known
  exact known

theorem whole (invariant : QueueInvariant flat k) : k.QueueWhole := by
  obtain ⟨chain, orderly⟩ := invariant.orderly
  obtain ⟨queue, rep⟩ := orderly.queued.rep
  refine ⟨invariant.alive, queue, rep, ⟨_, ?_, List.getLast?_eq_some_getLast (List.cons_ne_nil _ _)⟩,
    fun fuel enough => rep.getCalculatedTaskletCount_eq enough⟩
  rw [rep.last, List.getLast?_eq_some_getLast (List.cons_ne_nil _ _)]

/-- An operation of Python code keeps the invariant. -/
theorem act (invariant : QueueInvariant flat k) {action : Action ν} (python : k.control = .python)
    (present : action.target.all (· < k.state.taskletCount) = true)
    (works : action.isQueueOperation = true) (spares : k.SparesQueue action)
    (done : k.act action = some k') : QueueInvariant flat k' := by
  obtain ⟨chain, resting, idle⟩ := invariant.ordered.resting python
  have settled := invariant.careful.settled fun t ⟨_, _, _, _, _, returning, _⟩ => by
    rw [python] at returning
    cases returning
  refine ⟨resting.act idle present ?_ (fun _ => ?_) ?_ done,
    settled.act resting present works spares done⟩
  · cases action with
    | remove t => exact spares
    | run t => exact fun alive => (spares alive).2
    | kill t pending =>
        rintro rfl alive notCurrent mode
        exact ⟨(spares alive notCurrent).2 mode, (settled.tasklets t).unblocked⟩
    | throw | clear | runNTasklets | runTaskletsForTime => cases works
    | _ => trivial
  · cases action with
    | switch | setUseNestedTasklets => cases works
    | _ => rfl
  · cases action with
    | run t => exact fun may => absurd may.2 (spares may.1).1
    | kill t pending =>
        rintro ⟨rfl, alive, main, notCurrent⟩
        exact absurd main (spares alive notCurrent).1
    | switch | throw | clear | receive => cases works
    | _ => exact False.elim

/-- A return into a suspended call keeps the invariant. -/
theorem resume (invariant : QueueInvariant flat k) {ok : Bool} (control : k.control = .returning ok) :
    QueueInvariant flat (k.resume ok) := by
  obtain ⟨chain, orderly⟩ := invariant.orderly
  have careful := invariant.careful
  have ordered : Ordered ⟨flat, True⟩ (k.resume ok) := by
    refine orderly.resume control (careful.regularReturn orderly control) ?_
      fun _ t => (careful.tasklets t).exits
    intro may
    rw [Config.MayCrash] at may
    split at may
    · next stack =>
        rcases may with stuck | restoring
        · exact absurd stuck (careful.placed orderly control stack)
        · exact absurd restoring careful.not_restoring
    · next stack =>
        rcases careful.frames k.running _ (by rw [stack]; exact .head _) with switching | ⟨_, _, same⟩
        · cases switching
        · cases same
    · exact may.elim
  have alive : (k.resume ok).control ≠ .crashed := by
    intro crashed
    rcases ordered with ⟨calm, -⟩ | ⟨returning, -⟩ | ⟨chain', orderly'⟩
    · exact absurd trivial calm
    · rw [crashed] at returning
      cases returning
    · have known := orderly'.local_
      rw [Local, crashed] at known
      exact known
  exact ⟨ordered, careful.resume orderly control alive⟩

/-- A careful step keeps the invariant. -/
theorem step (invariant : QueueInvariant flat k) {label : Option (Action ν)}
    (care : k.WorksWithCare label) (taken : k.step label = some k') : QueueInvariant flat k' := by
  cases label with
  | some action =>
      rw [Config.step, Config.stepWith] at taken
      split at taken
      · next allowed =>
          exact invariant.act allowed.1 allowed.2 care.1 care.2 taken
      · cases taken
  | none =>
      rw [Config.step, Config.stepWith] at taken
      split at taken
      · next ok control =>
          cases taken
          exact invariant.resume control
      · cases taken

/-- A fresh schedule manager. -/
theorem initial (clock : Nat → Int) (nested : Bool) :
    QueueInvariant (nested = false) (Config.initial (ν := ν) clock nested) := by
  have tasklets : ∀ t, (Config.initial (ν := ν) clock nested).state.tasklets t =
      if t = mainTasklet then Tasklet.main else {} := State.initial_tasklets clock
  have settled : Settled (nested = false) (Config.initial (ν := ν) clock nested) := by
    refine ⟨⟨fun t => ?_, fun _ => ?_, rfl, fun notFlat => ?_, fun t frame member => ?_⟩,
      fun t _ => ?_⟩
    · rw [tasklets]
      split
      · exact ⟨rfl, by simp [Tasklet.main]⟩
      · exact ⟨rfl, by simp⟩
    · rw [tasklets, if_pos rfl]
      rfl
    · exact eq_true_of_ne_false notFlat
    · cases member
    · rw [tasklets]
      split <;> simp [Tasklet.main]
  exact ⟨Config.initial_ordered clock nested id, settled.careful⟩

end QueueInvariant

/-- **The run queue stays whole.** In every run of calls that work on the queue and
spare the active tasklets, with nested tasklets or without, the queue is whole in
every state that is reached, after every call and every iteration of a run loop. -/
theorem reachable_queueWhole {clock : Nat → Int} {nested : Bool} {k : Config ν}
    (reached : Reachable Config.step Config.WorksWithCare (Config.initial clock nested) k) :
    k.QueueWhole :=
  (reached.invariant (QueueInvariant.initial clock nested)
    fun _ _ _ invariant care taken => invariant.step care taken).whole

/-- A tasklet that runs and inserts another one while main waits for it. -/
theorem reachable_queueWhole_inserting :
    ∃ k : Config Unit, k.running = 1 ∧ (k.state.tasklets 2).scheduled = true ∧ k.QueueWhole := by
  have ran : (runLabels Config.step (fun k label => decide (k.WorksWithCare label))
      (Config.initial (fun _ => 0) false)
      [some (.create true), none, some (.setup 1 (some true) none), none, some (.create true), none,
        some (.bind 2 false (some true) none), none, some (.run 1), some (.insert 2), none]).map
      (fun k : Config Unit => (k.running, (k.state.tasklets 2).scheduled)) = some (1, true) := by
    decide +kernel
  obtain ⟨k, done, facts⟩ := Option.map_eq_some_iff.mp ran
  simp only [Prod.mk.injEq] at facts
  exact ⟨k, facts.1, facts.2, reachable_queueWhole ((Reachable.of_runLabels .refl done).mono
    fun _ _ => of_decide_eq_true)⟩

/-- A tasklet removes itself from the queue and ends: the run loop reads the last
pointer off a tasklet that is not queued any more. -/
def removeSelfLabels : List (Option (Action Unit)) :=
  [some (.create true), none, some (.setup 1 (some true) none), none, some (.run 1),
    some (.remove 1), none, some .finish, none, none, none]

theorem removeSelf_not_queueWhole :
    ∃ k : Config Unit, Reachable Config.step Config.WorksOnQueue
      (Config.initial (fun _ => 0) true) k ∧ k.control = .python ∧ ¬ k.QueueWhole := by
  have ran : (runLabels Config.step (fun _ label => label.all Action.isQueueOperation)
      (Config.initial (fun _ => 0) true) removeSelfLabels).map
      (fun k => (k.control, k.state.previousTasklet)) = some (.python, none) := by
    decide +kernel
  obtain ⟨k, done, facts⟩ := Option.map_eq_some_iff.mp ran
  simp only [Prod.mk.injEq] at facts
  refine ⟨k, Reachable.of_runLabels .refl done, facts.1, fun whole => ?_⟩
  obtain ⟨queue, -, ⟨last, isLast, -⟩, -⟩ := whole.chain
  rw [facts.2] at isLast
  cases isLast

end CarbonLab.Scheduler
