import CarbonLab.Scheduler.Machine
import CarbonLab.Scheduler.BlockedLinks

/-!
# What scheduling leaves of the channels

Switches and the run queue never touch a channel, and they never block a tasklet.
This holds in every configuration.
-/

namespace CarbonLab.Scheduler

variable {ν : Type}

/-- The channel that a blocked tasklet waits on. -/
def Tasklet.waitsOn (tasklet : Tasklet ν) : Option ChannelId :=
  if tasklet.blocked then tasklet.channelBlockedOn else none

/-- The change blocks no tasklet. -/
def Frees (change : Tasklet ν → Tasklet ν) : Prop :=
  ∀ tasklet, (change tasklet).waitsOn = tasklet.waitsOn ∨ (change tasklet).waitsOn = none

/-- No channel changed, and no tasklet was blocked. -/
structure State.Spares (s s' : State ν) : Prop where
  channels : s'.channels = s.channels
  blocks : ∀ t, (s'.tasklets t).waitsOn = (s.tasklets t).waitsOn ∨
    (s'.tasklets t).waitsOn = none

namespace State

namespace Spares

variable {s s' s'' : State ν}

theorem refl (s : State ν) : Spares s s :=
  ⟨rfl, fun _ => .inl rfl⟩

theorem trans (first : Spares s s') (second : Spares s' s'') : Spares s s'' where
  channels := second.channels.trans first.channels
  blocks := fun t => by
    rcases second.blocks t with same | free
    · rw [same]
      exact first.blocks t
    · exact .inr free

/-- Only the channels and the tasklets matter. -/
theorem goesOn (before : Spares s s') (channels : s''.channels = s'.channels)
    (tasklets : s''.tasklets = s'.tasklets) : Spares s s'' :=
  before.trans ⟨channels, fun _ => .inl (by rw [tasklets])⟩

theorem modifyTasklet (before : Spares s s') (t : TaskletId) (change : Tasklet ν → Tasklet ν)
    (frees : Frees change) :
    Spares s (s'.modifyTasklet t change) := by
  refine before.trans ⟨rfl, fun u => ?_⟩
  by_cases same : u = t
  · subst same
    simpa using frees (s'.tasklets u)
  · exact .inl (by simp [same])

theorem modifyTasklet? (before : Spares s s') (t : Option TaskletId)
    (change : Tasklet ν → Tasklet ν) (frees : Frees change) :
    Spares s (s'.modifyTasklet? t change) := by
  cases t with
  | none => exact before
  | some t => exact before.modifyTasklet t change frees

theorem unblock (before : Spares s s') (t : TaskletId) : Spares s (s'.modifyTasklet t .unblock) :=
  before.modifyTasklet t .unblock fun _ => .inr rfl

theorem ite {condition : Prop} [Decidable condition] (first : Spares s s') (second : Spares s s'') :
    Spares s (if condition then s' else s'') := by
  split
  · exact first
  · exact second

/-- The end of an insertion. -/
theorem linked (before : Spares s s') (t : TaskletId) :
    Spares s (((s'.modifyTasklet t .unblock).modifyTasklet t (.setScheduled true)).setNumberOfTaskletsInQueue
      (s'.numberOfTaskletsInQueue + 1)) :=
  ((before.unblock t).modifyTasklet t (.setScheduled true) fun _ => .inl rfl).goesOn rfl rfl

end Spares

variable {s s' : State ν}

theorem insertTaskletToRunNext_spares (s : State ν) (t : TaskletId) :
    s.Spares (s.insertTaskletToRunNext t) := by
  have placed := ((((Spares.refl s).modifyTasklet t
    (.setNext (s.tasklets s.currentTasklet).next) fun _ => .inl rfl).modifyTasklet t
    (.setPrevious s.currentTasklet) fun _ => .inl rfl).modifyTasklet s.currentTasklet (.setNext t)
      fun _ => .inl rfl)
  unfold insertTaskletToRunNext
  split
  · exact (Spares.refl s).modifyTasklet t (.setReschedule .back) fun _ => .inl rfl
  · dsimp only
    split
    · next next _ =>
      have before := placed.modifyTasklet next (.setPrevious t) fun _ => .inl rfl
      refine Spares.linked ?_ t
      split
      · exact before.goesOn rfl rfl
      · exact before
    · refine Spares.linked ?_ t
      split
      · exact placed.goesOn rfl rfl
      · exact placed

theorem insertTasklet_spares {t : TaskletId} (done : s.insertTasklet t = some s') :
    s.Spares s' := by
  unfold insertTasklet at done
  split at done
  · cases done
    exact (Spares.refl s).modifyTasklet t (.setReschedule .back) fun _ => .inl rfl
  · split at done
    · cases done
    · next last _ =>
      cases done
      have placed := (((Spares.refl s).modifyTasklet last (.setNext t)
        fun _ => .inl rfl).modifyTasklet t
        (.setPrevious last) fun _ => .inl rfl).modifyTasklet t (.setNext none) fun _ => .inl rfl
      refine Spares.linked ?_ t
      exact placed.goesOn rfl rfl

theorem removeTasklet_spares (s : State ν) (t : TaskletId) : s.Spares (s.removeTasklet t).1 := by
  have left : ∀ {s' : State ν}, s.Spares s' →
      s.Spares (((s'.modifyTasklet t (.setNext none)).modifyTasklet t (.setPrevious none)).modifyTasklet t
        (.setScheduled false)) := fun before =>
    ((before.modifyTasklet t (.setNext none) fun _ => .inl rfl).modifyTasklet t (.setPrevious none)
      fun _ => .inl rfl).modifyTasklet t
      (.setScheduled false) fun _ => .inl rfl
  have linked := (Spares.refl s).modifyTasklet? (s.tasklets t).previous
    (.setNext (s.tasklets t).next) fun _ => .inl rfl
  unfold removeTasklet
  dsimp only
  split
  · exact .refl s
  · split
    · next next _ =>
      have before := linked.modifyTasklet next (.setPrevious (s.tasklets t).previous)
        fun _ => .inl rfl
      exact left (before.goesOn rfl rfl)
    · exact left (linked.goesOn rfl rfl)

theorem setParent_spares {t : TaskletId} {parent : Option TaskletId}
    (done : s.setParent t parent = .ok s') : s.Spares s' := by
  unfold setParent at done
  split at done
  · split at done
    · cases done
    · split at done
      · cases done
      · split at done
        · cases done
        · cases done
          exact (Spares.refl s).modifyTasklet t _ (by exact fun _ => .inl rfl)
  · split at done
    · cases done
      exact (Spares.refl s).modifyTasklet t _ (by exact fun _ => .inl rfl)
    · cases done
      exact (Spares.refl s).modifyTasklet t _ (by exact fun _ => .inl rfl)

theorem clearParent_spares (s : State ν) (t : TaskletId) : s.Spares (s.clearParent t) := by
  unfold clearParent
  split
  · next done => exact setParent_spares done
  · exact .refl s

theorem testRunLimits_spares (s : State ν) : s.Spares s.testRunLimits := by
  simp only [testRunLimits]
  repeat' split
  all_goals exact ⟨rfl, fun _ => .inl rfl⟩

theorem leaveQueue_spares (s : State ν) (t parent : TaskletId) :
    s.Spares (s.leaveQueue t parent) := by
  unfold leaveQueue
  dsimp only
  refine Spares.modifyTasklet (Spares.trans ?_ (removeTasklet_spares _ t)) t (.setScheduled false)
    fun _ => .inl rfl
  exact Spares.ite ((Spares.refl s).goesOn rfl rfl) ((Spares.refl s).goesOn rfl rfl)

theorem rescheduleTasklet_spares {t : TaskletId} (done : s.rescheduleTasklet t = some s') :
    s.Spares s' := by
  rw [rescheduleTasklet] at done
  split at done
  · obtain ⟨s₁, inserted, rest⟩ := Option.bind_eq_some_iff.mp done
    cases rest
    exact (insertTasklet_spares inserted).modifyTasklet t (.setReschedule .none) fun _ => .inl rfl
  · obtain ⟨front, _, rest⟩ := Option.bind_eq_some_iff.mp done
    cases rest
    exact (((removeTasklet_spares s front).trans (insertTaskletToRunNext_spares _ t)).trans
      (insertTaskletToRunNext_spares _ front)).modifyTasklet t (.setReschedule .none)
        fun _ => .inl rfl
  · cases done
    exact .refl s

theorem runPostSwitch_spares {t : TaskletId} (done : s.runPostSwitch t = some s') :
    s.Spares s' := by
  obtain ⟨parent, _, rest⟩ := Option.bind_eq_some_iff.mp done
  exact (leaveQueue_spares s t parent).trans (rescheduleTasklet_spares rest)

end State

/-! ## Scheduling -/

/-- A step from one configuration to the other spares the channels. -/
def Spares (k k' : Config ν) : Prop := k.state.Spares k'.state

namespace Spares

variable {k k' k'' : Config ν}

theorem refl (k : Config ν) : Spares k k := State.Spares.refl k.state

theorem withState (before : Spares k k') {s : State ν} (spared : k'.state.Spares s) :
    Spares k (k'.withState s) :=
  State.Spares.trans before spared

/-- Only the channels and the tasklets matter. -/
theorem goesOn (before : Spares k k') (channels : k''.state.channels = k'.state.channels)
    (tasklets : k''.state.tasklets = k'.state.tasklets) : Spares k k'' :=
  State.Spares.goesOn before channels tasklets

theorem modifyTasklet (before : Spares k k') (t : TaskletId) (change : Tasklet ν → Tasklet ν)
    (frees : Frees change) :
    Spares k (k'.modifyTasklet t change) :=
  State.Spares.modifyTasklet before t change frees

theorem ret (before : Spares k k') (ok : Bool) : Spares k (k'.ret ok) := before

theorem raise (before : Spares k k') (error : PyError ν) : Spares k (k'.raise error) := before

theorem fail (before : Spares k k') (error : SchedulerError) : Spares k (k'.fail error) := before

theorem crash (before : Spares k k') : Spares k k'.crash := before

theorem push (before : Spares k k') (frame : Frame) : Spares k (k'.push frame) := before

theorem ite {condition : Prop} [Decidable condition] (first : Spares k k') (second : Spares k k'') :
    Spares k (if condition then k' else k'') := by
  split
  · exact first
  · exact second

/-- A switch or throw into a greenlet. -/
theorem enterGreenlet (before : Spares k k') (error : Option (PyError ν)) (fuel : Nat)
    (t : TaskletId) : Spares k (k'.enterGreenlet error fuel t) := by
  induction fuel generalizing k' t with
  | zero => exact before.crash
  | succ fuel ih =>
      rw [Config.enterGreenlet]
      split
      · exact before.fail _
      · exact before.goesOn rfl rfl
      · split
        · exact ih before _
        · exact before.crash
      · split
        · split
          · exact (before.modifyTasklet t (.setGreenlet .started) fun _ => .inl rfl).goesOn rfl rfl
          · exact before.fail _
        · split
          · exact ih (before.modifyTasklet t _ (by exact fun _ => .inl rfl)) _
          · exact before.crash

/-- The part of `SwitchTo` right before the switch. -/
theorem beginSwitch (before : Spares k k') (t : TaskletId) : Spares k (k'.beginSwitch t) := by
  have current : Spares k (k'.withState (k'.state.setCurrentTasklet t)) := before.goesOn rfl rfl
  exact ((current.modifyTasklet t (.setPaused false) fun _ => .inl rfl).modifyTasklet t
    (.setFirstRun false) fun _ => .inl rfl).push _

/-- `Tasklet::SwitchTo`, up to the switch. -/
theorem switchTo (before : Spares k k') (t : TaskletId) : Spares k (k'.switchTo t) := by
  have entered := before.beginSwitch t
  unfold Config.switchTo
  dsimp only
  refine ite (before.fail _) (ite (before.fail _) (ite (before.fail _) (ite (before.fail _) ?_)))
  split
  · exact (before.modifyTasklet t _ (by exact fun _ => .inl rfl)).ret true
  · exact ((before.modifyTasklet t .clearException fun _ => .inl rfl).modifyTasklet t
      (.setRemove true) fun _ => .inl rfl).raise _
  · exact entered.enterGreenlet none _ t

/-- `Tasklet::SwitchTo` after the switch came back. -/
theorem switchedBack (before : Spares k k') (t : TaskletId) (ok : Bool) :
    Spares k (k'.switchedBack t ok) := by
  have cleared := before.modifyTasklet t (.setArguments none none) fun _ => .inl rfl
  unfold Config.switchedBack
  dsimp only
  split
  · exact (cleared.modifyTasklet _ _ (by exact fun _ => .inl rfl)).raise _
  · refine ret (ite ?_ (modifyTasklet ?_ _ _ (by exact fun _ => .inl rfl))) ok
    all_goals
      refine modifyTasklet (ite (modifyTasklet ?_ _ _ (by exact fun _ => .inl rfl)) ?_) _ _
        (by exact fun _ => .inl rfl)
      all_goals exact ite (cleared.modifyTasklet _ _ (by exact fun _ => .inl rfl)) cleared

end Spares

end CarbonLab.Scheduler
