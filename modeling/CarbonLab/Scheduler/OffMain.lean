import CarbonLab.Scheduler.Beside

/-!
# Calls of another tasklet than main

A call in another greenlet than main's, with another tasklet than main current.  The parts
of a call that do not switch leave it so.
-/

namespace CarbonLab.Scheduler

variable {ν : Type}

namespace State

variable {s s' : State ν}

/-! ## The current tasklet -/

theorem modifyTasklet?_current (s : State ν) (t : Option TaskletId)
    (change : Tasklet ν → Tasklet ν) :
    (s.modifyTasklet? t change).currentTasklet = s.currentTasklet := by
  cases t <;> rfl

theorem insertTaskletToRunNext_current (s : State ν) (t : TaskletId) :
    (s.insertTaskletToRunNext t).currentTasklet = s.currentTasklet := by
  simp only [insertTaskletToRunNext]
  repeat' split
  all_goals rfl

theorem insertTasklet_current {t : TaskletId} (done : s.insertTasklet t = some s') :
    s'.currentTasklet = s.currentTasklet := by
  unfold insertTasklet at done
  repeat' split at done
  all_goals
    cases done
    try rfl

theorem removeTasklet_current (s : State ν) (t : TaskletId) :
    (s.removeTasklet t).1.currentTasklet = s.currentTasklet := by
  unfold removeTasklet
  dsimp only
  split
  · rfl
  · cases (s.tasklets t).previous <;> cases (s.tasklets t).next <;> rfl

theorem setParent_current {t : TaskletId} {parent : Option TaskletId}
    (done : s.setParent t parent = .ok s') : s'.currentTasklet = s.currentTasklet := by
  unfold setParent at done
  repeat' split at done
  all_goals
    cases done
    try rfl

theorem clearParent_current (s : State ν) (t : TaskletId) :
    (s.clearParent t).currentTasklet = s.currentTasklet := by
  unfold clearParent
  split
  · next done => exact setParent_current done
  · rfl

theorem rescheduleTasklet_current {t : TaskletId} (done : s.rescheduleTasklet t = some s') :
    s'.currentTasklet = s.currentTasklet := by
  rw [rescheduleTasklet] at done
  split at done
  · obtain ⟨s₁, inserted, rest⟩ := Option.bind_eq_some_iff.mp done
    cases rest
    have placed := insertTasklet_current inserted
    exact placed
  · obtain ⟨front, _, rest⟩ := Option.bind_eq_some_iff.mp done
    cases rest
    exact (insertTaskletToRunNext_current _ front).trans
      ((insertTaskletToRunNext_current _ t).trans (removeTasklet_current s front))
  · cases done
    rfl

/-- After a switch to `t`, its parent is current. -/
theorem runPostSwitch_current {t parent : TaskletId}
    (child : (s.tasklets t).taskletParent = some parent) (done : s.runPostSwitch t = some s') :
    s'.currentTasklet = parent := by
  unfold runPostSwitch at done
  rw [child, Option.bind_eq_bind, Option.bind_some] at done
  rw [rescheduleTasklet_current done]
  unfold leaveQueue
  dsimp only
  refine (removeTasklet_current _ t).trans ?_
  split <;> rfl

theorem removeTaskletFromBlocked_current (s : State ν) (c : ChannelId) (t : TaskletId) :
    (s.removeTaskletFromBlocked c t).currentTasklet = s.currentTasklet := by
  have last (s : State ν) (d : ChannelDirection) :
      (s.detachLast d c t).1.currentTasklet = s.currentTasklet := by
    unfold detachLast
    split
    · exact modifyTasklet?_current _ _ _
    · rfl
  have first (s : State ν) (d : ChannelDirection) :
      (s.detachFirst d c t).1.currentTasklet = s.currentTasklet := by
    unfold detachFirst
    split
    · exact modifyTasklet?_current _ _ _
    · rfl
  have ends : (s.detachEnds c t).1.currentTasklet = s.currentTasklet :=
    (first _ .sender).trans ((first _ .receiver).trans ((last _ .sender).trans (last s .receiver)))
  have middle (s : State ν) : (s.detachMiddle t).currentTasklet = s.currentTasklet :=
    (modifyTasklet?_current _ _ _).trans (modifyTasklet?_current s _ _)
  have cleared (s : State ν) : (s.clearBlockedFields c t).currentTasklet = s.currentTasklet := by
    simp only [clearBlockedFields]
    split <;> rfl
  unfold removeTaskletFromBlocked
  dsimp only
  rw [cleared]
  split
  · exact ends
  · exact (middle _).trans ends

theorem addTaskletToWaiting_current (s : State ν) (d : ChannelDirection) (c : ChannelId)
    (t : TaskletId) : (s.addTaskletToWaiting d c t).currentTasklet = s.currentTasklet := by
  simp only [addTaskletToWaiting]
  split <;> rfl

theorem addTaskletToWaitingToSend_current (s : State ν) (c : ChannelId) (t : TaskletId) :
    (s.addTaskletToWaitingToSend c t).currentTasklet = s.currentTasklet :=
  addTaskletToWaiting_current s .sender c t

theorem addTaskletToWaitingToReceive_current (s : State ν) (c : ChannelId) (t : TaskletId) :
    (s.addTaskletToWaitingToReceive c t).currentTasklet = s.currentTasklet :=
  addTaskletToWaiting_current s .receiver c t

theorem popNextTaskletBlocked_current (s : State ν) (d : ChannelDirection) (c : ChannelId) :
    (s.popNextTaskletBlocked d c).1.currentTasklet = s.currentTasklet := by
  unfold popNextTaskletBlocked
  split
  · exact removeTaskletFromBlocked_current s c _
  · rfl

end State

/-! ## Calls -/

/-- Another tasklet than main is current. -/
structure State.OffMain (s : State ν) : Prop where
  current : s.currentTasklet ≠ mainTasklet
  main : s.MainStarted

theorem State.OffMain.goesOn {s s' : State ν} (off : s.OffMain) (ages : s.Ages s')
    (current : s'.currentTasklet = s.currentTasklet) : s'.OffMain :=
  ⟨current ▸ off.current, ages.main off.main⟩

theorem State.OffMain.notMain {s : State ν} (off : s.OffMain) :
    (s.tasklets s.currentTasklet).isMain = false := by
  rw [Bool.eq_false_iff]
  exact fun main => off.current ((off.main.isMain _).mp main)

/-- A call of another greenlet than main's, with another tasklet than main current. -/
structure Config.OffMain (k : Config ν) : Prop where
  running : k.running ≠ mainTasklet
  state : k.state.OffMain

namespace Config.OffMain

variable {k : Config ν}

theorem withState (off : k.OffMain) {s : State ν} (ages : k.state.Ages s)
    (current : s.currentTasklet = k.state.currentTasklet) : (k.withState s).OffMain :=
  ⟨off.running, off.state.goesOn ages current⟩

theorem modifyTasklet (off : k.OffMain) (t : TaskletId) (change : Tasklet ν → Tasklet ν)
    (keeps : KeepsGreenlet change) : (k.modifyTasklet t change).OffMain :=
  off.withState ((State.Ages.refl _).modifyTasklet t change keeps) rfl

theorem record (off : k.OffMain) (event : Event ν) : (k.record event).OffMain :=
  ⟨off.running, off.state⟩

theorem recordCall (off : k.OffMain) (c : ChannelId) (operation : ChannelCall ν) :
    (k.recordCall c operation).OffMain :=
  ⟨off.running, off.state⟩

theorem push (off : k.OffMain) (frame : Frame) : (k.push frame).OffMain :=
  ⟨off.running, off.state⟩

theorem pop (off : k.OffMain) : k.pop.OffMain :=
  ⟨off.running, off.state⟩

end Config.OffMain

end CarbonLab.Scheduler
