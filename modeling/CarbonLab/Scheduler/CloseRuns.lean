import CarbonLab.Scheduler.CloseState

/-!
# Closing channels along whole runs

What each step does to the close states, and what was called and seen on a channel
since it was last opened, over every run of the scheduler.
-/

namespace CarbonLab.Scheduler

open Transition

variable {ν : Type}

/-! ## Kills -/

/-- The tasklet that the loops of `Channel::ClearBlocked` kill next, the second one
only once it is at the `senders`. -/
def Channel.nextCleared (channel : Channel) (senders : Bool) : Option TaskletId :=
  if senders then channel.blockedOnSend.first
  else channel.blockedOnReceive.first.or channel.blockedOnSend.first

/-- A kill of `t` takes it off the blocked list of `c` without running it. -/
structure State.KillRemoves (s : State ν) (t : TaskletId) (pending : Bool) (c : ChannelId) :
    Prop where
  pending : pending = true
  alive : (s.tasklets t).alive = true
  first : (s.tasklets t).killPending = false
  other : s.currentTasklet ≠ t
  blocked : (s.tasklets t).blocked = true
  channel : (s.tasklets t).channelBlockedOn = some c
  inserted : (s.tasklets t).scheduled = true ∨ s.previousTasklet ≠ none

/-- The tasklet that a step kills, with whether the kill is pending: the operation
itself, or the next one of a `ClearBlocked`. -/
def Config.killed (k : Config ν) : Option (Action ν) → Option (TaskletId × Bool)
  | some (.kill t pending) => some (t, pending)
  | some (.clear c pending) => ((k.state.channels c).nextCleared false).map (·, pending)
  | some _ => none
  | none =>
      match k.control, k.stack k.running with
      | .returning _, .clearBlocked c pending senders :: _ =>
          ((k.state.channels c).nextCleared senders).map (·, pending)
      | _, _ => none

theorem State.insertTasklet_isSome (s : State ν) (t : TaskletId) :
    (s.insertTasklet t).isSome ↔ (s.tasklets t).scheduled = true ∨ s.previousTasklet ≠ none := by
  unfold insertTasklet
  split
  · next scheduled => simp [scheduled]
  · next unscheduled =>
      split
      · next empty => simp [unscheduled, empty]
      · next last found => simp [found]

/-- A kill removes its tasklet from one list, or spares all channels. -/
theorem kill_cases (k : Config ν) (t : TaskletId) (pending : Bool) :
    (Spares k (k.kill t pending) ∧ ∀ c, ¬ k.state.KillRemoves t pending c) ∨
      ∃ c, k.state.KillRemoves t pending c ∧ Shifts c k (k.kill t pending) ∧
        ((k.kill t pending).state.channels c).balance =
          (k.state.channels c).balance - (k.state.tasklets t).blockedDirection.weight ∧
        (k.kill t pending).control = .returning true := by
  have unblocked : Spares k
      (if (k.state.tasklets t).blocked then k.modifyTasklet t .unblock else k) :=
    Spares.ite ((Spares.refl k).modifyTasklet t .unblock fun _ => .inr rfl) (.refl k)
  unfold Config.kill
  dsimp only
  split
  · next finished =>
      refine .inl ⟨(Spares.refl k).ret true, fun c removes => ?_⟩
      simp [removes.alive, removes.first] at finished
  next finished =>
  -- What the kill reads after unblocking its tasklet is as it was before.
  have current : (if (k.state.tasklets t).blocked then k.modifyTasklet t .unblock
      else k).state.currentTasklet = k.state.currentTasklet := by
    split <;> rfl
  have last : (if (k.state.tasklets t).blocked then k.modifyTasklet t .unblock
      else k).state.previousTasklet = k.state.previousTasklet := by
    split <;> rfl
  have direction : (((if (k.state.tasklets t).blocked then k.modifyTasklet t .unblock
      else k).modifyTasklet t (.setExceptionState .taskletExit)).state.tasklets t).blockedDirection =
        (k.state.tasklets t).blockedDirection := by
    split <;> simp
  have scheduled : (((if (k.state.tasklets t).blocked then k.modifyTasklet t .unblock
      else k).modifyTasklet t (.setExceptionState .taskletExit)).state.tasklets t).scheduled =
        (k.state.tasklets t).scheduled := by
    split <;> simp
  generalize (if (k.state.tasklets t).blocked then k.modifyTasklet t .unblock else k) = k₁
    at unblocked current last direction scheduled ⊢
  have set := unblocked.modifyTasklet t (.setExceptionState .taskletExit) fun _ => .inl rfl
  split
  · next self =>
      refine .inl ⟨(set.modifyTasklet t .clearException
        fun _ => .inl rfl).raise _, fun c removes => ?_⟩
      exact removes.other (current.symm.trans self)
  next other =>
  split
  · next isPending =>
      unfold Config.afterInsert
      split
      · next s' inserted =>
          have marked := ((set.withState (State.insertTasklet_spares inserted)).modifyTasklet t
            (.setReschedule .none) fun _ => .inl rfl).modifyTasklet t (.setKillPending true)
              fun _ => .inl rfl
          split
          · next blocked =>
              split
              · next c channel =>
                  have removed := (marked.shifts c).removed t
                  refine .inr ⟨c, ?_, removed.modifyTasklet t (.setBlockedDirection .neither)
                    fun _ => .inl rfl, ?_,
                    rfl⟩
                  · have possible := (State.insertTasklet_isSome _ t).mp
                      (Option.isSome_of_eq_some inserted)
                    rw [scheduled] at possible
                    simp only [Bool.or_eq_true, Bool.not_eq_true', not_or,
                      Bool.not_eq_false, Bool.not_eq_true] at finished
                    exact ⟨isPending, finished.1, finished.2, fun self => other (current.trans self), blocked,
                      channel, by rw [← last]; exact possible⟩
                  · have side : (((((k₁.modifyTasklet t (.setExceptionState .taskletExit)).withState
                        s').modifyTasklet t (.setReschedule .none)).modifyTasklet t
                        (.setKillPending true)).state.tasklets t).blockedDirection =
                          (k.state.tasklets t).blockedDirection := by
                      rw [← direction, ← State.insertTasklet_blockedDirection inserted]
                      simp
                    refine Eq.trans (State.removeTaskletFromBlocked_balance _ c t c) ?_
                    rw [if_pos rfl, side, marked.channels]
              · next unknown =>
                  refine .inl ⟨marked.crash, fun c removes => ?_⟩
                  rw [removes.channel] at unknown
                  cases unknown
          · next free => exact .inl ⟨marked.ret true, fun c removes => free removes.blocked⟩
      · next failed =>
          refine .inl ⟨set.crash, fun c removes => ?_⟩
          have possible := (State.insertTasklet_isSome _ t).mpr
            ((scheduled.symm ▸ last.symm ▸ removes.inserted))
          rw [failed] at possible
          cases possible
  · next direct =>
      refine .inl ⟨((set.modifyTasklet t (.setReschedule .none)
        fun _ => .inl rfl).push _).taskletRun t, ?_⟩
      exact fun c removes => direct removes.pending

/-! ## Steps -/

/-- The step returns a failed kill or throw to the call that had unblocked `t`, which
blocks it on `c` again. -/
def Config.Restores (k : Config ν) (t : TaskletId) (c : ChannelId) : Prop :=
  k.control = .returning false ∧ ∃ frame ∈ (k.stack k.running).head?,
    frame = .kill t true (some c) ∨ frame = .throwBlocked t (some c)

/-- `ClearBlocked` kills the next tasklet to be cleared. -/
theorem clearBlocked_kills {k : Config ν} {c : ChannelId} {senders : Bool} {t : TaskletId}
    (next : (k.state.channels c).nextCleared senders = some t) (pending ok : Bool) :
    ∃ frame, k.resumeFrame (.clearBlocked c pending senders) ok = (k.push frame).kill t pending := by
  cases senders with
  | true =>
      simp only [Channel.nextCleared, if_true] at next
      exact ⟨_, by rw [Config.resumeFrame, Config.clearSenders, next]⟩
  | false =>
      simp only [Channel.nextCleared, Bool.false_eq_true, if_false] at next
      rw [Config.resumeFrame, Config.clearBlocked]
      cases first : (k.state.channels c).blockedOnReceive.first with
      | some u =>
          rw [first, Option.some_or, Option.some.injEq] at next
          exact ⟨_, by rw [next]⟩
      | none =>
          rw [first, Option.none_or] at next
          exact ⟨_, by rw [Config.clearSenders, next]⟩

/-- `ClearBlocked` ends when nobody is left. -/
theorem clearBlocked_ends {k : Config ν} {c : ChannelId} {senders : Bool}
    (done : (k.state.channels c).nextCleared senders = none) (pending ok : Bool) :
    k.resumeFrame (.clearBlocked c pending senders) ok = k.ret true := by
  cases senders with
  | true =>
      simp only [Channel.nextCleared, if_true] at done
      rw [Config.resumeFrame, Config.clearSenders, done]
  | false =>
      simp only [Channel.nextCleared, Bool.false_eq_true, if_false, Option.or_eq_none_iff] at done
      rw [Config.resumeFrame, Config.clearBlocked, done.1]
      simp only [Config.clearSenders, done.2]

/-- A step that kills a tasklet does what the kill does. -/
theorem step_killed {k k' : Config ν} {label : Option (Action ν)} {t : TaskletId} {pending : Bool}
    (taken : k.step label = some k') (killed : k.killed label = some (t, pending)) :
    ∃ k₀ : Config ν, k₀.state = k.state ∧ k' = k₀.kill t pending := by
  have cleared : ∀ {k₀ : Config ν} {c : ChannelId} {waiting senders : Bool} (ok : Bool),
      k₀.state = k.state →
      ((k.state.channels c).nextCleared senders).map (·, waiting) = some (t, pending) →
      ∃ k₁ : Config ν, k₁.state = k.state ∧
        k₀.resumeFrame (.clearBlocked c waiting senders) ok = k₁.kill t pending := by
    intro k₀ c waiting senders ok same kills
    obtain ⟨u, front, pair⟩ := Option.map_eq_some_iff.mp kills
    obtain ⟨rfl, rfl⟩ := Prod.mk.inj pair
    obtain ⟨frame, kills⟩ := clearBlocked_kills (same ▸ front) waiting ok
    exact ⟨k₀.push frame, same, kills⟩
  unfold Config.killed at killed
  split at killed
  · next target waiting =>
      cases killed
      simp only [Config.step, Config.stepWith] at taken
      split at taken
      · cases taken
        exact ⟨k, rfl, rfl⟩
      · cases taken
  · next c waiting =>
      simp only [Config.step, Config.stepWith] at taken
      split at taken
      · cases taken
        exact cleared true rfl killed
      · cases taken
  · cases killed
  · split at killed
    · next ok c waiting senders rest control stack =>
        unfold Config.step Config.stepWith at taken
        rw [control] at taken
        cases taken
        unfold Config.resume
        rw [stack]
        exact cleared ok rfl killed
    · cases killed

/-- A `ClearBlocked` with nobody left to kill. -/
theorem clearBlocked_spares {k k₀ : Config ν} (spared : Spares k k₀) {c : ChannelId}
    {pending senders : Bool}
    (empty : ((k₀.state.channels c).nextCleared senders).map (·, pending) = none) (ok : Bool) :
    Spares k (k₀.resumeFrame (.clearBlocked c pending senders) ok) := by
  rw [clearBlocked_ends (Option.map_eq_none_iff.mp empty)]
  exact spared.ret true

/-- A call that returns into the call below it, other than into a `ClearBlocked` that
kills again. -/
theorem resume_cases {k : Config ν} {ok : Bool} (returning : k.control = .returning ok)
    (killed : k.killed none = none) :
    Settles k (k.resume ok) ∨
      ∃ t c, k.Restores t c ∧ (k.resume ok).state = k.state.modifyTasklet t (.block c) := by
  have popped : Spares k k.pop := .refl k
  unfold Config.resume
  split
  · exact .inl (Spares.settles (.refl k))
  next frame rest stack =>
  have restores : ∀ (t : TaskletId) (channel : Option ChannelId), ok = false →
      (frame = .kill t true channel ∨ frame = .throwBlocked t channel) →
      Settles k ((k.pop.modifyTasklet t (.block channel)).ret ok) ∨
        ∃ u c, k.Restores u c ∧ ((k.pop.modifyTasklet t (.block channel)).ret ok).state =
          k.state.modifyTasklet u (.block c) := by
    intro t channel failed called
    cases channel with
    | none =>
        refine .inl (Spares.settles ((popped.modifyTasklet t (.block none) ?_).ret ok))
        exact fun _ => .inr rfl
    | some c =>
        refine .inr ⟨t, c, ⟨by rw [returning, failed], frame, ?_, called⟩, rfl⟩
        rw [stack]
        rfl
  cases frame with
  | switchTo t => exact .inl (popped.switchedBack t ok).settles
  | run base endTasklet unblocked t => exact .inl (popped.runSwitched _ _ _ t ok).settles
  | yieldBlockedMain => exact .inl (popped.yieldRan ok).settles
  | yieldSwitch t => exact .inl (popped.yieldSwitched t ok).settles
  | runLimited timed => exact .inl (Spares.settles (popped.goesOn rfl rfl))
  | switchScheduled =>
      refine .inl (Spares.settles (Spares.ite popped.yield ?_))
      exact (popped.modifyTasklet _ (.setPaused false) fun _ => .inl rfl).ret false
  | switchUnscheduled =>
      exact .inl (Spares.settles ((popped.modifyTasklet _ (.setPaused false)
        fun _ => .inl rfl).ret ok))
  | kill t blocked channel =>
      unfold Config.resumeFrame
      dsimp only
      split
      · next failed =>
          simp only [Bool.and_eq_true, Bool.not_eq_true'] at failed
          exact restores t channel failed.1 (.inl (by rw [failed.2]))
      · exact .inl (Spares.settles (popped.ret ok))
  | throwBlocked t channel =>
      unfold Config.resumeFrame
      dsimp only
      split
      · exact .inl (Spares.settles (popped.ret ok))
      · next failed => exact restores t channel (eq_false_of_ne_true failed) (.inr rfl)
  | clearBlocked c pending senders =>
      unfold Config.killed at killed
      rw [returning, stack] at killed
      exact .inl (clearBlocked_spares popped killed ok).settles
  | sendBlocked c current =>
      unfold Config.resumeFrame
      dsimp only
      split
      · exact .inl (popped.settles.sendDone c current)
      · exact .inl (popped.sendFailed c current)
  | sendHanded c current =>
      unfold Config.resumeFrame
      dsimp only
      split
      · exact .inl (popped.settles.sendDone c current)
      · exact .inl (popped.settles.updateCloseState c)
  | receiveBlocked c current =>
      unfold Config.resumeFrame
      dsimp only
      split
      · exact .inl (popped.settles.receiveDone c current)
      · exact .inl (popped.receiveFailed c current)
  | receiveHanded c current =>
      unfold Config.resumeFrame
      dsimp only
      split
      · exact .inl (popped.settles.receiveDone c current)
      · exact .inl (popped.settles.updateCloseState c)

/-- An operation of Python code, other than a kill. -/
theorem act_cases {k k' : Config ν} {action : Action ν} (done : k.act action = some k')
    (killed : k.killed (some action) = none) :
    (k'.control = .crashed ∧ k.state.BlocksOpen k'.state) ∨ Settles k k' ∨
      (∃ c, action = .close c ∧ k'.state = (k.state.modifyChannel c
        fun channel => { channel with closing := true }).updateCloseState c) ∨
      ∃ c, action = .open c ∧ k'.state = k.state.modifyChannel c
        fun channel => { channel with closing := false, closed := false } := by
  have spared : Spares k k' → (k'.control = .crashed ∧ k.state.BlocksOpen k'.state) ∨
      Settles k k' ∨
      (∃ c, action = .close c ∧ k'.state = (k.state.modifyChannel c
        fun channel => { channel with closing := true }).updateCloseState c) ∨
      ∃ c, action = .open c ∧ k'.state = k.state.modifyChannel c
        fun channel => { channel with closing := false, closed := false } :=
    fun spared => .inr (.inl spared.settles)
  have here : Spares k k := .refl k
  cases action with
  | create callable =>
      cases done
      exact spared (here.create callable)
  | bind t => exact spared (here.bind done)
  | unBind t => exact spared (here.unBind done)
  | setup t => exact spared (here.setup done)
  | insert t =>
      cases done
      exact spared (here.insert t)
  | remove t =>
      cases done
      exact spared (here.remove t)
  | run t =>
      cases done
      exact spared (here.taskletRun t)
  | switch t =>
      cases done
      exact spared (here.switchImplementation t)
  | kill t pending => cases killed
  | throw t exception pending =>
      cases done
      exact spared (here.throwException t exception pending)
  | schedule =>
      cases done
      exact spared (here.schedule _ _)
  | scheduleRemove =>
      cases done
      exact spared (here.schedule _ _)
  | schedulerRun =>
      cases done
      exact spared (here.run none)
  | runNTasklets number =>
      unfold Config.act Config.actWith at done
      dsimp only at done
      split at done
      · cases done
      · cases done
        exact spared (here.runNTasklets number)
  | runTaskletsForTime timeout =>
      cases done
      exact spared (here.runTaskletsForTime timeout)
  | send c message =>
      cases done
      exact .inr (.inl (Settles.send k c message))
  | receive c =>
      cases done
      exact (Settles.receive k c).imp id .inl
  | clear c pending =>
      cases done
      exact spared (clearBlocked_spares here killed true)
  | close c =>
      cases done
      exact .inr (.inr (.inl ⟨c, rfl, rfl⟩))
  | «open» c =>
      cases done
      exact .inr (.inr (.inr ⟨c, rfl, rfl⟩))
  | setPreference c preference =>
      cases done
      refine .inr (.inl ⟨fun c' => ?_, fun _ _ => .inl⟩)
      by_cases same : c' = c
      · subst same
        exact ⟨by simp, .inl (by simp)⟩
      · exact ⟨by simp [same], .inl (by simp [same])⟩
  | setBlocktrap t value =>
      cases done
      exact spared ((here.modifyTasklet t (.setBlocktrap value) fun _ => .inl rfl).ret true)
  | switchTrap delta =>
      cases done
      exact spared (here.goesOn rfl rfl)
  | setUseNestedTasklets value =>
      cases done
      exact spared (here.goesOn rfl rfl)
  | finish => exact spared (here.endBody done)
  | raise error => exact spared (here.endBody done)

/-- What one step does to the close states. -/
theorem step_cases {k k' : Config ν} {label : Option (Action ν)} (taken : k.step label = some k') :
    (k'.control = .crashed ∧ k.state.BlocksOpen k'.state) ∨ Settles k k' ∨
      (∃ c, label = some (.close c) ∧ k'.state = (k.state.modifyChannel c
        fun channel => { channel with closing := true }).updateCloseState c) ∨
      (∃ c, label = some (.open c) ∧ k'.state = k.state.modifyChannel c
        fun channel => { channel with closing := false, closed := false }) ∨
      (∃ t c, k.Restores t c ∧ k'.state = k.state.modifyTasklet t (.block c)) ∨
      ∃ t pending c, k.killed label = some (t, pending) ∧ k.state.KillRemoves t pending c := by
  cases killed : k.killed label with
  | some kill =>
      obtain ⟨t, pending⟩ := kill
      obtain ⟨k₀, same, rfl⟩ := step_killed taken killed
      rcases kill_cases k₀ t pending with ⟨spared, -⟩ | ⟨c, removes, -⟩
      · rw [Spares, same] at spared
        exact .inr (.inl (State.Settles.of_spares spared))
      · rw [same] at removes
        exact .inr (.inr (.inr (.inr (.inr ⟨t, pending, c, rfl, removes⟩))))
  | none =>
      cases label with
      | none =>
          simp only [Config.step, Config.stepWith] at taken
          split at taken
          · next ok returning =>
              cases taken
              rcases resume_cases returning killed with settled | restored
              · exact .inr (.inl settled)
              · exact .inr (.inr (.inr (.inr (.inl restored))))
          · cases taken
      | some action =>
          simp only [Config.step, Config.stepWith] at taken
          split at taken
          · rcases act_cases taken killed with crashed | settled | ⟨c, rfl, same⟩ | ⟨c, rfl, same⟩
            · exact .inl crashed
            · exact .inr (.inl settled)
            · exact .inr (.inr (.inl ⟨c, rfl, same⟩))
            · exact .inr (.inr (.inr (.inl ⟨c, rfl, same⟩)))
          · cases taken

/-! ## What happened since the last open -/

/-- What happened to a channel since it was last opened: whether `Close` was called,
and whether the balance was 0 at some moment since then. -/
structure CloseHistory where
  called : Bool := false
  emptied : Bool := false
  deriving DecidableEq, Repr

namespace CloseHistory

/-- The balance is seen once more. -/
def see (h : CloseHistory) (balance : Int) : CloseHistory :=
  { h with emptied := h.called && (h.emptied || balance == 0) }

/-- The history of `c` after a step that leaves it with `balance`. -/
def after (h : CloseHistory) (label : Option (Action ν)) (c : ChannelId) (balance : Int) :
    CloseHistory :=
  match label with
  | some (.open c') => if c' = c then {} else h.see balance
  | some (.close c') => if c' = c then { h with called := true }.see balance else h.see balance
  | _ => h.see balance

end CloseHistory

/-- A configuration with the history of its channels. -/
structure Watched (ν : Type) where
  config : Config ν
  history : ChannelId → CloseHistory := fun _ => {}

namespace Watched

/-- One step of the scheduler, watched. -/
def stepWith (w : Watched ν) (unwind : Unwinding ν) (label : Option (Action ν)) :
    Option (Watched ν) :=
  (w.config.stepWith unwind label).map fun k =>
    ⟨k, fun c => (w.history c).after label c (k.state.channels c).balance⟩

/-- A step in which no tasklet lets go of a live greenlet. -/
def step (w : Watched ν) (label : Option (Action ν)) : Option (Watched ν) :=
  w.stepWith .never label

theorem stepWith_eq_step {w : Watched ν} {label : Option (Action ν)}
    (kept : w.config.DropsGreenlet label = false) (unwind : Unwinding ν) :
    w.stepWith unwind label = w.step label := by
  rw [step, stepWith, stepWith, Config.stepWith_eq_step kept]
  rfl

/-- A fresh scheduler, watched from the start. -/
def initial (clock : Nat → Int) (useNestedTasklets : Bool) : Watched ν where
  config := Config.initial clock useNestedTasklets

end Watched

/-- The close state of a channel is what its history says. -/
structure Channel.CloseExact (channel : Channel) (h : CloseHistory) : Prop where
  closed_iff : channel.closed = true ↔ h.called = true ∧ h.emptied = true
  emptied : channel.closing = true → channel.balance = 0 → channel.closed = true
  closing : channel.closed = true → channel.closing = true

/-- The close state of every channel is exact.  A run that dereferenced a null
pointer is over and is not looked at. -/
def Watched.CloseExact (w : Watched ν) : Prop :=
  w.config.control ≠ .crashed → ∀ c, (w.config.state.channels c).CloseExact (w.history c)

/-- The step takes the tasklet that kept `c` from being empty off its blocked list by a
pending kill, while `c` is closing. -/
structure Config.ClearsClosing (k : Config ν) (label : Option (Action ν)) (c : ChannelId) :
    Prop where
  kills : ∃ t pending, k.killed label = some (t, pending) ∧ k.state.KillRemoves t pending c ∧
    (k.state.channels c).balance = (k.state.tasklets t).blockedDirection.weight
  closing : (k.state.channels c).closing = true
  unclosed : (k.state.channels c).closed = false

/-- The flags of a channel track its history. -/
structure Channel.Tracks (channel : Channel) (h : CloseHistory) : Prop where
  closing : channel.closing = h.called
  closed : channel.closed = h.emptied
  called : h.emptied = true → h.called = true
  emptied : channel.closing = true → channel.balance = 0 → channel.closed = true

namespace Channel.Tracks

variable {channel channel' : Channel} {h : CloseHistory}

theorem exact (tracks : channel.Tracks h) : channel.CloseExact h where
  closed_iff := by
    rw [tracks.closed]
    exact ⟨fun emptied => ⟨tracks.called emptied, emptied⟩, And.right⟩
  emptied := tracks.emptied
  closing := fun closed => by
    rw [tracks.closing]
    exact tracks.called (tracks.closed ▸ closed)

/-- A closed flag that follows the balance keeps tracking. -/
theorem see (tracks : channel.Tracks h) (follows : channel.Follows channel') :
    channel'.Tracks (h.see channel'.balance) := by
  have called : channel'.closing = h.called := follows.closing.trans tracks.closing
  have closed : channel'.closed = (h.called && (h.emptied || channel'.balance == 0)) := by
    rcases follows.closed with ⟨same, balance⟩ | recomputed
    · rw [same, tracks.closed, balance]
      cases emptied : h.emptied with
      | true => simp [tracks.called emptied]
      | false =>
          have exact := tracks.emptied
          rw [tracks.closing, tracks.closed, emptied] at exact
          simpa using fun isCalled isZero => Bool.noConfusion (exact isCalled isZero)
    · rw [recomputed, tracks.closed, tracks.closing]
      cases emptied : h.emptied with
      | true => simp [tracks.called emptied]
      | false => simp
  refine ⟨called, closed, ?_, ?_⟩
  · intro emptied
    exact (Bool.and_eq_true_iff.mp emptied).1
  · intro closing balance
    rw [closed, ← called, closing, balance]
    simp

end Channel.Tracks

theorem CloseHistory.after_of_other {label : Option (Action ν)} (h : CloseHistory)
    (notClose : ∀ c, label ≠ some (.close c)) (notOpen : ∀ c, label ≠ some (.open c))
    (c : ChannelId) (balance : Int) : h.after label c balance = h.see balance := by
  unfold after
  split
  · next c' => exact absurd rfl (notOpen c')
  · next c' => exact absurd rfl (notClose c')
  · rfl

/-- A step that removes a tasklet by a kill changes one balance. -/
theorem step_kill {k k' : Config ν} {label : Option (Action ν)} {t : TaskletId} {pending : Bool}
    {c : ChannelId} (taken : k.step label = some k') (killed : k.killed label = some (t, pending))
    (removes : k.state.KillRemoves t pending c) :
    Shifts c k k' ∧ (k'.state.channels c).balance =
      (k.state.channels c).balance - (k.state.tasklets t).blockedDirection.weight ∧
      k'.control = .returning true := by
  obtain ⟨k₀, same, rfl⟩ := step_killed taken killed
  rcases kill_cases k₀ t pending with ⟨-, missing⟩ | ⟨c', removes', shifts, balance, returned⟩
  · rw [same] at missing
    exact absurd removes (missing c)
  · rw [same] at removes' balance
    have one : c' = c := Option.some.inj (removes'.channel.symm.trans removes.channel)
    subst one
    rw [Shifts, same] at shifts
    exact ⟨shifts, balance, returned⟩

/-- A step that is neither a close nor an open keeps every closed flag with the balance,
unless it takes the last tasklet off a closing channel by a pending kill. -/
theorem step_follows {k k' : Config ν} {label : Option (Action ν)} (taken : k.step label = some k')
    (running : k'.control ≠ .crashed) (notClose : ∀ c, label ≠ some (.close c))
    (notOpen : ∀ c, label ≠ some (.open c)) {c : ChannelId} (spared : ¬ k.ClearsClosing label c) :
    (k.state.channels c).Follows (k'.state.channels c) := by
  rcases step_cases taken with ⟨crashed, -⟩ | settled | ⟨c', close, -⟩ | ⟨c', opens, -⟩ |
    ⟨t, c', -, same⟩ | ⟨t, pending, c', killed, removes⟩
  · exact absurd crashed running
  · exact settled.follows c
  · exact absurd close (notClose c')
  · exact absurd opens (notOpen c')
  · rw [same]
    exact ⟨rfl, .inl ⟨rfl, rfl⟩⟩
  · obtain ⟨shifts, balance, -⟩ := step_kill taken killed removes
    obtain ⟨closing, closed⟩ := shifts.flags c
    by_cases here : c = c'
    · subst here
      refine ⟨closing, .inr ?_⟩
      rw [closed]
      cases isClosing : (k.state.channels c).closing with
      | false => simp
      | true =>
          cases isClosed : (k.state.channels c).closed with
          | true => rfl
          | false =>
              have waiting : (k'.state.channels c).balance ≠ 0 := fun empty =>
                spared ⟨⟨t, pending, killed, removes, by omega⟩, isClosing, isClosed⟩
              simp [waiting]
    · exact ⟨closing, .inl ⟨closed, shifts.balance c here⟩⟩

/-- Such a kill leaves a closing channel with balance 0 that is not closed. -/
theorem Config.ClearsClosing.not_exact {w w' : Watched ν} {label : Option (Action ν)}
    {c : ChannelId} (clears : w.config.ClearsClosing label c) (taken : w.step label = some w') :
    ¬ w'.CloseExact := by
  intro exact
  obtain ⟨⟨t, pending, killed, removes, last⟩, closing, unclosed⟩ := clears
  obtain ⟨k', stepped, rfl⟩ := Option.map_eq_some_iff.mp taken
  obtain ⟨shifts, balance, returned⟩ := step_kill stepped killed removes
  have running : k'.control ≠ .crashed := by
    rw [returned]
    exact Control.noConfusion
  have empty : (k'.state.channels c).balance = 0 := by omega
  have closed := (exact running c).emptied ((shifts.flags c).closing.trans closing) empty
  rw [(shifts.flags c).closed, unclosed] at closed
  cases closed

/-- The flags of every channel track its history. -/
def Watched.Tracks (w : Watched ν) : Prop :=
  w.config.control ≠ .crashed → ∀ c, (w.config.state.channels c).Tracks (w.history c)

/-- `Channel::Close`. -/
theorem Channel.Tracks.close {s : State ν} {h : ChannelId → CloseHistory}
    (tracks : ∀ c, (s.channels c).Tracks (h c)) (c c' : ChannelId) :
    let s' := (s.modifyChannel c fun channel => { channel with closing := true }).updateCloseState c
    (s'.channels c').Tracks ((h c').after (some (.close c : Action ν)) c' (s'.channels c').balance) := by
  intro s'
  by_cases same : c = c'
  · subst same
    have balance : (s'.channels c).balance = (s.channels c).balance := by
      simp only [s', State.updateCloseState, State.modifyChannel_channels, Function.update_self]
      split <;> rfl
    have closing : (s'.channels c).closing = true := by
      simp only [s', State.updateCloseState, State.modifyChannel_channels, Function.update_self]
      split <;> rfl
    have closed : (s'.channels c).closed =
        ((h c).emptied || (s.channels c).balance == 0) := by
      rw [← (tracks c).closed]
      simp only [s', State.updateCloseState, State.modifyChannel_channels, Function.update_self,
        Bool.true_and]
      split
      · next empty => simp [empty]
      · next waiting => simp [waiting]
    rw [CloseHistory.after]
    simp only [if_true]
    refine ⟨closing, ?_, fun _ => rfl, ?_⟩
    · rw [closed, balance]
      simp [CloseHistory.see]
    · intro _ empty
      rw [closed, ← balance, empty]
      simp
  · have kept : s'.channels c' = s.channels c' := by
      simp only [s', State.updateCloseState, State.modifyChannel_channels, Function.update_apply,
        if_neg (Ne.symm same)]
    rw [kept, CloseHistory.after]
    simp only [if_neg same]
    exact (tracks c').see ⟨rfl, .inl ⟨rfl, rfl⟩⟩

/-- `Channel::Open`. -/
theorem Channel.Tracks.open {s : State ν} {h : ChannelId → CloseHistory}
    (tracks : ∀ c, (s.channels c).Tracks (h c)) (c c' : ChannelId) :
    let s' := s.modifyChannel c fun channel => { channel with closing := false, closed := false }
    (s'.channels c').Tracks ((h c').after (some (.open c : Action ν)) c' (s'.channels c').balance) := by
  intro s'
  rw [CloseHistory.after]
  by_cases same : c = c'
  · subst same
    simp only [s', State.modifyChannel_channels, Function.update_self, if_true]
    exact ⟨rfl, rfl, Bool.noConfusion, Bool.noConfusion⟩
  · simp only [s', State.modifyChannel_channels, Function.update_of_ne (Ne.symm same), if_neg same]
    exact (tracks c').see ⟨rfl, .inl ⟨rfl, rfl⟩⟩

/-- Every step but such a kill keeps the flags tracking the history. -/
theorem Watched.Tracks.step {w w' : Watched ν} {label : Option (Action ν)} (tracks : w.Tracks)
    (spared : ∀ c, ¬ w.config.ClearsClosing label c) (taken : w.step label = some w') :
    w'.Tracks := by
  obtain ⟨k', stepped, rfl⟩ := Option.map_eq_some_iff.mp taken
  intro running c
  have before : ∀ c, (w.config.state.channels c).Tracks (w.history c) := by
    refine tracks fun crashed => ?_
    cases label <;> simp [Config.stepWith, crashed] at stepped
  by_cases close : ∃ c', label = some (.close c')
  · obtain ⟨c', rfl⟩ := close
    simp only [Config.stepWith] at stepped
    split at stepped
    · cases stepped
      exact Channel.Tracks.close before c' c
    · cases stepped
  by_cases opens : ∃ c', label = some (.open c')
  · obtain ⟨c', rfl⟩ := opens
    simp only [Config.stepWith] at stepped
    split at stepped
    · cases stepped
      exact Channel.Tracks.open before c' c
    · cases stepped
  have notClose : ∀ c', label ≠ some (.close c') := fun c' same => close ⟨c', same⟩
  have notOpen : ∀ c', label ≠ some (.open c') := fun c' same => opens ⟨c', same⟩
  have follows := step_follows stepped running notClose notOpen (spared c)
  dsimp only
  rw [CloseHistory.after_of_other _ notClose notOpen]
  exact (before c).see follows

theorem Watched.initial_tracks (clock : Nat → Int) (useNestedTasklets : Bool) :
    (Watched.initial clock useNestedTasklets : Watched ν).Tracks :=
  fun _ _ => ⟨rfl, rfl, Bool.noConfusion, Bool.noConfusion⟩

/-- A step blocks a tasklet on a closing channel only where a failed kill or throw puts
back the block its tasklet had. -/
theorem step_blocks {k k' : Config ν} {label : Option (Action ν)} (taken : k.step label = some k')
    {t : TaskletId} {c : ChannelId} (closing : (k.state.channels c).closing = true)
    (blocked : (k'.state.tasklets t).waitsOn = some c) :
    (k.state.tasklets t).waitsOn = some c ∨ k.Restores t c := by
  have opened : k.state.BlocksOpen k'.state → (k.state.tasklets t).waitsOn = some c ∨
      k.Restores t c := fun blocks => by
    rcases blocks t c blocked with before | opened
    · exact .inl before
    · rw [closing] at opened
      cases opened
  rcases step_cases taken with ⟨-, blocks⟩ | settled | ⟨c', -, same⟩ | ⟨c', -, same⟩ |
    ⟨t', c', restores, same⟩ | ⟨t', pending, c', killed, removes⟩
  · exact opened blocks
  · exact opened settled.blocks
  · rw [same] at blocked
    exact .inl blocked
  · rw [same] at blocked
    exact .inl blocked
  · rw [same] at blocked
    by_cases here : t = t'
    · subst here
      simp only [State.modifyTasklet_tasklets, Function.update_self, Tasklet.waitsOn,
        Tasklet.block_blocked, Tasklet.block_channelBlockedOn, if_true, Option.some.injEq] at blocked
      exact .inr (blocked ▸ restores)
    · rw [State.modifyTasklet_tasklets, Function.update_of_ne here] at blocked
      exact .inl blocked
  · exact opened (step_kill taken killed removes).1.blocks

/-- The step returns a failed kill or throw to a call that blocks its tasklet again,
on a channel that is closing now. -/
structure Config.Reblocks (k : Config ν) (t : TaskletId) (c : ChannelId) : Prop where
  restores : k.Restores t c
  closing : (k.state.channels c).closing = true
  free : (k.state.tasklets t).waitsOn ≠ some c

/-- What keeps the close states: no pending kill takes the last tasklet off a closing
channel, and no failed kill or throw blocks its tasklet on a closing channel again. -/
def Config.KeepsClosed (k : Config ν) (label : Option (Action ν)) : Prop :=
  (∀ c, ¬ k.ClearsClosing label c) ∧ ∀ t c, ¬ k.Reblocks t c

/-- Nobody is newly blocked on a channel that was closing. -/
def State.BlocksNobody (s s' : State ν) : Prop :=
  ∀ t c, (s.channels c).closing = true → (s'.tasklets t).waitsOn = some c →
    (s.tasklets t).waitsOn = some c

/-- A call that blocks its tasklet again blocks it. -/
theorem Config.Restores.blocks {k k' : Config ν} {label : Option (Action ν)} {t : TaskletId}
    {c : ChannelId} (restores : k.Restores t c) (taken : k.step label = some k') :
    (k'.state.tasklets t).waitsOn = some c := by
  obtain ⟨returning, frame, top, called⟩ := restores
  cases label with
  | some action =>
      simp only [Config.step, Config.stepWith, returning, reduceCtorEq, false_and, if_false] at taken
  | none =>
      unfold Config.step Config.stepWith at taken
      rw [returning] at taken
      cases taken
      unfold Config.resume
      cases stack : k.stack k.running with
      | nil =>
          rw [stack] at top
          cases top
      | cons first rest =>
          rw [stack] at top
          cases top
          rcases called with rfl | rfl <;> simp [Config.resumeFrame, Tasklet.waitsOn]

/-- A step newly blocks nobody on a closing channel exactly when it blocks nobody
again. -/
theorem step_blocksNobody_iff {k k' : Config ν} {label : Option (Action ν)}
    (taken : k.step label = some k') :
    k.state.BlocksNobody k'.state ↔ ∀ t c, ¬ k.Reblocks t c := by
  constructor
  · intro missing t c again
    exact again.free (missing t c again.closing (again.restores.blocks taken))
  · intro spared t c closing blocked
    by_contra free
    exact spared t c ⟨(step_blocks taken closing blocked).resolve_left free, closing, free⟩

/-- **Close state is exact.** While no tasklet lets go of a live greenlet and every step
keeps the close states, every closed flag says exactly that the channel was closed and
was empty since.  A step leaves an inexact one, or newly blocks a tasklet on a closing
channel, exactly when it does not keep them. -/
theorem closeState_exact {unwind : Unwinding ν} {clock : Nat → Int} {nested : Bool} {w : Watched ν}
    (reached : Reachable (fun w => Watched.stepWith w unwind) (fun w label =>
      w.config.DropsGreenlet label = false ∧ w.config.KeepsClosed label)
      (Watched.initial clock nested) w) :
    w.CloseExact ∧ ∀ label w', w.config.DropsGreenlet label = false →
      w.stepWith unwind label = some w' →
      ((w'.CloseExact ∧ w.config.state.BlocksNobody w'.config.state) ↔
        w.config.KeepsClosed label) := by
  have stepped : Reachable Watched.step (fun w label =>
      w.config.DropsGreenlet label = false ∧ w.config.KeepsClosed label)
      (Watched.initial clock nested) w :=
    reached.congr_step fun _ _ allowed => Watched.stepWith_eq_step allowed.1 unwind
  have tracks : w.Tracks := stepped.invariant (Watched.initial_tracks clock nested)
    fun _ _ _ tracks spared taken => tracks.step spared.2.1 taken
  refine ⟨fun running c => (tracks running c).exact, fun label w' kept taken => ?_⟩
  rw [Watched.stepWith_eq_step kept] at taken
  refine and_congr ⟨?_, ?_⟩ ?_
  · exact fun exact c clears => clears.not_exact taken exact
  · exact fun spared running c => (tracks.step spared taken running c).exact
  · obtain ⟨k', stepped, rfl⟩ := Option.map_eq_some_iff.mp taken
    exact step_blocksNobody_iff stepped

/-- A tasklet waits to receive on a channel that is then closed. -/
def closingLabels : List (Option (Action Unit)) :=
  [some (.create true), none, some (.setup 1 (some true) none), none, some (.run 1),
    some (.receive 0), none, none, none, some (.close 0), none]

/-- Neither a live greenlet let go of, nor a pending kill, nor a failure that comes back
to a kill or throw. -/
def Config.isPlain (k : Config Unit) (label : Option (Action Unit)) : Bool :=
  !k.DropsGreenlet label && ((k.killed label).all fun kill => !kill.2) &&
    (k.control ≠ .returning false || match (k.stack k.running).head? with
      | some (.kill _ _ _) | some (.throwBlocked _ _) => false
      | _ => true)

theorem Config.keepsClosed_of_isPlain {k : Config Unit} {label : Option (Action Unit)}
    (plain : k.isPlain label = true) :
    k.DropsGreenlet label = false ∧ k.KeepsClosed label := by
  simp only [isPlain, Bool.and_eq_true, Bool.not_eq_true'] at plain
  obtain ⟨⟨kept, direct⟩, returns⟩ := plain
  refine ⟨kept, ?_, ?_⟩
  · rintro c ⟨⟨t, pending, killed, removes, -⟩, -, -⟩
    rw [killed, removes.pending] at direct
    cases direct
  · rintro t c ⟨⟨returning, frame, top, called⟩, -, -⟩
    rw [returning, Option.mem_def.mp top] at returns
    rcases called with rfl | rfl <;> simp at returns

/-- Killed at once, the waiting tasklet leaves the channel closed. -/
theorem closeState_exact_killed :
    ∃ w : Watched Unit, (w.config.state.channels 0).closed = true ∧
      w.CloseExact ∧ ∀ label w', w.config.DropsGreenlet label = false →
        w.stepWith .never label = some w' →
        ((w'.CloseExact ∧ w.config.state.BlocksNobody w'.config.state) ↔
          w.config.KeepsClosed label) := by
  have ran : (runLabels (fun w => Watched.stepWith w .never)
      (fun w label => w.config.isPlain label) (Watched.initial (fun _ => 0) true)
      (closingLabels ++ [some (.kill 1 false), none, none, none])).map
      (fun w => (w.config.state.channels 0).closed) = some true := by
    decide +kernel
  obtain ⟨w, done, closed⟩ := Option.map_eq_some_iff.mp ran
  exact ⟨w, closed, closeState_exact ((Reachable.of_runLabels .refl done).mono
    fun _ _ => Config.keepsClosed_of_isPlain)⟩

/-- Killed at once and failing, the tasklet is dead and blocked on the closed channel. -/
theorem failedKill_reblocks :
    ∃ w : Watched Unit, Reachable Watched.step (fun _ _ => True)
      (Watched.initial (fun _ => 0) true) w ∧ (w.config.state.channels 0).closed = true ∧
      (w.config.state.channels 0).blockedOnReceive.first = none ∧
      (w.config.state.tasklets 1).alive = false ∧
      (w.config.state.tasklets 1).waitsOn = some 0 := by
  have ran : (runLabels Watched.step (fun _ _ => true) (Watched.initial (fun _ => 0) true)
      (closingLabels ++ [some (.kill 1 false), none, none, none, none,
        some (.raise (.object ())), none, none, none])).map
      (fun w => ((w.config.state.channels 0).closed,
        (w.config.state.channels 0).blockedOnReceive.first, (w.config.state.tasklets 1).alive,
        (w.config.state.tasklets 1).waitsOn)) = some (true, none, false, some 0) := by
    decide +kernel
  obtain ⟨w, done, facts⟩ := Option.map_eq_some_iff.mp ran
  simp only [Prod.mk.injEq] at facts
  exact ⟨w, (Reachable.of_runLabels .refl done).mono fun _ _ _ => trivial, facts⟩

/-- Killed with pending, it leaves a closing channel with balance 0 that is not
closed. -/
theorem pendingKill_not_exact :
    ¬ ∀ w : Watched Unit, Reachable Watched.step (fun _ _ => True)
      (Watched.initial (fun _ => 0) true) w → w.CloseExact := by
  intro exact
  have ran : (runLabels Watched.step (fun _ _ => true) (Watched.initial (fun _ => 0) true)
      (closingLabels ++ [some (.kill 1 true), none])).map (fun w => (w.config.control,
        (w.config.state.channels 0).closing, (w.config.state.channels 0).balance,
        (w.config.state.channels 0).closed)) = some (.python, true, 0, false) := by
    decide +kernel
  obtain ⟨w, done, facts⟩ := Option.map_eq_some_iff.mp ran
  simp only [Prod.mk.injEq] at facts
  obtain ⟨python, closing, empty, unclosed⟩ := facts
  have running : w.config.control ≠ .crashed := by
    rw [python]
    exact Control.noConfusion
  have closed := (exact w ((Reachable.of_runLabels .refl done).mono fun _ _ _ => trivial)
    running 0).emptied closing empty
  rw [unclosed] at closed
  cases closed

end CarbonLab.Scheduler
