import CarbonLab.Scheduler.Scheduling

/-!
# Requests to be rescheduled

A tasklet that asks to be rescheduled gives control back to the run loop of its
parent, and that run loop grants the request before anything else runs.  So a
request is only ever open in the two steps between, while control comes back.
-/

namespace CarbonLab.Scheduler

variable {ν : Type} {promise : Promise}

/-- Nothing keeps `SwitchTo` from switching to an active tasklet. -/
structure Open (s : State ν) : Prop where
  trap : s.switchTrapLevel = 0
  main : (s.tasklets mainTasklet).exceptionState = none

/-- `SwitchTo` of the parent from a yield gives it control. -/
theorem Leaving.switchTo_eq {k : Config ν} {r p : TaskletId} {rest : List TaskletId}
    (leaving : Leaving promise k r p rest) (unhindered : Open k.state) :
    k.switchTo p =
      { k.beginSwitch p with running := p, raised := none, control := .returning true } := by
  have started := leaving.chained.started p (by simp)
  obtain ⟨ran, arguments, kwArguments⟩ := leaving.shaped.passed p started
  have entered : (k.beginSwitch p).enterGreenlet none (k.state.taskletCount + 1) p =
      { k.beginSwitch p with running := p, raised := none, control := .returning true } := by
    have greenlet : ((k.beginSwitch p).state.tasklets p).greenlet = .started :=
      (congrArg Links.greenlet ((k.beginSwitch_agree p).links p)).trans started
    rw [Config.enterGreenlet, greenlet]
    rfl
  rw [← entered]
  simp only [Config.switchTo, arguments, kwArguments, if_false, unhindered.trap, ne_eq,
    not_true_eq_false]
  by_cases isMain : p = mainTasklet
  · subst isMain
    simp [unhindered.main]
  · have first : (k.state.tasklets p).firstRun = false := ran (by
      by_contra flag
      exact isMain ((leaving.chained.isMain p).mp (by simpa using flag)))
    simp [first]

/-- Control has come back from `x`, without an error, to the run loop that ran it. -/
def ComesBack (k : Config ν) (x : TaskletId) : Prop :=
  ∃ ok base endTasklet unblocked below, k.control = .returning ok ∧
    (k.stack k.running = .switchTo x :: .run base endTasklet unblocked x :: below ∧ ok = true ∨
      k.stack k.running = .run base endTasklet unblocked x :: below ∧
        (ok = true ∨ k.exitRaised = true))

/-- Control comes back through a switch or through the loop itself. -/
theorem ComesBack.top {k : Config ν} {x : TaskletId} (back : ComesBack k x) :
    ∃ frame below, k.stack k.running = frame :: below ∧ (frame = .switchTo x ∨
      ∃ base endTasklet unblocked, frame = .run base endTasklet unblocked x) := by
  obtain ⟨_, base, endTasklet, unblocked, below, _, ⟨stack, -⟩ | ⟨stack, -⟩⟩ := back
  · exact ⟨_, _, stack, .inl rfl⟩
  · exact ⟨_, below, stack, .inr ⟨base, endTasklet, unblocked, rfl⟩⟩

/-- A yield to the parent. -/
structure YieldsTo (k k' : Config ν) (p : TaskletId) : Prop where
  running : k'.running = p
  agree : Agree k.state k'.state
  back : ComesBack k' k.running

/-- `Yield` of a tasklet other than main brings control back to its parent. -/
theorem Entered.yieldsTo {k : Config ν} {p : TaskletId} {rest : List TaskletId}
    (entered : Entered promise k (k.running :: p :: rest)) (inCall : InCall k)
    (yielding : Yielding k) (unhindered : Open k.state) : YieldsTo k k.yield p := by
  have leaving := entered.leaving inCall yielding
  have notMain := leaving.notMain
  obtain ⟨parent, -, ⟨base, endTasklet, unblocked, below, stack⟩, -⟩ := entered.chained.active
  have other : p ≠ k.running := fun same =>
    (List.nodup_cons.mp entered.chained.nodup).1 (same ▸ .head _)
  have done : k.yield = { (k.push (.yieldSwitch k.running)).beginSwitch p with
      running := p, raised := none, control := .returning true } := by
    rw [← leaving.switchTo_eq unhindered]
    simp [Config.yield, yielding.current, notMain, parent]
  rw [done]
  refine ⟨rfl, (k.push (.yieldSwitch k.running)).beginSwitch_agree p,
    true, base, endTasklet, unblocked, below, rfl, .inl ⟨?_, rfl⟩⟩
  simp [other, stack]

/-- No tasklet but main has an open request of the kind `urgent`. -/
def NoRequests (urgent : RescheduleType → Prop) (k : Config ν) : Prop :=
  ∀ t, t ≠ mainTasklet → ¬ urgent (k.state.tasklets t).reschedule

theorem NoRequests.undisturbed {urgent : RescheduleType → Prop} (silent : ¬ urgent .none)
    {k k' : Config ν} (unasked : NoRequests urgent k) (state : k.state.Undisturbed k'.state) :
    NoRequests urgent k' := by
  intro t notMain
  rcases (state.tasklets t).request with same | dropped
  · rw [same]
    exact unasked t notMain
  · rw [dropped]
    exact silent

/-- Every open request of the kind `urgent` is about to be granted, where `place`
holds of the state, the running tasklet and the one with the request. -/
def Requests (urgent : RescheduleType → Prop) (place : State ν → TaskletId → TaskletId → Prop)
    (k : Config ν) : Prop :=
  ∀ t, t ≠ mainTasklet → urgent (k.state.tasklets t).reschedule →
    ComesBack k t ∧ place k.state k.running t

section

variable {urgent : RescheduleType → Prop} {place : State ν → TaskletId → TaskletId → Prop}
  {k : Config ν}

theorem Requests.none (requests : Requests urgent place k) (settled : ∀ t, ¬ ComesBack k t) :
    NoRequests urgent k := fun t notMain request =>
  settled t (requests t notMain request).1

theorem NoRequests.requests (unasked : NoRequests urgent k) : Requests urgent place k :=
  fun t notMain request => absurd request (unasked t notMain)

/-- A request that is open was open before. -/
theorem State.Undisturbed.requested {s s' : State ν} (undisturbed : s.Undisturbed s')
    (silent : ¬ urgent .none) {t : TaskletId} (request : urgent (s'.tasklets t).reschedule) :
    urgent (s.tasklets t).reschedule := by
  rcases (undisturbed.tasklets t).request with same | dropped
  · rwa [← same]
  · rw [dropped] at request
    exact absurd request silent

/-- A request stays open while `SwitchTo` comes back. -/
theorem Requests.switchedBack (requests : Requests urgent place k) (silent : ¬ urgent .none)
    (stable : ∀ {s s' : State ν} {r t : TaskletId}, Agree s s' → place s r t → place s' r t)
    {ok : Bool} (control : k.control = .returning ok) {x : TaskletId} {below : List Frame}
    (top : k.stack k.running = .switchTo x :: below)
    (calm : ∀ t error, (k.state.tasklets t).exceptionState = some error → error = .taskletExit) :
    Requests urgent place (k.pop.switchedBack x ok) := by
  intro t notMain request
  have kept := ((Schedules.refl k).pop.switchedBack x ok).state
  obtain ⟨⟨ok₀, base, endTasklet, unblocked, rest, returning, stack⟩, placed⟩ :=
    requests t notMain (kept.requested silent request)
  obtain rfl : ok₀ = ok := by
    rw [returning] at control
    cases control
    rfl
  obtain ⟨ok', returns, quiet, -, failed⟩ := k.pop.switchedBack_spec x ok₀
  rcases stack with ⟨stack, rfl⟩ | ⟨stack, -⟩
  · rw [top] at stack
    obtain ⟨⟨⟩, rfl⟩ := List.cons.inj stack
    refine ⟨⟨ok', base, endTasklet, unblocked, rest, returns, .inr ⟨?_, ?_⟩⟩, ?_⟩
    · rw [quiet.stack, quiet.running]
      simp [top]
    · cases ok' with
      | true => exact .inl rfl
      | false =>
          obtain ⟨absurd, -⟩ | ⟨thrown, raised⟩ := failed rfl
          · cases absurd
          · obtain ⟨error, exception⟩ := Option.ne_none_iff_exists'.mp thrown
            rw [exception, calm _ error exception] at raised
            exact .inr (by rw [Config.exitRaised, raised])
    · rw [quiet.running]
      exact stable quiet.agree placed
  · rw [top] at stack
    cases (List.cons.inj stack).1

/-- The run loop grants the request of the tasklet that came back. -/
theorem Requests.runSwitched {chain : List TaskletId} (requests : Requests urgent place k)
    (silent : ¬ urgent .none) (orderly : Orderly promise k chain) {ok : Bool}
    (control : k.control = .returning ok) {base x : TaskletId} {endTasklet : Option TaskletId}
    {unblocked : Bool} {below : List Frame}
    (top : k.stack k.running = .run base endTasklet unblocked x :: below)
    (alive : (k.pop.runSwitched base endTasklet unblocked x ok).control ≠ .crashed) :
    NoRequests urgent (k.pop.runSwitched base endTasklet unblocked x ok) := by
  obtain ⟨returned, entered⟩ := orderly.returned control top
  -- nobody else has an open request
  have only : ∀ t, t ≠ mainTasklet → urgent (k.state.tasklets t).reschedule →
      t = x ∧ (ok = true ∨ k.exitRaised = true) := by
    intro t notMain request
    obtain ⟨⟨ok₀, base₀, endTasklet₀, unblocked₀, rest, returning, stack⟩, -⟩ :=
      requests t notMain request
    rw [control] at returning
    cases returning
    rcases stack with ⟨stack, -⟩ | ⟨stack, fine⟩
    · rw [top] at stack
      cases (List.cons.inj stack).1
    · rw [top] at stack
      cases (List.cons.inj stack).1
      exact ⟨rfl, fine⟩
  rw [Config.runSwitched] at alive ⊢
  split
  · next switched =>
      rw [if_pos switched] at alive
      have quiet : Quiet k.pop (k.pop.catchExit x) := k.pop.catchExit_quiet x
      have caught := (Schedules.refl k).pop.catchExit x
      rw [Config.runGoesOn] at alive ⊢
      dsimp only at alive ⊢
      split at alive
      · exact absurd rfl alive
      next s' done =>
      obtain ⟨placed, granted⟩ := (returned.quiet quiet).undisturbed (quiet.entered entered) done
      have looped := (Schedules.refl ((k.pop.catchExit x).withState (if (s'.tasklets x).alive then
        s' else s'.clearParent x))).runLoop base endTasklet unblocked (unblocked &&
          !((k.pop.catchExit x).state.tasklets mainTasklet).blocked || endTasklet == some x)
      have cleared : s'.Undisturbed (if (s'.tasklets x).alive then s' else s'.clearParent x) := by
        split
        · exact .refl _
        · exact (State.Undisturbed.refl _).clearParent x
      intro t notMain request
      have open' := (cleared.trans looped.state).requested silent request
      obtain ⟨rfl, -⟩ := only t notMain ((caught.state.trans placed).requested silent open')
      rw [granted] at open'
      exact silent open'
  · next failed =>
      have unasked : NoRequests urgent k := fun t notMain request => failed (by
        rw [Bool.or_eq_true]
        exact (only t notMain request).2)
      exact unasked.undisturbed silent ((Schedules.refl k).pop.runFailed x).state

end

end CarbonLab.Scheduler
