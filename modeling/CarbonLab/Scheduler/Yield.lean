import CarbonLab.Scheduler.RunLoop

/-!
# The yield keeps configurations orderly

`Yield` of main runs the other tasklets, `Yield` of any other tasklet goes back to
the run loop of its parent until somebody unblocks it.
-/

namespace CarbonLab.Scheduler

variable {ν : Type} {promise : Promise}

/-- If the running tasklet is blocked it is in the call that blocked it, with
nothing above. -/
def InCall (k : Config ν) : Prop :=
  (k.state.tasklets k.running).blocked = true → ∃ c frame,
    (k.state.tasklets k.running).channelBlockedOn = some c ∧ WaitsOn c k.running frame ∧
      k.stack k.running = [frame]

theorem Yielding.atRest {k : Config ν} (yielding : Yielding k)
    (unblocked : (k.state.tasklets k.running).blocked = false) : AtRest k where
  current := yielding.current
  unblocked := unblocked
  exclusive := yielding.exclusive.settle fun blocked =>
    absurd (unblocked.symm.trans blocked) Bool.false_ne_true

theorem AtRest.inCall {k : Config ν} (rest : AtRest k) : InCall k := fun blocked =>
  absurd (rest.unblocked.symm.trans blocked) Bool.false_ne_true

/-- Main is in the run queue even when it is blocked. -/
theorem Exclusive.of_main {s : State ν} {doomed : Option TaskletId}
    (exclusive : Exclusive s doomed (some mainTasklet)) : Exclusive s doomed none :=
  ⟨exclusive.lists, fun t notMain _ => exclusive.waiting t notMain (by simpa using notMain)⟩

namespace Entered

variable {k k' : Config ν} {chain : List TaskletId}

/-- The call that blocked the running tasklet fails. -/
theorem failed (entered : Entered promise k chain) (inCall : InCall k) (yielding : Yielding k)
    (same : SameBody k k') (control : k'.control = .returning false) : Ordered promise k' := by
  cases blocked : (k.state.tasklets k.running).blocked with
  | false => exact entered.returned (yielding.atRest blocked) same control
  | true =>
      obtain ⟨c, frame, channel, waits, stack⟩ := inCall blocked
      have agree : Agree k.state k'.state := same.state ▸ Agree.refl _
      have entered' := entered.agree agree same.running same.stack
      have failing : Failing k' [] := by
        refine ⟨?_, ?_, c, frame, same.running ▸ waits, ?_, fun c' d t onList here => ?_⟩
        · rw [same.state, same.running, yielding.current]
        · rw [same.state, same.running]
          exact yielding.exclusive.doom _
        · rw [same.stack, same.running, stack, List.nil_append]
        · rw [same.state] at onList
          obtain ⟨-, channel'⟩ := yielding.exclusive.onList_blocked onList
          rw [here, same.running, channel] at channel'
          exact (Option.some.inj channel').symm
      refine .inr (.inr ⟨chain, entered'.chained, entered'.queued, entered'.shaped, ?_⟩)
      rw [Local, control, same.stack, same.running, stack]
      rcases waits with rfl | rfl
      · exact failing
      · exact failing

/-- Main waits for other tasklets to unblock it. -/
theorem pushBlockedMain (entered : Entered promise k chain) (inCall : InCall k) (yielding : Yielding k)
    (main : k.running = mainTasklet) : Looping promise (k.push .yieldBlockedMain) chain where
  chained := entered.chained.agree (Agree.refl _) rfl fun t other => by simp [other]
  queued := entered.queued
  shaped := by
    refine ⟨fun t => ?_, fun t blocked => ?_, entered.shaped.passed⟩
    · by_cases here : t = k.running
      · subst here
        simp only [Config.push_stack, Function.update_self]
        refine .operations fun other member => ?_
        cases member with
        | head => exact ⟨rfl, fun u owner => (Option.some.inj owner).symm.trans main.symm⟩
        | tail _ member => exact entered.operations other member
      · simpa [here] using entered.shaped.proper t
    · by_cases here : t = k.running
      · subst here
        obtain ⟨c, frame, channel, waits, stack⟩ := inCall blocked
        refine ⟨c, frame, channel, waits, ?_⟩
        simp only [Config.push_stack, Function.update_self, stack]
        exact .waiting main
      · simpa [here] using entered.shaped.blocked t blocked
  operations := by
    simp only [Config.push_stack, Config.push_running, Function.update_self]
    intro other member
    cases member with
    | head => exact ⟨rfl, fun u owner => (Option.some.inj owner).symm.trans main.symm⟩
    | tail _ member => exact entered.operations other member
  current := yielding.current
  ready := .inr ⟨k.stack k.running, by simp⟩

/-- The running tasklet goes back to its parent. -/
theorem leaving {r p : TaskletId} {rest : List TaskletId} (entered : Entered promise k (r :: p :: rest))
    (inCall : InCall k) (yielding : Yielding k) : Leaving promise (k.push (.yieldSwitch r)) r p rest := by
  obtain rfl : r = k.running := by simpa using entered.chained.head
  have notMain : k.running ≠ mainTasklet := fun main =>
    (List.nodup_cons.mp entered.chained.nodup).1 (main ▸ entered.chained.active.2.2.2.main_mem)
  constructor
  case chained => exact entered.chained.agree (Agree.refl _) rfl fun t other => by simp [other]
  case queued => exact entered.queued
  case shaped =>
    refine ⟨fun t => ?_, fun t blocked => ?_, entered.shaped.passed⟩
    · by_cases here : t = k.running
      · subst here
        simp only [Config.push_stack, Function.update_self]
        exact .yielding entered.operations
      · simpa [here] using entered.shaped.proper t
    · by_cases here : t = k.running
      · subst here
        obtain ⟨c, frame, channel, waits, stack⟩ := inCall blocked
        refine ⟨c, frame, channel, waits, ?_⟩
        simp only [Config.push_stack, Function.update_self, stack]
        exact .yielding notMain
      · simpa [here] using entered.shaped.blocked t blocked
  case stack => exact ⟨k.stack k.running, by simp, entered.operations⟩
  case yielding => exact ⟨yielding.current, yielding.exclusive⟩

end Entered

/-- Below a running tasklet other than main stands its parent. -/
theorem Chained.parent {k : Config ν} {chain : List TaskletId} (chained : Chained k chain)
    (notMain : k.running ≠ mainTasklet) : ∃ p rest, chain = k.running :: p :: rest := by
  have head := chained.head
  have active := chained.active
  match chain, head, active with
  | [t], head, active =>
      obtain rfl : t = k.running := by simpa using head
      exact absurd active.1 notMain
  | t :: p :: rest, head, _ =>
      obtain rfl : t = k.running := by simpa using head
      exact ⟨p, rest, rfl⟩

/-- `ScheduleManager::Yield`. -/
theorem Entered.yield {k : Config ν} {chain : List TaskletId} (entered : Entered promise k chain)
    (inCall : InCall k) (yielding : Yielding k) : Ordered promise k.yield := by
  simp only [Config.yield, yielding.current]
  split
  · next main =>
      have exclusive : Exclusive k.state none none := by
        have := yielding.exclusive
        rw [main] at this
        exact this.of_main
      split
      · split
        · exact entered.failed inCall yielding ⟨rfl, rfl, rfl⟩ rfl
        · exact (entered.pushBlockedMain inCall yielding main).run exclusive none (by simp) (by simp)
      · next unblocked =>
          have rest := yielding.atRest (by simpa using unblocked)
          exact (Looping.of_rest entered rest).run rest.exclusive none (by simp) (by simp)
  · next notMain =>
      obtain ⟨p, rest, rfl⟩ := entered.chained.parent notMain
      rw [entered.chained.active.1]
      exact (entered.leaving inCall yielding).switchTo

/-- Among the active tasklets only the running one and main can be blocked. -/
theorem Orderly.parent_unblocked {k : Config ν} {r p : TaskletId} {rest : List TaskletId}
    (orderly : Orderly promise k (r :: p :: rest)) :
    (k.state.tasklets p).blocked = false ∨ p = mainTasklet := by
  cases blocked : (k.state.tasklets p).blocked with
  | false => exact .inl rfl
  | true =>
      obtain ⟨c, frame, -, waits, shape⟩ := orderly.shaped.blocked p blocked
      obtain ⟨-, -, ⟨base, endTasklet, unblocked, below, stack⟩, -⟩ := orderly.chained.active
      rw [stack] at shape
      cases shape with
      | switched main => exact .inr main

/-- The re-entry loop goes to the parent of the run loop that switched here. -/
theorem Orderly.unblockedParent {k : Config ν} {r p : TaskletId} {rest : List TaskletId}
    (orderly : Orderly promise k (r :: p :: rest)) :
    Config.unblockedParent k.state k.state.taskletCount r = some p := by
  obtain ⟨count, more⟩ : ∃ count, k.state.taskletCount = count + 1 := by
    refine Nat.exists_eq_add_one.mpr (Nat.lt_of_le_of_lt (Nat.zero_le _)
      (orderly.chained.bounded r ?_))
    rw [orderly.chained.started r (.head _)]
    exact Greenlet.noConfusion
  rw [more, Config.unblockedParent, orderly.chained.active.1]
  rcases orderly.parent_unblocked with unblocked | main
  · simp [unblocked]
  · simp [(orderly.chained.isMain p).mpr main]

/-- `Yield` after control came back. -/
theorem Orderly.yieldSwitched {k : Config ν} {chain : List TaskletId} {ok : Bool} {t : TaskletId}
    {below : List Frame} (orderly : Orderly promise k chain) (control : k.control = .returning ok)
    (top : k.stack k.running = .yieldSwitch t :: below) : Ordered promise (k.pop.yieldSwitched t ok) := by
  have proper := orderly.shaped.proper k.running
  rw [top] at proper
  have own : t = k.running := by
    cases proper with
    | operations operations => cases (operations _ (.head _)).1
    | yielding => rfl
  subst own
  have entered : Entered promise k.pop chain := orderly.pop top (by simp) fun _ ⟨_, waits⟩ => by
    rcases waits with absurd | absurd <;> cases absurd
  have shape : (k.state.tasklets k.running).blocked = true →
      k.running ≠ mainTasklet ∧ InCall k.pop := by
    intro blocked
    obtain ⟨c, frame, channel, waits, shape⟩ := orderly.shaped.blocked _ blocked
    rw [top] at shape
    cases shape with
    | called => rcases waits with absurd | absurd <;> cases absurd
    | yielding notMain => exact ⟨notMain, fun _ => ⟨c, frame, channel, waits, by simp [top]⟩⟩
  have inCall : InCall k.pop := fun blocked => (shape blocked).2 blocked
  have known := orderly.local_
  rw [Local, control, top] at known
  have popped : Yielding k → Yielding k.pop := fun yielding =>
    ⟨yielding.current, yielding.exclusive⟩
  rw [Config.yieldSwitched]
  cases ok with
  | false =>
      rcases known with yielding | ⟨-, failing⟩
      · exact entered.failed inCall (popped yielding) ⟨rfl, rfl, rfl⟩ rfl
      · refine .inr (.inr ⟨chain, entered.chained.agree (Agree.refl _) rfl fun _ _ => rfl,
          entered.queued, entered.shaped.agree (Agree.refl _) rfl, ?_⟩)
        obtain ⟨c, frame, waits, stack, only⟩ := failing.pop.inside
        rw [Local]
        simp only [Bool.not_false, if_true, Config.ret_control, Config.ret_stack, Config.ret_running,
          stack, List.nil_append]
        have result : Failing (k.pop.ret false) [] :=
          ⟨failing.current, failing.exclusive, c, frame, waits, stack, only⟩
        rcases waits with rfl | rfl
        · exact result
        · exact result
  | true =>
      have yielding := known.resolve_right fun absurd => Bool.noConfusion absurd.1
      simp only [Bool.not_true, Bool.false_eq_true, if_false]
      split
      · next blocked =>
          obtain ⟨p, rest, rfl⟩ := orderly.chained.parent (shape blocked).1
          have parent := orderly.unblockedParent
          rw [show k.pop.state = k.state from rfl, parent]
          exact (entered.leaving inCall (popped yielding)).switchTo
      · next unblocked =>
          exact entered.ret ((popped yielding).atRest (by simpa using unblocked)) true

/-- `Yield` of the blocked main tasklet after its run. -/
theorem Orderly.yieldRan {k : Config ν} {chain : List TaskletId} {ok : Bool}
    {below : List Frame} (orderly : Orderly promise k chain) (control : k.control = .returning ok)
    (top : k.stack k.running = .yieldBlockedMain :: below) : Ordered promise (k.pop.yieldRan ok) := by
  have proper := orderly.shaped.proper k.running
  rw [top] at proper
  have main : k.running = mainTasklet := by
    cases proper with
    | operations operations => exact ((operations _ (.head _)).2 _ rfl).symm
  have entered : Entered promise k.pop chain := orderly.pop top (by simp) fun _ ⟨_, waits⟩ => by
    rcases waits with absurd | absurd <;> cases absurd
  have inCall : InCall k.pop := by
    intro blocked
    obtain ⟨c, frame, channel, waits, shape⟩ := orderly.shaped.blocked k.running blocked
    rw [top] at shape
    cases shape with
    | called => rcases waits with absurd | absurd <;> cases absurd
    | waiting => exact ⟨c, frame, channel, waits, by simp [top]⟩
  have known := orderly.local_
  rw [Local, control, top] at known
  have yielding : Yielding k.pop := ⟨known.current, known.exclusive⟩
  rw [Config.yieldRan]
  split
  · exact entered.failed inCall yielding ⟨rfl, rfl, rfl⟩ rfl
  split
  · exact entered.failed inCall yielding ⟨rfl, rfl, rfl⟩ rfl
  · next unblocked =>
      refine entered.ret (yielding.atRest ?_) true
      rw [Config.pop_running, main]
      simpa using unblocked

end CarbonLab.Scheduler
