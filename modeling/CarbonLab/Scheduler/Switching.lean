import CarbonLab.Scheduler.ListChanges

/-!
# Switching keeps configurations orderly

The functions that move control between greenlets: `SwitchTo`, the loop of `Run`
and `Yield`.
-/

namespace CarbonLab.Scheduler

variable {ν : Type} {promise : Promise}

/-- What `SwitchTo` can do. -/
theorem Config.switchTo_cases (k : Config ν) (t : TaskletId) :
    (∃ error, k.switchTo t = k.fail error) ∨
      (k.state.tasklets t).firstRun = true ∧
        k.switchTo t = (k.modifyTasklet t (.setAlive false)).ret true ∨
      (k.state.tasklets t).firstRun = true ∧ (∃ error : PyError ν, error ≠ .taskletExit ∧
        k.switchTo t =
          ((k.modifyTasklet t .clearException).modifyTasklet t (.setRemove true)).raise error) ∨
      ((k.state.tasklets t).arguments ≠ some false ∧ (k.state.tasklets t).kwArguments ≠ some false) ∧
      k.switchTo t = (k.beginSwitch t).enterGreenlet none (k.state.taskletCount + 1) t := by
  simp only [Config.switchTo]
  split
  · exact .inl ⟨_, rfl⟩
  next arguments =>
  split
  · exact .inl ⟨_, rfl⟩
  next kwArguments =>
  split
  · exact .inl ⟨_, rfl⟩
  split
  · exact .inl ⟨_, rfl⟩
  cases first : (k.state.tasklets t).firstRun with
  | false => exact .inr (.inr (.inr ⟨⟨arguments, kwArguments⟩, rfl⟩))
  | true =>
      cases exception : (k.state.tasklets t).exceptionState with
      | none => exact .inr (.inr (.inr ⟨⟨arguments, kwArguments⟩, rfl⟩))
      | some error =>
          cases error with
          | taskletExit => exact .inr (.inl ⟨rfl, rfl⟩)
          | scheduler error =>
              exact .inr (.inr (.inl ⟨rfl, .scheduler error, by simp, rfl⟩))
          | object exc => exact .inr (.inr (.inl ⟨rfl, .object exc, by simp, rfl⟩))

/-- What `SwitchTo` writes before the switch. -/
theorem Config.beginSwitch_agree (k : Config ν) (t : TaskletId) :
    Agree k.state (k.beginSwitch t).state := by
  simp only [Config.beginSwitch, Config.push_state, Config.modifyTasklet_state,
    Config.withState_state]
  refine (Agree.setCurrentTasklet k.state t).trans ?_
  refine (Agree.modifyTasklet _ t (.setPaused false) (fun _ => rfl) (fun _ => rfl) fun _ => id).trans ?_
  exact Agree.modifyTasklet _ t (.setFirstRun false) (fun _ => rfl) (fun _ => rfl) fun _ passed =>
    ⟨fun _ => rfl, passed.2⟩

@[simp] theorem Config.beginSwitch_running (k : Config ν) (t : TaskletId) :
    (k.beginSwitch t).running = k.running :=
  rfl

@[simp] theorem Config.beginSwitch_stack (k : Config ν) (t : TaskletId) :
    (k.beginSwitch t).stack = Function.update k.stack k.running (.switchTo t :: k.stack k.running) :=
  rfl

@[simp] theorem Config.beginSwitch_current (k : Config ν) (t : TaskletId) :
    (k.beginSwitch t).state.currentTasklet = t :=
  rfl

theorem Config.beginSwitch_exceptionState (k : Config ν) (t u : TaskletId) :
    ((k.beginSwitch t).state.tasklets u).exceptionState = (k.state.tasklets u).exceptionState := by
  by_cases same : u = t
  · subst same
    simp [Config.beginSwitch]
  · simp [Config.beginSwitch, same]

theorem Shaped.unblocked_of_idle {k : Config ν} (shaped : Shaped promise k) {t : TaskletId}
    (idle : k.stack t = []) : (k.state.tasklets t).blocked = false := by
  by_contra blocked
  obtain ⟨_, _, -, -, shape⟩ := shaped.blocked t (by simpa using blocked)
  rw [idle] at shape
  cases shape

/-- A run loop is about to switch to the tasklet `x`, which is not active. -/
structure Prepared (promise : Promise) (k : Config ν) (chain : List TaskletId) (x : TaskletId)
    (below : List Frame) : Prop where
  chained : Chained k chain
  queued : Queued promise k.state chain
  shaped : Shaped promise k
  stack : ∃ base endTasklet unblocked,
    k.stack k.running = .run base endTasklet unblocked x :: below ∧
      (promise.flat → base = k.running)
  operations : Operations k.running below
  current : k.state.currentTasklet = k.running
  outside : x ∉ chain
  taskletParent : (k.state.tasklets x).taskletParent = some k.running
  greenletParent : (k.state.tasklets x).greenletParent = some k.running
  present : (k.state.tasklets x).greenlet ≠ .null
  scheduled : (k.state.tasklets x).scheduled = true
  next : promise.flat → (k.state.tasklets k.running).next = some x

namespace Prepared

variable {k k' : Config ν} {chain : List TaskletId} {x : TaskletId} {below : List Frame}

theorem notMain (prepared : Prepared promise k chain x below) : x ≠ mainTasklet := fun same =>
  prepared.outside (same ▸ prepared.chained.active.main_mem)

/-- `SwitchTo` returned without a switch. -/
theorem notSwitched (prepared : Prepared promise k chain x below)
    (exclusive : Exclusive k.state none none) {ok : Bool} (agree : Agree k.state k'.state)
    (current : k'.state.currentTasklet = k.state.currentTasklet)
    (running : k'.running = k.running) (stack : k'.stack = k.stack)
    (control : k'.control = .returning ok) : Ordered promise k' := by
  obtain ⟨base, endTasklet, unblocked, top, home⟩ := prepared.stack
  refine .inr (.inr ⟨chain, prepared.chained.agree agree running fun t _ => by rw [stack],
    prepared.queued.congr agree.toSameLists, prepared.shaped.agree agree stack, ?_⟩)
  rw [Local, control, running, stack, top]
  have stays : k'.state.currentTasklet = k'.running := by rw [current, running, prepared.current]
  refine ⟨⟨prepared.outside, ?_, ?_, .inl stays, (exclusive.congr agree.toSameLists).weaken _ _⟩,
    fun _ _ => .inr (.inr stays)⟩
  · rw [running]
    exact (congrArg Links.taskletParent (agree.links x)).trans prepared.taskletParent
  · exact (agree.field x Standing.scheduled).trans prepared.scheduled

/-- Switching leaves the running tasklet waiting for `x` on a proper stack. -/
theorem beginSwitch_shaped (prepared : Prepared promise k chain x below) : Shaped promise (k.beginSwitch x) := by
  obtain ⟨base, endTasklet, unblocked, top, home⟩ := prepared.stack
  have agree := k.beginSwitch_agree x
  refine ⟨fun t => ?_, fun t blocked => ?_, ?_⟩
  · by_cases same : t = k.running
    · subst same
      simp only [Config.beginSwitch_stack, Function.update_self, top]
      exact .switched _ _ _ _ home prepared.operations
    · simpa [same] using prepared.shaped.proper t
  · obtain ⟨c, frame, channel, waits, shape⟩ := prepared.shaped.blocked t
      ((agree.field t Standing.blocked).symm.trans blocked)
    refine ⟨c, frame, (agree.field t Standing.channelBlockedOn).trans channel, waits, ?_⟩
    by_cases same : t = k.running
    · subst same
      simp only [Config.beginSwitch_stack, Function.update_self]
      rw [top] at shape ⊢
      cases shape with
      | called =>
          rcases waits with absurd | absurd <;> cases absurd
      | running main => exact .switched main _ _ _ _
    · simpa [same] using shape
  · exact prepared.shaped.passed_agree agree

/-- What is known of the tasklet switched to, unless it goes on where it yielded. -/
theorem stayed (prepared : Prepared promise k chain x below)
    (exclusive : Exclusive k.state none none) {ok : Bool}
    (state : k'.state = (k.beginSwitch x).state) (running : k'.running = k.running)
    (stack : k'.stack = (k.beginSwitch x).stack) (control : k'.control = .returning ok) :
    Ordered promise k' := by
  obtain ⟨base, endTasklet, unblocked, top, home⟩ := prepared.stack
  have agree : Agree k.state k'.state := state ▸ k.beginSwitch_agree x
  have chained : Chained k' chain := prepared.chained.agree agree running fun t other => by
    rw [stack]
    simp [other]
  have shaped : Shaped promise k' :=
    prepared.beginSwitch_shaped.agree (by rw [state]; exact Agree.refl _) stack
  refine .inr (.inr ⟨chain, chained, prepared.queued.congr agree.toSameLists, shaped, ?_⟩)
  rw [Local, control, running, stack, Config.beginSwitch_stack, Function.update_self, top]
  refine ⟨prepared.outside, ?_, ?_, .inr ?_, (exclusive.congr agree.toSameLists).weaken _ _⟩
  · rw [running]
    exact (congrArg Links.taskletParent (agree.links x)).trans prepared.taskletParent
  · exact (agree.field x Standing.scheduled).trans prepared.scheduled
  · rw [state, Config.beginSwitch_current]

theorem beginSwitch_chained (prepared : Prepared promise k chain x below) :
    Chained (k.beginSwitch x) chain :=
  prepared.chained.agree (k.beginSwitch_agree x) rfl fun t other => by simp [other]

/-- Control is in the tasklet switched to. -/
theorem switched (prepared : Prepared promise k chain x below)
    (suits : (k.state.tasklets x).arguments ≠ some false ∧
      (k.state.tasklets x).kwArguments ≠ some false) (running : k'.running = x)
    (stack : k'.stack = (k.beginSwitch x).stack)
    (started : k'.state = (k.beginSwitch x).state ∧ (k.state.tasklets x).greenlet = .started ∨
      k'.state = (k.beginSwitch x).state.modifyTasklet x (.setGreenlet .started))
    (local_ : Local promise k' (x :: chain)) : Ordered promise k' := by
  obtain ⟨base, endTasklet, unblocked, top, home⟩ := prepared.stack
  have agree := k.beginSwitch_agree x
  have lists : SameLists (k.beginSwitch x).state k'.state := by
    obtain ⟨state, -⟩ | state := started
    · rw [state]
      exact SameLists.refl _
    · rw [state]
      exact SameLists.modifyTasklet _ x _ fun _ => rfl
  have others : ∀ t, t ≠ x →
      (k'.state.tasklets t).links = ((k.beginSwitch x).state.tasklets t).links := by
    intro t other
    obtain ⟨state, -⟩ | state := started
    · rw [state]
    · simp [state, other]
  have own : (k'.state.tasklets x).links =
      { ((k.beginSwitch x).state.tasklets x).links with greenlet := .started } := by
    obtain ⟨state, already⟩ | state := started
    · have same := agree.links x
      rw [state, same]
      simp [Tasklet.links, already]
    · simp [state, Tasklet.links]
  have chained : Chained k' (x :: chain) := by
    refine prepared.beginSwitch_chained.enterChild prepared.outside ?_ ?_ ?_ ?_ running stack
      lists.count others own
    · exact (congrArg Links.taskletParent (agree.links x)).trans prepared.taskletParent
    · exact (congrArg Links.greenletParent (agree.links x)).trans prepared.greenletParent
    · refine ⟨base, endTasklet, unblocked, below, ?_⟩
      simp [top]
    · intro missing
      exact prepared.present ((congrArg Links.greenlet (agree.links x)).symm.trans missing)
  have queued : Queued promise k'.state (x :: chain) := by
    have same := agree.toSameLists.trans lists
    have queued := prepared.queued.congr same
    obtain ⟨rest, rfl⟩ := List.head?_eq_some_iff.mp prepared.chained.head
    exact queued.enter ((same.field x Standing.scheduled).trans prepared.scheduled) fun flat =>
      (same.field _ Standing.next).trans (prepared.next flat)
  have shaped : Shaped promise k' := by
    have before := prepared.beginSwitch_shaped
    refine ⟨fun t => stack ▸ before.proper t, fun t blocked => ?_, fun t live => ?_⟩
    · obtain ⟨c, frame, channel, waits, shape⟩ := before.blocked t
        ((lists.field t Standing.blocked).symm.trans blocked)
      exact ⟨c, frame, (lists.field t Standing.channelBlockedOn).trans channel, waits,
        stack ▸ shape⟩
    · have passed : ((k.beginSwitch x).state.tasklets t).Passed := by
        by_cases same : t = x
        · subst same
          simpa [Config.beginSwitch, Tasklet.Passed] using suits
        · refine before.passed t ?_
          exact (congrArg Links.greenlet (others t same)).symm.trans live
      obtain ⟨state, -⟩ | state := started
      · rwa [state]
      · by_cases same : t = x
        · subst same
          simpa [state, Tasklet.Passed] using passed
        · simpa [state, same] using passed
  exact .inr (.inr ⟨x :: chain, chained, queued, shaped, local_⟩)

/-- A tasklet that is not active and has a started greenlet goes on inside its
yield. -/
theorem suspended (prepared : Prepared promise k chain x below)
    (started : (k.state.tasklets x).greenlet = .started) :
    ∃ parent rest, k.stack x = .switchTo parent :: .yieldSwitch x :: rest := by
  obtain ⟨-, notStarted⟩ | ⟨parent, rest, stack, -⟩ := prepared.chained.suspended x prepared.outside
  · exact absurd started notStarted
  · exact ⟨parent, rest, stack⟩

theorem idle (prepared : Prepared promise k chain x below)
    (notStarted : (k.state.tasklets x).greenlet ≠ .started) : k.stack x = [] := by
  obtain ⟨idle, -⟩ | ⟨_, _, -, started⟩ := prepared.chained.suspended x prepared.outside
  · exact idle
  · exact absurd started notStarted

theorem stack_ne (prepared : Prepared promise k chain x below) :
    (k.beginSwitch x).stack x = k.stack x := by
  have other : x ≠ k.running := fun same =>
    prepared.outside (same ▸ prepared.chained.running_mem)
  simp [other]

/-- `SwitchTo` from a run loop. -/
theorem switchTo (prepared : Prepared promise k chain x below)
    (exclusive : Exclusive k.state none none) : Ordered promise (k.switchTo x) := by
  have agree := k.beginSwitch_agree x
  rcases k.switchTo_cases x with ⟨error, done⟩ | ⟨-, done⟩ | ⟨-, error, -, done⟩ | ⟨suits, done⟩
  · rw [done]
    exact prepared.notSwitched exclusive (Agree.refl _) rfl rfl rfl rfl
  · rw [done]
    exact prepared.notSwitched exclusive
      (Agree.modifyTasklet _ x (.setAlive false) (fun _ => rfl) (fun _ => rfl) fun _ => id)
      rfl rfl rfl rfl
  · rw [done]
    refine prepared.notSwitched exclusive ?_ rfl rfl rfl rfl
    exact (Agree.modifyTasklet _ x .clearException (fun _ => rfl) (fun _ => rfl) fun _ => id).trans
      (Agree.modifyTasklet _ x (.setRemove true) (fun _ => rfl) (fun _ => rfl) fun _ => id)
  · rw [done]
    have greenlet : ((k.beginSwitch x).state.tasklets x).greenlet = (k.state.tasklets x).greenlet :=
      congrArg Links.greenlet (agree.links x)
    have exclusive' := exclusive.congr agree.toSameLists
    cases kind : (k.state.tasklets x).greenlet with
    | null => exact absurd kind prepared.present
    | started =>
        obtain ⟨parent, rest, stack⟩ := prepared.suspended kind
        rw [Config.enterGreenlet, greenlet, kind]
        refine prepared.switched suits rfl rfl (.inl ⟨rfl, kind⟩) ?_
        rw [Local]
        simp only [Option.isNone_none, prepared.stack_ne, stack]
        exact .inl ⟨rfl, exclusive'.weaken _ _⟩
    | dead =>
        have greenletParent : ((k.beginSwitch x).state.tasklets x).greenletParent =
            some k.running :=
          (congrArg Links.greenletParent (agree.links x)).trans prepared.greenletParent
        have parent : ((k.beginSwitch x).state.tasklets k.running).greenlet = .started :=
          (congrArg Links.greenlet (agree.links _)).trans
            (prepared.chained.started _ prepared.chained.running_mem)
        obtain ⟨count, more⟩ : ∃ count, k.state.taskletCount = count + 1 :=
          Nat.exists_eq_add_one.mpr (Nat.lt_of_le_of_lt (Nat.zero_le _)
            (prepared.chained.bounded x prepared.present))
        rw [more, Config.enterGreenlet, greenlet, kind]
        simp only [greenletParent]
        rw [Config.enterGreenlet, parent]
        exact prepared.stayed exclusive rfl rfl rfl rfl
    | fresh runnable =>
        rw [Config.enterGreenlet, greenlet, kind]
        cases runnable with
        | false => exact prepared.stayed exclusive rfl rfl rfl rfl
        | true =>
            have idle := prepared.idle (by rw [kind]; exact Greenlet.noConfusion)
            refine prepared.switched suits rfl rfl (.inr rfl) ?_
            rw [Local]
            have lists := agree.toSameLists.trans
              (SameLists.modifyTasklet _ x (.setGreenlet .started) fun _ => rfl)
            refine ⟨prepared.stack_ne.trans idle, rfl, ?_, exclusive.congr lists⟩
            exact (lists.field x Standing.blocked).trans (prepared.shaped.unblocked_of_idle idle)

end Prepared

/-- A tasklet that was unblocked by a kill or throw while on the list of its
channel. -/
structure Doomed (k : Config ν) (x : TaskletId) : Prop where
  exclusive : Exclusive k.state (some x) none
  exception : (k.state.tasklets x).exceptionState ≠ none
  started : (k.state.tasklets x).greenlet = .started
  inside : ∃ c frame parent, WaitsOn c x frame ∧
    k.stack x = [.switchTo parent, .yieldSwitch x, frame] ∧
    ∀ c' d, k.state.OnBlockedList c' d x → c' = c

/-- The frame of a kill or throw that blocks `x` again when it fails. -/
def Restores (x : TaskletId) (frame : Frame) : Prop :=
  ∃ channel, frame = .kill x true channel ∨ frame = .throwBlocked x channel

/-- The blocked lists of states with the same pointers are the same. -/
theorem SameLists.onBlockedList {s s' : State ν} (same : SameLists s s') (c : ChannelId)
    (d : ChannelDirection) (t : TaskletId) : s'.OnBlockedList c d t ↔ s.OnBlockedList c d t := by
  have pointers : (fun u => (s'.tasklets u).previousBlocked) =
      fun u => (s.tasklets u).previousBlocked :=
    funext fun u => same.field u Standing.previousBlocked
  rw [State.OnBlockedList, State.OnBlockedList, pointers, same.ends]

/-- `SwitchTo` of a doomed tasklet lets it fail, or the kill or throw has failed. -/
theorem Prepared.switchTo_doomed {k : Config ν} {chain : List TaskletId} {x : TaskletId}
    {frame : Frame} {below : List Frame} (prepared : Prepared promise k chain x (frame :: below))
    (doomed : Doomed k x) (restores : Restores x frame) : Ordered promise (k.switchTo x) := by
  obtain ⟨base, endTasklet, unblocked, top, home⟩ := prepared.stack
  have agree := k.beginSwitch_agree x
  have ran : (k.state.tasklets x).firstRun = false :=
    (prepared.shaped.passed x doomed.started).1 (by
      by_contra isMain
      exact prepared.notMain ((prepared.chained.isMain x).mp (by simpa using isMain)))
  rcases k.switchTo_cases x with ⟨error, done⟩ | ⟨first, -⟩ | ⟨first, -⟩ | ⟨suits, done⟩
  · rw [done]
    obtain ⟨channel, rfl | rfl⟩ := restores
    · exact .inr (.inl ⟨rfl, x, channel, below, .inr ⟨by simp, base, endTasklet, unblocked,
        .inl top⟩⟩)
    · exact .inr (.inl ⟨rfl, x, channel, below, .inr ⟨by simp, base, endTasklet, unblocked,
        .inr top⟩⟩)
  · rw [ran] at first
    cases first
  · rw [ran] at first
    cases first
  · obtain ⟨c, waiting, parent, waits, stack, only⟩ := doomed.inside
    have greenlet : ((k.beginSwitch x).state.tasklets x).greenlet = .started :=
      (congrArg Links.greenlet (agree.links x)).trans doomed.started
    rw [done, Config.enterGreenlet, greenlet]
    refine prepared.switched suits rfl rfl (.inl ⟨rfl, doomed.started⟩) ?_
    rw [Local]
    simp only [Option.isNone_none, prepared.stack_ne, stack]
    refine .inr ⟨?_, rfl, ?_, c, waiting, waits, ?_, ?_⟩
    · simpa [k.beginSwitch_exceptionState] using doomed.exception
    · exact ⟨(doomed.exclusive.congr agree.toSameLists).lists, fun t notMain _ =>
        (doomed.exclusive.congr agree.toSameLists).waiting t notMain (by simp)⟩
    · exact prepared.stack_ne.trans stack
    · rintro c' d _ onList rfl
      exact only c' d ((agree.toSameLists.onBlockedList c' d _).mp onList)

theorem Yielding.agree {k k' : Config ν} (yielding : Yielding k) (agree : Agree k.state k'.state)
    (running : k'.running = k.running)
    (current : k'.state.currentTasklet = k.state.currentTasklet) : Yielding k' where
  current := by rw [current, running, yielding.current]
  exclusive := running ▸ yielding.exclusive.congr agree.toSameLists

/-- A yield is about to switch to the parent `p` of the running tasklet `r`. -/
structure Leaving (promise : Promise) (k : Config ν) (r p : TaskletId) (rest : List TaskletId) : Prop where
  chained : Chained k (r :: p :: rest)
  queued : Queued promise k.state (r :: p :: rest)
  shaped : Shaped promise k
  stack : ∃ below, k.stack r = .yieldSwitch r :: below ∧ Operations r below
  yielding : Yielding k

namespace Leaving

variable {k k' : Config ν} {r p : TaskletId} {rest : List TaskletId}

theorem running (leaving : Leaving promise k r p rest) : k.running = r := by
  simpa using leaving.chained.head.symm

theorem notMain (leaving : Leaving promise k r p rest) : r ≠ mainTasklet := by
  intro main
  have member := leaving.chained.active.2.2.2.main_mem
  exact (List.nodup_cons.mp leaving.chained.nodup).1 (main ▸ member)

/-- `SwitchTo` returned without a switch. -/
theorem notSwitched (leaving : Leaving promise k r p rest) {ok : Bool} (agree : Agree k.state k'.state)
    (current : k'.state.currentTasklet = k.state.currentTasklet)
    (running : k'.running = k.running) (stack : k'.stack = k.stack)
    (control : k'.control = .returning ok) : Ordered promise k' := by
  obtain ⟨below, top, -⟩ := leaving.stack
  refine .inr (.inr ⟨r :: p :: rest, leaving.chained.agree agree running fun t _ => by rw [stack],
    leaving.queued.congr agree.toSameLists, leaving.shaped.agree agree stack, ?_⟩)
  rw [Local, control, running, stack, leaving.running, top]
  exact .inl (leaving.yielding.agree agree running current)

theorem beginSwitch_shaped (leaving : Leaving promise k r p rest) : Shaped promise (k.beginSwitch p) := by
  obtain ⟨below, top, operations⟩ := leaving.stack
  have agree := k.beginSwitch_agree p
  refine ⟨fun t => ?_, fun t blocked => ?_, ?_⟩
  · by_cases same : t = r
    · subst same
      simp only [Config.beginSwitch_stack, leaving.running, Function.update_self, top]
      exact .yielded _ operations
    · simpa [leaving.running, same] using leaving.shaped.proper t
  · obtain ⟨c, frame, channel, waits, shape⟩ := leaving.shaped.blocked t
      ((agree.field t Standing.blocked).symm.trans blocked)
    refine ⟨c, frame, (agree.field t Standing.channelBlockedOn).trans channel, waits, ?_⟩
    by_cases same : t = r
    · subst same
      simp only [Config.beginSwitch_stack, leaving.running, Function.update_self]
      rw [top] at shape ⊢
      cases shape with
      | called => rcases waits with absurd | absurd <;> cases absurd
      | yielding notMain => exact .yielded notMain _
    · simpa [leaving.running, same] using shape
  · exact leaving.shaped.passed_agree agree

/-- `SwitchTo` of the parent from a yield. -/
theorem switchTo (leaving : Leaving promise k r p rest) : Ordered promise (k.switchTo p) := by
  have agree := k.beginSwitch_agree p
  rcases k.switchTo_cases p with ⟨error, done⟩ | ⟨-, done⟩ | ⟨-, error, -, done⟩ | ⟨-, done⟩
  · rw [done]
    exact leaving.notSwitched (Agree.refl _) rfl rfl rfl rfl
  · rw [done]
    exact leaving.notSwitched
      (Agree.modifyTasklet _ p (.setAlive false) (fun _ => rfl) (fun _ => rfl) fun _ => id)
      rfl rfl rfl rfl
  · rw [done]
    refine leaving.notSwitched ?_ rfl rfl rfl rfl
    exact (Agree.modifyTasklet _ p .clearException (fun _ => rfl) (fun _ => rfl) fun _ => id).trans
      (Agree.modifyTasklet _ p (.setRemove true) (fun _ => rfl) (fun _ => rfl) fun _ => id)
  · obtain ⟨below, top, -⟩ := leaving.stack
    obtain ⟨taskletParent, -, ⟨base, endTasklet, unblocked, waits, stack⟩, -⟩ :=
      leaving.chained.active
    obtain ⟨outside, nodup⟩ := List.nodup_cons.mp leaving.chained.nodup
    have other : p ≠ r := fun same => outside (same ▸ .head _)
    have greenlet : ((k.beginSwitch p).state.tasklets p).greenlet = .started :=
      (congrArg Links.greenlet (agree.links p)).trans (leaving.chained.started p (by simp))
    have before : Chained (k.beginSwitch p) (r :: p :: rest) :=
      leaving.chained.agree agree rfl fun t differs => by simp [differs]
    have yields : (k.beginSwitch p).stack r = .switchTo p :: .yieldSwitch r :: below := by
      simp [leaving.running, top]
    have queued := leaving.queued.congr agree.toSameLists
    rw [done, Config.enterGreenlet, greenlet]
    refine .inr (.inr ⟨p :: rest, before.backToParent yields rfl rfl rfl, ?_, ?_, ?_⟩)
    · exact queued.leave
    · exact leaving.beginSwitch_shaped.agree (Agree.refl _) rfl
    · rw [Local]
      simp only [Option.isNone_none, Config.beginSwitch_stack, leaving.running,
        Function.update_of_ne other, stack]
      refine ⟨outside, ?_, queued.active r (.head _), .inl rfl, ?_⟩
      · exact (congrArg Links.taskletParent (agree.links r)).trans taskletParent
      · exact leaving.running ▸ leaving.yielding.exclusive.congr agree.toSameLists

end Leaving

end CarbonLab.Scheduler
