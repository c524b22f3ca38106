import CarbonLab.Scheduler.Operations

/-!
# The channel operations keep configurations orderly

`Channel::Send` and `Receive` up to the next switch, what they do when it comes
back, and `ClearBlocked`.
-/

namespace CarbonLab.Scheduler

variable {ν : Type} {promise : Promise}

namespace Resting

variable {k k' : Config ν} {chain : List TaskletId} {t : TaskletId} {c : ChannelId}

/-- A blocked tasklet exists. -/
theorem blocked_present (resting : Resting promise k chain)
    (blocked : (k.state.tasklets t).blocked = true) : t < k.state.taskletCount := by
  refine resting.entered.chained.bounded t ?_
  by_cases active : t ∈ chain
  · rw [resting.entered.chained.started t active]
    exact Greenlet.noConfusion
  · obtain ⟨idle, -⟩ | ⟨_, _, -, started⟩ := resting.entered.chained.suspended t active
    · rw [resting.entered.shaped.unblocked_of_idle idle] at blocked
      cases blocked
    · rw [started]
      exact Greenlet.noConfusion

/-- Take a blocked tasklet off its list and unblock it. -/
theorem release (resting : Resting promise k chain)
    (channel : (k.state.tasklets t).channelBlockedOn = some c) :
    Resting promise ((k.withState (k.state.removeTaskletFromBlocked c t)).modifyTasklet t .unblock) chain := by
  have same := k.state.removeTaskletFromBlocked_eraseBlockedLists c t
  have eases := (Eases.of_eraseBlockedLists same).trans (Eases.unblock _ t)
  have only : ∀ c' d, k.state.OnBlockedList c' d t → c' = c := by
    intro c' d onList
    have channel' := (resting.rest.exclusive.onList_blocked onList).2
    rw [channel] at channel'
    exact (Option.some.inj channel').symm
  obtain ⟨exclusive, unlisted⟩ :=
    (resting.rest.exclusive.doom (some t)).removeTaskletFromBlocked only
  refine resting.eased eases ?_ ((exclusive.unblock (.inr rfl)).undoom ?_ (by simp))
  · exact (resting.entered.queued.of_eraseBlockedLists same).modifyTasklet t .unblock
      (fun _ => rfl) (fun _ => rfl) fun _ => rfl
  · intro c' d onList
    refine unlisted c' d ?_
    have pointers : (fun u => (((k.state.removeTaskletFromBlocked c t).modifyTasklet t
        .unblock).tasklets u).previousBlocked) =
        fun u => ((k.state.removeTaskletFromBlocked c t).tasklets u).previousBlocked := by
      funext u
      by_cases here : u = t <;> simp [here]
    rw [State.OnBlockedList, pointers] at onList
    exact onList

/-- What popping a blocked list does. -/
theorem popNext (resting : Resting promise k chain) (d : ChannelDirection) (c : ChannelId) :
    (k.state.popNextTaskletBlocked d c).2 = none ∨
      ∃ t, k.state.popNextTaskletBlocked d c = (k.state.removeTaskletFromBlocked c t, some t) ∧
        ((k.state.channels c).ends d).first = some t ∧
        (k.state.tasklets t).blocked = true ∧ (k.state.tasklets t).channelBlockedOn = some c := by
  rw [State.popNextTaskletBlocked]
  cases first : ((k.state.channels c).ends d).first with
  | none => exact .inl rfl
  | some t =>
      obtain ⟨lists, rep, listed⟩ := resting.rest.exclusive.lists
      have member := first
      rw [rep.first] at member
      exact .inr ⟨t, rfl, rfl, (listed t (by simp) c).mp ⟨d, List.mem_of_mem_head? member⟩⟩

/-- The running tasklet blocks in the call of `frame`. -/
theorem blocks (resting : Resting promise k chain) (idle : k.stack k.running = []) {s' : State ν}
    {d : ChannelDirection} {frame : Frame} (waits : WaitsOn c k.running frame)
    (same : s'.eraseBlockedLists = k.state.eraseBlockedLists)
    (added : Exclusive s' (some k.running) none ∧
      (∀ c' d', s'.OnBlockedList c' d' k.running → c' = c) ∧ s'.OnBlockedList c d k.running)
    (quiet : Quiet ((k.withState s').modifyTasklet k.running (.block (some c))) k') :
    Ordered promise (k'.push frame).yield := by
  have before : Eases k.state s' := Eases.of_eraseBlockedLists same
  have operations : Operations k.running [frame] := by
    intro other member
    obtain rfl := List.mem_singleton.mp member
    rcases waits with rfl | rfl
    · exact ⟨rfl, fun u owner => (Option.some.inj owner).symm⟩
    · exact ⟨rfl, fun u owner => (Option.some.inj owner).symm⟩
  have running : k'.running = k.running := quiet.running
  have stack : (k'.push frame).stack = Function.update k.stack k.running [frame] := by
    have sameStack : k'.stack = k.stack := quiet.stack
    simp [running, sameStack, idle]
  have blockedOn : (k'.state.tasklets k.running).channelBlockedOn = some c :=
    (quiet.agree.field k.running Standing.channelBlockedOn).trans (by simp [Tasklet.standing])
  have elsewhere : ∀ u, u ≠ k.running → (k'.state.tasklets u).blocked =
      (k.state.tasklets u).blocked ∧
      (k'.state.tasklets u).channelBlockedOn = (k.state.tasklets u).channelBlockedOn := by
    intro u other
    have unchanged := Exclusive.same_blocked same u
    constructor
    · exact (quiet.agree.field u Standing.blocked).trans
        (by simpa [other, Tasklet.standing] using unchanged.1)
    · exact (quiet.agree.field u Standing.channelBlockedOn).trans
        (by simpa [other, Tasklet.standing] using unchanged.2.1)
  have links : ∀ u, (k'.state.tasklets u).links = (k.state.tasklets u).links := by
    intro u
    refine (quiet.agree.links u).trans (Eq.trans ?_ (before.links u))
    by_cases here : u = k.running <;> simp [here, Tasklet.links]
  have entered : Entered promise (k'.push frame) chain := by
    constructor
    case chained =>
      refine resting.entered.chained.congr_links running
        (quiet.agree.count.trans before.count) links fun u other => ?_
      rw [stack, Function.update_of_ne other]
    case queued =>
      exact ((resting.entered.queued.of_eraseBlockedLists same).modifyTasklet k.running
        (.block (some c)) (fun _ => rfl) (fun _ => rfl) fun _ => rfl).congr
          quiet.agree.toSameLists
    case shaped =>
      refine ⟨fun u => ?_, fun u blocked => ?_, fun u started => ?_⟩
      · rw [stack]
        by_cases here : u = k.running
        · subst here
          rw [Function.update_self]
          exact .operations operations
        · rw [Function.update_of_ne here]
          exact resting.entered.shaped.proper u
      · rw [stack]
        by_cases here : u = k.running
        · subst here
          rw [Function.update_self]
          exact ⟨c, frame, blockedOn, waits, .called⟩
        · rw [Function.update_of_ne here]
          obtain ⟨c', frame', channel', waits', shape⟩ :=
            resting.entered.shaped.blocked u ((elsewhere u here).1.symm.trans blocked)
          exact ⟨c', frame', (elsewhere u here).2.trans channel', waits', shape⟩
      · refine quiet.agree.passed u ?_
        have passed := before.passed u (resting.entered.shaped.passed u
          ((congrArg Links.greenlet (links u)).symm.trans started))
        by_cases here : u = k.running
        · subst here
          simpa [Tasklet.Passed] using passed
        · simpa [here] using passed
    case operations =>
      rw [stack, Config.push_running, running, Function.update_self]
      exact operations
  refine entered.yield (fun _ => ⟨c, frame, ?_, ?_, ?_⟩) ⟨?_, ?_⟩
  · rw [Config.push_running, running]
    exact blockedOn
  · rw [Config.push_running, running]
    exact waits
  · rw [stack, Config.push_running, running, Function.update_self]
  · exact quiet.current.trans ((before.current.trans resting.rest.current).trans running.symm)
  · rw [Config.push_running, running]
    exact (added.1.block added.2.1 added.2.2).congr quiet.agree.toSameLists

/-- The part of `Channel::Send` after the transfer. -/
theorem sendDone (resting : Resting promise k chain) (c : ChannelId) (current : TaskletId) :
    Ordered promise (k.sendDone c current) := by
  have quiet := (((Quiet.refl k).modifyTasklet current (.setTransferInProgress false)
    (fun _ => rfl) (fun _ => rfl) fun _ => id).updateCloseState c).record
    (.returned (k.calls current) .sent)
  exact (resting.quiet quiet).ret true

/-- A failed channel operation returns. -/
theorem failCall (resting : Resting promise k chain) (current : TaskletId) :
    Ordered promise (k.failCall current) :=
  (resting.quiet ((Quiet.refl k).record (.returned (k.calls current) (.failed k.raised)))).ret
    false

theorem refuseCall (resting : Resting promise k chain) (current : TaskletId) (error : SchedulerError) :
    Ordered promise (k.refuseCall current error) :=
  (resting.quiet ((Quiet.refl k).raise (.scheduler error))).failCall current

/-- The part of `Channel::Receive` after the transfer. -/
theorem receiveDone (resting : Resting promise k chain) (c : ChannelId) (current : TaskletId) :
    Ordered promise (k.receiveDone c current) := by
  have cleared := ((Quiet.refl k).modifyTasklet current (.setTransferInProgress false)
    (fun _ => rfl) (fun _ => rfl) fun _ => id).modifyTasklet current .clearTransferArguments
    (fun _ => rfl) (fun _ => rfl) fun _ => id
  have closed := cleared.updateCloseState c
  rw [Config.receiveDone]
  split
  · exact (resting.quiet (closed.record _)).raise _
  · exact (resting.quiet (cleared.record _)).ret true
  · exact (resting.quiet (closed.raise _)).failCall current
  · exact (resting.quiet cleared).failCall current

/-- The receiver of a send is made runnable. -/
theorem resumeReceiver (resting : Resting promise k chain) (present : t < k.state.taskletCount)
    (unblocked : (k.state.tasklets t).blocked = false) (c : ChannelId) :
    Ordered promise (k.resumeReceiver c k.running t) := by
  rw [Config.resumeReceiver]
  split
  · refine ((resting.insertTaskletToRunNext present unblocked).push (.sendHanded c k.running) rfl
      fun u owner => ?_).schedule .back false
    exact (Option.some.inj owner).symm
  · obtain ⟨s', done, resting', -⟩ := resting.insertTasklet present unblocked
    rw [done]
    exact resting'.sendDone c k.running

/-- The sender of a receive is made runnable. -/
theorem resumeSender (resting : Resting promise k chain) (present : t < k.state.taskletCount)
    (unblocked : (k.state.tasklets t).blocked = false) (c : ChannelId) :
    Ordered promise (k.resumeSender c k.running t) := by
  rw [Config.resumeSender]
  split
  · refine ((resting.insertTaskletToRunNext present unblocked).push (.receiveHanded c k.running)
      rfl fun u owner => ?_).schedule .back false
    exact (Option.some.inj owner).symm
  · obtain ⟨s', done, resting', -⟩ := resting.insertTasklet present unblocked
    rw [done]
    exact resting'.receiveDone c k.running

theorem sendBlocks (resting : Resting promise k chain) (idle : k.stack k.running = []) (c : ChannelId)
    (message : Message ν) : Ordered promise (k.sendBlocks c k.running message) := by
  rw [Config.sendBlocks]
  split
  · exact resting.refuseCall _ _
  split
  · exact resting.refuseCall _ _
  · have same := k.state.addTaskletToWaitingToSend_eraseBlockedLists c k.running
    have added := resting.rest.exclusive.added resting.rest.unblocked same
      fun lists rep unlisted => rep.addTaskletToWaitingToSend c unlisted
    exact resting.blocks idle (.inl rfl) same added (((Quiet.refl _).updateCloseState
      c).modifyTasklet _ _ (fun _ => rfl) (fun _ => rfl) fun _ => id)

theorem sendTo (resting : Resting promise k chain) (blocked : (k.state.tasklets t).blocked = true)
    (channel : (k.state.tasklets t).channelBlockedOn = some c) (message : Message ν) :
    Ordered promise ((k.withState (k.state.removeTaskletFromBlocked c t)).sendTo c k.running t message) := by
  have released := resting.release channel
  have present := resting.blocked_present blocked
  rw [← (Eases.of_eraseBlockedLists
    (k.state.removeTaskletFromBlocked_eraseBlockedLists c t)).count] at present
  generalize k.state.removeTaskletFromBlocked c t = s' at *
  rw [Config.sendTo]
  have transfer := (((Quiet.refl ((k.withState s').modifyTasklet t .unblock)).modifyTasklet t
    (.setTransferArguments message.arguments message.exception message.restore) (fun _ => rfl)
    (fun _ => rfl) fun _ => id).record (.handed (k.calls k.running) (k.calls t))).updateCloseState c
  refine (released.quiet transfer).resumeReceiver present ?_ c
  simp [State.updateCloseState]

/-- `Channel::Send`. -/
theorem send (resting : Resting promise k chain) (idle : k.stack k.running = []) (c : ChannelId)
    (message : Message ν) : Ordered promise (k.send c message) := by
  have started : Quiet k ((k.recordCall c (.send message)).modifyTasklet k.state.currentTasklet
      (.setTransferInProgress true)) :=
    ((Quiet.refl k).recordCall c _).modifyTasklet _ _ (fun _ => rfl) (fun _ => rfl) fun _ => id
  have called := resting.quiet started
  rw [Config.send, resting.rest.current]
  rw [resting.rest.current] at called started
  dsimp only [State.popNextTaskletBlockedOnReceive]
  rcases called.popNext .receiver c with empty | ⟨t, popped, -, blocked, channel⟩
  · split
    · exact called.sendBlocks idle c message
    · next popped =>
        rw [popped] at empty
        cases empty
  · rw [popped]
    exact called.sendTo blocked channel message

theorem receiveBlocks (resting : Resting promise k chain) (idle : k.stack k.running = [])
    (c : ChannelId) : Ordered promise (k.receiveBlocks c k.running) := by
  have same := k.state.addTaskletToWaitingToReceive_eraseBlockedLists c k.running
  have added := resting.rest.exclusive.added resting.rest.unblocked same
    fun lists rep unlisted => rep.addTaskletToWaitingToReceive c unlisted
  -- what is refused was put on the list and is taken off again
  have refused : ∀ error, Ordered promise ((k.withState (k.state.addTaskletToWaitingToReceive c
      k.running)).refuseReceive c k.running error) := by
    intro error
    have eases := Eases.of_eraseBlockedLists same
    have freed : Freed promise (k.withState (k.state.addTaskletToWaitingToReceive c k.running)) chain
        k.running c :=
      ⟨resting.entered.eased eases (resting.entered.queued.of_eraseBlockedLists same) rfl rfl,
        eases.current.trans resting.rest.current, eases.unblocked resting.rest.unblocked,
        added.1, eases.unblocked resting.rest.unblocked, added.2.1⟩
    exact (freed.removeTaskletFromBlocked.1.modifyTasklet _ (.setTransferInProgress false)
      (fun _ => rfl) (fun _ => rfl) fun _ => id).refuseCall _ _
  rw [Config.receiveBlocks]
  dsimp only
  split
  · exact refused _
  split
  · exact refused _
  · exact resting.blocks idle (.inr rfl) same added ((Quiet.refl _).updateCloseState c)

theorem receiveFrom (resting : Resting promise k chain) (blocked : (k.state.tasklets t).blocked = true)
    (channel : (k.state.tasklets t).channelBlockedOn = some c)
    (lost : (k.state.tasklets t).transferArguments = none → ¬ promise.calm) :
    Ordered promise ((k.withState (k.state.removeTaskletFromBlocked c t)).receiveFrom c k.running t) := by
  have released := resting.release channel
  have present := resting.blocked_present blocked
  have same := k.state.removeTaskletFromBlocked_eraseBlockedLists c t
  rw [← (Eases.of_eraseBlockedLists same).count] at present
  have slot : ((k.state.removeTaskletFromBlocked c t).tasklets t).transferArguments =
      (k.state.tasklets t).transferArguments :=
    congrArg (fun s => (s.tasklets t).transferArguments) same
  rw [← slot] at lost
  clear same slot
  generalize k.state.removeTaskletFromBlocked c t = s' at *
  rw [Config.receiveFrom]
  dsimp only
  split
  · next empty => exact .inl ⟨lost (by simpa using empty), rfl⟩
  next arguments stored =>
  have other := resting.ne_running blocked
  have transfer := (((((Quiet.refl ((k.withState s').modifyTasklet t .unblock)).modifyTasklet t
    (.setTransferInProgress false) (fun _ => rfl) (fun _ => rfl) fun _ => id).modifyTasklet k.running
    (.setTransferArguments arguments (s'.tasklets t).transferException
      (s'.tasklets t).restoreException) (fun _ => rfl) (fun _ => rfl) fun _ => id).modifyTasklet t
    .clearTransferArguments (fun _ => rfl) (fun _ => rfl) fun _ => id).record
    (.handed (k.calls t) (k.calls k.running))).updateCloseState c
  have unblocked := (transfer.agree.field t Standing.blocked).trans
    (show _ = false by simp [Tasklet.standing])
  simpa using (released.quiet transfer).resumeSender present unblocked c

/-- `Channel::Receive`. -/
theorem receive (resting : Resting promise k chain) (idle : k.stack k.running = []) (c : ChannelId)
    (lost : ∀ t, (k.state.channels c).blockedOnSend.first = some t →
      (k.state.tasklets t).transferArguments = none → ¬ promise.calm) :
    Ordered promise (k.receive c) := by
  have started : Quiet k ((k.recordCall c .receive).modifyTasklet k.state.currentTasklet
      (.setTransferInProgress true)) :=
    ((Quiet.refl k).recordCall c _).modifyTasklet _ _ (fun _ => rfl) (fun _ => rfl) fun _ => id
  have called := resting.quiet started
  rw [Config.receive, resting.rest.current]
  rw [resting.rest.current] at called started
  dsimp only [State.popNextTaskletBlockedOnSend]
  rcases called.popNext .sender c with empty | ⟨t, popped, first, blocked, channel⟩
  · split
    · exact called.receiveBlocks idle c
    · next popped =>
        rw [popped] at empty
        cases empty
  · rw [popped]
    refine called.receiveFrom blocked channel fun empty => lost t first ?_
    by_cases here : t = k.running
    · subst here
      simpa using empty
    · simpa [here] using empty

/-- The next kill of a `Channel::ClearBlocked`. -/
theorem clearFirst (resting : Resting promise k chain) {c : ChannelId} (pending senders : Bool)
    {d : ChannelDirection} {t : TaskletId} (first : ((k.state.channels c).ends d).first = some t)
    (nested : pending = false → k.state.useNestedTasklets = true) (main : ¬ promise.calm) :
    Ordered promise ((k.push (.clearBlocked c pending senders)).kill t pending) := by
  obtain ⟨lists, rep, listed⟩ := resting.rest.exclusive.lists
  have member := first
  rw [rep.first] at member
  have blocked := ((listed t (by simp) c).mp ⟨d, List.mem_of_mem_head? member⟩).1
  refine (resting.push (.clearBlocked c pending senders) rfl (by simp [Frame.owner])).kill
    (resting.blocked_present blocked) pending (fun notPending _ _ flat => ?_) fun _ _ _ _ => main
  exact absurd ((nested notPending).symm.trans flat) Bool.noConfusion

/-- The second loop of `Channel::ClearBlocked`, up to its next kill. -/
theorem clearSenders (resting : Resting promise k chain) (c : ChannelId) (pending : Bool)
    (nested : pending = false → k.state.useNestedTasklets = true ∨
      (k.state.channels c).blockedOnSend.first = none)
    (main : ¬ promise.calm) : Ordered promise (k.clearSenders c pending) := by
  rw [Config.clearSenders]
  split
  · next t first =>
    exact resting.clearFirst pending true (d := .sender) first
      (fun direct => (nested direct).resolve_right (by simp [first])) main
  · exact resting.ret true

/-- `Channel::ClearBlocked`, up to the next kill. -/
theorem clearBlocked (resting : Resting promise k chain) (c : ChannelId) (pending : Bool)
    (nested : pending = false → k.state.useNestedTasklets = true ∨
      (k.state.channels c).blockedOnReceive.first = none ∧
        (k.state.channels c).blockedOnSend.first = none)
    (main : ¬ promise.calm) : Ordered promise (k.clearBlocked c pending) := by
  rw [Config.clearBlocked]
  split
  · next t first =>
    exact resting.clearFirst pending false (d := .receiver) first
      (fun direct => (nested direct).resolve_right (by simp [first])) main
  · exact resting.clearSenders c pending (fun direct => (nested direct).imp_right And.right) main

end Resting

/-- A call that returns and leaves the running tasklet unblocked. -/
theorem Shaped.pop_eased {k : Config ν} (shaped : Shaped promise k) {top : Frame} {below : List Frame}
    (stack : k.stack k.running = top :: below) {s' : State ν} (eases : Eases k.state s')
    (unblocked : (s'.tasklets k.running).blocked = false) : Shaped promise (k.pop.withState s') where
  proper := fun t => by
    by_cases here : t = k.running
    · subst here
      have proper := shaped.proper k.running
      rw [stack] at proper
      simpa [stack] using proper.tail
    · simpa [here] using shaped.proper t
  blocked := fun t blocked => by
    have other : t ≠ k.running := by
      rintro rfl
      exact Bool.false_ne_true (unblocked.symm.trans blocked)
    obtain ⟨before, sameChannel⟩ := eases.blocked t blocked
    obtain ⟨c, frame, channel, waits, shape⟩ := shaped.blocked t before
    exact ⟨c, frame, sameChannel.trans channel, waits, by simpa [other] using shape⟩
  passed := fun t started => by
    refine eases.passed t (shaped.passed t ?_)
    exact (congrArg Links.greenlet (eases.links t)).symm.trans started

namespace Orderly

variable {k : Config ν} {chain : List TaskletId} {c : ChannelId} {t : TaskletId}
  {below : List Frame}

/-- A channel operation that failed while it was blocked takes its tasklet off the
list and unblocks it. -/
theorem unblocks (orderly : Orderly promise k chain) {top : Frame}
    (stack : k.stack k.running = top :: below) (notSwitch : ∀ x, top ≠ .switchTo x)
    (current : k.state.currentTasklet = k.running)
    (exclusive : Exclusive k.state (some k.running) (some k.running))
    (only : ∀ c' d, k.state.OnBlockedList c' d k.running → c' = c) {s₁ s₃ : State ν}
    (before : Agree k.state s₁ ∧ s₁.currentTasklet = k.state.currentTasklet)
    (after : Agree (s₁.removeTaskletFromBlocked c k.running) s₃ ∧
      s₃.currentTasklet = (s₁.removeTaskletFromBlocked c k.running).currentTasklet) :
    Resting promise (k.pop.withState (s₃.modifyTasklet k.running .unblock)) chain := by
  have same := s₁.removeTaskletFromBlocked_eraseBlockedLists c k.running
  have eases : Eases k.state (s₃.modifyTasklet k.running .unblock) :=
    (((Eases.of_agree before.1 before.2).trans (Eases.of_eraseBlockedLists same)).trans
      (Eases.of_agree after.1 after.2)).trans (Eases.unblock _ _)
  have unblocked : ((s₃.modifyTasklet k.running .unblock).tasklets k.running).blocked = false := by
    simp
  obtain ⟨removed, unlisted⟩ := (exclusive.congr before.1.toSameLists).removeTaskletFromBlocked
    fun c' d onList => only c' d ((before.1.toSameLists.onBlockedList c' d _).mp onList)
  have settled : Exclusive (s₃.modifyTasklet k.running .unblock) none none := by
    refine (((removed.congr after.1.toSameLists).unblock (.inr rfl)).undoom ?_ unblocked).settle
      fun blocked => absurd (unblocked.symm.trans blocked) Bool.false_ne_true
    intro c' d onList
    refine unlisted c' d ((after.1.toSameLists.onBlockedList c' d _).mp ?_)
    have pointers : (fun u => ((s₃.modifyTasklet k.running .unblock).tasklets u).previousBlocked) =
        fun u => (s₃.tasklets u).previousBlocked := by
      funext u
      by_cases here : u = k.running <;> simp [here]
    rw [State.OnBlockedList, pointers] at onList
    exact onList
  refine ⟨⟨?_, ?_, orderly.shaped.pop_eased stack eases unblocked, ?_⟩,
    eases.current.trans current, unblocked, settled⟩
  · exact orderly.chained.congr_links rfl eases.count eases.links fun u other => by simp [other]
  · exact (((orderly.queued.congr before.1.toSameLists).of_eraseBlockedLists same).congr
      after.1.toSameLists).modifyTasklet _ _ (fun _ => rfl) (fun _ => rfl) fun _ => rfl
  · have proper := orderly.shaped.proper k.running
    rw [stack] at proper
    simpa [stack] using proper.below notSwitch

/-- What is known when a blocked channel operation has failed. -/
theorem failing (orderly : Orderly promise k chain) (control : k.control = .returning false)
    {frame : Frame} (stack : k.stack k.running = frame :: below)
    (waits : WaitsOn c k.running frame) : k.state.currentTasklet = k.running ∧
      Exclusive k.state (some k.running) (some k.running) ∧
      ∀ c' d, k.state.OnBlockedList c' d k.running → c' = c := by
  have known := orderly.local_
  rw [Local, control, stack] at known
  have resting : AtRest k → k.state.currentTasklet = k.running ∧
      Exclusive k.state (some k.running) (some k.running) ∧
      ∀ c' d, k.state.OnBlockedList c' d k.running → c' = c := fun rest =>
    ⟨rest.current, rest.exclusive.weaken _ _, fun c' d onList =>
      absurd onList (rest.exclusive.unlisted rest.unblocked c' d)⟩
  have failed : below = [] → Failing k [] → k.state.currentTasklet = k.running ∧
      Exclusive k.state (some k.running) (some k.running) ∧
      ∀ c' d, k.state.OnBlockedList c' d k.running → c' = c := by
    rintro rfl failing
    obtain ⟨c₀, frame₀, waits₀, stack₀, only⟩ := failing.inside
    rw [stack, List.nil_append] at stack₀
    obtain rfl := (List.cons.inj stack₀).1
    have same : c₀ = c := by
      rcases waits with rfl | rfl
      · rcases waits₀ with here | here <;> cases here
        rfl
      · rcases waits₀ with here | here <;> cases here
        rfl
    exact ⟨failing.current, failing.exclusive, fun c' d onList =>
      (only c' d _ onList rfl).trans same⟩
  rcases waits with rfl | rfl
  all_goals
    cases below with
    | nil => exact failed rfl known
    | cons => exact resting known

/-- The failure of the blocked path of `Channel::Send`. -/
theorem sendFailed (orderly : Orderly promise k chain) (control : k.control = .returning false)
    (stack : k.stack k.running = .sendBlocked c t :: below) : Ordered promise (k.pop.sendFailed c t) := by
  have proper := orderly.shaped.proper k.running
  rw [stack] at proper
  obtain rfl : t = k.running := by
    cases proper with
    | operations operations => exact (operations _ (.head _)).2 t rfl
  obtain ⟨current, exclusive, only⟩ := orderly.failing control stack (.inl rfl)
  have cleared := orderly.unblocks stack (by simp) current exclusive only
    ⟨Agree.modifyTasklet _ k.running (.setTransferInProgress false) (fun _ => rfl) (fun _ => rfl)
      fun _ => id, rfl⟩
    ⟨Agree.modifyTasklet _ k.running .clearTransferArguments (fun _ => rfl) (fun _ => rfl)
      fun _ => id, rfl⟩
  exact (cleared.quiet ((Quiet.refl _).updateCloseState c)).failCall k.running

/-- The failure of the blocked path of `Channel::Receive`. -/
theorem receiveFailed (orderly : Orderly promise k chain) (control : k.control = .returning false)
    (stack : k.stack k.running = .receiveBlocked c t :: below) :
    Ordered promise (k.pop.receiveFailed c t) := by
  have proper := orderly.shaped.proper k.running
  rw [stack] at proper
  obtain rfl : t = k.running := by
    cases proper with
    | operations operations => exact (operations _ (.head _)).2 t rfl
  obtain ⟨current, exclusive, only⟩ := orderly.failing control stack (.inr rfl)
  have cleared := orderly.unblocks stack (by simp) current exclusive only ⟨Agree.refl _, rfl⟩
    ⟨Agree.refl _, rfl⟩
  exact (cleared.quiet ((((Quiet.refl _).modifyTasklet k.running (.setTransferInProgress false)
    (fun _ => rfl) (fun _ => rfl) fun _ => id).modifyTasklet k.running .clearTransferArguments
    (fun _ => rfl) (fun _ => rfl) fun _ => id).updateCloseState c)).failCall k.running

end Orderly

end CarbonLab.Scheduler
