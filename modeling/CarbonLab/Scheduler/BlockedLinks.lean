import CarbonLab.Scheduler.ChannelQueue

/-!
# Adding to and removing from blocked lists

One removal routine serves both lists of a channel, with cases for a node that
is first, last, both or neither.  Each case relinks the neighbours the way
deleting one element of a list asks for; an add appends.
-/

namespace CarbonLab.Scheduler

open LinkedList

variable {ν : Type}

theorem Channel.ends_setEnds (channel : Channel) {d : ChannelDirection} (side : d ≠ .neither)
    (ends : BlockedEnds) (d' : ChannelDirection) :
    (channel.setEnds d ends).ends d' = if d' = d then ends else channel.ends d' := by
  cases d <;> cases d' <;> simp_all [Channel.ends, Channel.setEnds]

@[simp] theorem Channel.setEnds_frame (channel : Channel) (d : ChannelDirection)
    (ends : BlockedEnds) :
    (channel.setEnds d ends).balance = channel.balance ∧
      (channel.setEnds d ends).preference = channel.preference ∧
      (channel.setEnds d ends).closing = channel.closing ∧
      (channel.setEnds d ends).closed = channel.closed := by
  cases d <;> simp [Channel.setEnds]

/-- The balance a tasklet blocked in a direction adds to its channel. -/
def ChannelDirection.weight : ChannelDirection → Int
  | .sender => 1
  | .receiver => -1
  | .neither => 0

namespace State

theorem modifyTasklet?_tasklets (s : State ν) (t : Option TaskletId)
    (change : Tasklet ν → Tasklet ν) (u : TaskletId) :
    (s.modifyTasklet? t change).tasklets u =
      if t = some u then change (s.tasklets u) else s.tasklets u := by
  cases t with
  | none => simp [modifyTasklet?]
  | some t =>
      by_cases same : u = t
      · subst same
        simp [modifyTasklet?]
      · simp [modifyTasklet?, same, Ne.symm same]

@[simp] theorem modifyTasklet?_channels (s : State ν) (t : Option TaskletId)
    (change : Tasklet ν → Tasklet ν) : (s.modifyTasklet? t change).channels = s.channels := by
  cases t <;> rfl

variable {s : State ν} {d : ChannelDirection} {c : ChannelId} {t : TaskletId}

theorem detachLast_of_ne (differs : ((s.channels c).ends d).last ≠ some t) :
    s.detachLast d c t = (s, false) :=
  if_neg differs

theorem detachFirst_of_ne (differs : ((s.channels c).ends d).first ≠ some t) :
    s.detachFirst d c t = (s, false) :=
  if_neg differs

theorem detachLast_of_eq (same : ((s.channels c).ends d).last = some t) :
    s.detachLast d c t = ((s.setLastBlocked c d (s.tasklets t).nextBlocked).modifyTasklet?
      (s.tasklets t).nextBlocked fun tasklet => { tasklet with previousBlocked := none }, true) :=
  if_pos same

theorem detachFirst_of_eq (same : ((s.channels c).ends d).first = some t) :
    s.detachFirst d c t = ((s.setFirstBlocked c d (s.tasklets t).previousBlocked).modifyTasklet?
      (s.tasklets t).previousBlocked fun tasklet => { tasklet with nextBlocked := none }, true) :=
  if_pos same

theorem setLastBlocked_ends (side : d ≠ .neither) (last : Option TaskletId) (c' : ChannelId)
    (d' : ChannelDirection) :
    (((s.setLastBlocked c d last).channels c').ends d') =
      if c' = c ∧ d' = d then { (s.channels c).ends d with last := last }
      else (s.channels c').ends d' := by
  by_cases sameChannel : c' = c
  · subst sameChannel
    simp [setLastBlocked, Channel.ends_setEnds _ side]
  · simp [setLastBlocked, sameChannel]

theorem setFirstBlocked_ends (side : d ≠ .neither) (first : Option TaskletId) (c' : ChannelId)
    (d' : ChannelDirection) :
    (((s.setFirstBlocked c d first).channels c').ends d') =
      if c' = c ∧ d' = d then { (s.channels c).ends d with first := first }
      else (s.channels c').ends d' := by
  by_cases sameChannel : c' = c
  · subst sameChannel
    simp [setFirstBlocked, Channel.ends_setEnds _ side]
  · simp [setFirstBlocked, sameChannel]

theorem detachLast_ends_of_ne (side : d ≠ .neither) {d' : ChannelDirection} (differs : d' ≠ d) :
    ((s.detachLast d c t).1.channels c).ends d' = (s.channels c).ends d' := by
  unfold detachLast
  split
  · simp [setLastBlocked_ends side, differs]
  · rfl

theorem detachFirst_ends_of_ne (side : d ≠ .neither) {d' : ChannelDirection} (differs : d' ≠ d) :
    ((s.detachFirst d c t).1.channels c).ends d' = (s.channels c).ends d' := by
  unfold detachFirst
  split
  · simp [setFirstBlocked_ends side, differs]
  · rfl

/-- A tasklet at no end of the opposite list goes through the end-node cases of
its own side only. -/
theorem detachEnds_eq (side : d ≠ .neither)
    (otherFirst : ∀ d', d' ≠ d → ((s.channels c).ends d').first ≠ some t)
    (otherLast : ∀ d', d' ≠ d → ((s.channels c).ends d').last ≠ some t) :
    s.detachEnds c t =
      (((s.detachLast d c t).1.detachFirst d c t).1,
        (s.detachLast d c t).2 || ((s.detachLast d c t).1.detachFirst d c t).2) := by
  cases d with
  | neither => exact absurd rfl side
  | sender =>
      have noLast := detachLast_of_ne (otherLast .receiver (by decide))
      have noFirst : (s.detachLast .sender c t).1.detachFirst .receiver c t = _ :=
        detachFirst_of_ne (by
          rw [detachLast_ends_of_ne (by decide) (by decide)]
          exact otherFirst .receiver (by decide))
      simp only [detachEnds, noLast, noFirst, Bool.false_or, Bool.or_false]
  | receiver =>
      have noLast : (s.detachLast .receiver c t).1.detachLast .sender c t = _ :=
        detachLast_of_ne (by
          rw [detachLast_ends_of_ne (by decide) (by decide)]
          exact otherLast .sender (by decide))
      have noFirst : ((s.detachLast .receiver c t).1.detachFirst .receiver c t).1.detachFirst
          .sender c t = _ :=
        detachFirst_of_ne (by
          rw [detachFirst_ends_of_ne (by decide) (by decide),
            detachLast_ends_of_ne (by decide) (by decide)]
          exact otherFirst .sender (by decide))
      simp only [detachEnds, noLast, noFirst, Bool.or_false]

/-- What clearing the fields of a removed tasklet changes. -/
theorem clearBlockedFields_tasklets (u : TaskletId) :
    (s.clearBlockedFields c t).tasklets u =
      if u = t then { s.tasklets t with
        nextBlocked := none, previousBlocked := none, blockedDirection := .neither }
      else s.tasklets u := by
  by_cases same : u = t
  · subst same
    cases direction : (s.tasklets u).blockedDirection <;>
      simp [clearBlockedFields, direction, decrementBalance, incrementBalance]
  · cases direction : (s.tasklets t).blockedDirection <;>
      simp [clearBlockedFields, direction, decrementBalance, incrementBalance, same]

theorem clearBlockedFields_channels :
    (s.clearBlockedFields c t).channels = Function.update s.channels c { s.channels c with
      balance := (s.channels c).balance - (s.tasklets t).blockedDirection.weight } := by
  cases direction : (s.tasklets t).blockedDirection <;>
    simp [clearBlockedFields, direction, decrementBalance, incrementBalance,
      ChannelDirection.weight]


@[simp] theorem setLastBlocked_tasklets (last : Option TaskletId) :
    (s.setLastBlocked c d last).tasklets = s.tasklets := rfl

@[simp] theorem setFirstBlocked_tasklets (first : Option TaskletId) :
    (s.setFirstBlocked c d first).tasklets = s.tasklets := rfl

@[simp] theorem setLastBlocked_balance (last : Option TaskletId) (c' : ChannelId) :
    ((s.setLastBlocked c d last).channels c').balance = (s.channels c').balance := by
  simp only [setLastBlocked, modifyChannel_channels, Function.update_apply]
  split <;> simp_all

@[simp] theorem setFirstBlocked_balance (first : Option TaskletId) (c' : ChannelId) :
    ((s.setFirstBlocked c d first).channels c').balance = (s.channels c').balance := by
  simp only [setFirstBlocked, modifyChannel_channels, Function.update_apply]
  split <;> simp_all

theorem ends_withBalance (channel : Channel) (balance : Int) (d : ChannelDirection) :
    ({ channel with balance := balance } : Channel).ends d = channel.ends d := by
  cases d <;> rfl

/-- A state after the neighbours `front` and `back` of a tasklet were linked to
each other. -/
structure Detached (s : State ν) (c : ChannelId) (d : ChannelDirection) (front : List TaskletId)
    (t : TaskletId) (back : List TaskletId) (s' : State ν) : Prop where
  nextBlocked : ∀ u, u ≠ t → (s'.tasklets u).nextBlocked =
    if back.head? = some u then front.getLast? else (s.tasklets u).nextBlocked
  previousBlocked : ∀ u, u ≠ t → (s'.tasklets u).previousBlocked =
    if front.getLast? = some u then back.head? else (s.tasklets u).previousBlocked
  direction : ∀ u, (s'.tasklets u).blockedDirection = (s.tasklets u).blockedDirection
  ends : ∀ c' d', (s'.channels c').ends d' =
    if c' = c ∧ d' = d then ⟨(front ++ back).head?, (front ++ back).getLast?⟩
    else (s.channels c').ends d'
  balance : ∀ c', (s'.channels c').balance = (s.channels c').balance

/-- The only node of a list goes through both end-node cases. -/
theorem detached_alone (side : d ≠ .neither)
    (first : ((s.channels c).ends d).first = some t) (last : ((s.channels c).ends d).last = some t)
    (next : (s.tasklets t).nextBlocked = none) (prev : (s.tasklets t).previousBlocked = none) :
    (s.detachLast d c t).2 = true ∧
      s.Detached c d [] t [] ((s.detachLast d c t).1.detachFirst d c t).1 := by
  rw [detachLast_of_eq last, next]
  refine ⟨rfl, ?_⟩
  have stillFirst : (((s.setLastBlocked c d none).channels c).ends d).first = some t := by
    simp [setLastBlocked_ends side, first]
  rw [modifyTasklet?, detachFirst_of_eq stillFirst, setLastBlocked_tasklets, prev, modifyTasklet?]
  exact {
    nextBlocked := fun u _ => by simp
    previousBlocked := fun u _ => by simp
    direction := fun u => by simp
    ends := fun c' d' => by
      simp only [setFirstBlocked_ends side, setLastBlocked_ends side]
      split <;> simp_all
    balance := fun c' => by simp }

/-- The last node of a longer list. -/
theorem detached_last (side : d ≠ .neither) {front : List TaskletId} {f : TaskletId}
    (first : ((s.channels c).ends d).first = (front ++ [f]).head?)
    (last : ((s.channels c).ends d).last = some t) (notFirst : (front ++ [f]).head? ≠ some t)
    (next : (s.tasklets t).nextBlocked = some f) :
    (s.detachLast d c t).2 = true ∧
      s.Detached c d (front ++ [f]) t [] ((s.detachLast d c t).1.detachFirst d c t).1 := by
  rw [detachLast_of_eq last, next]
  refine ⟨rfl, ?_⟩
  rw [detachFirst_of_ne (by simpa [setLastBlocked_ends side, first] using notFirst)]
  exact {
    nextBlocked := fun u _ => by
      rw [modifyTasklet?_tasklets]
      split <;> simp
    previousBlocked := fun u _ => by
      rw [modifyTasklet?_tasklets, List.getLast?_concat, setLastBlocked_tasklets]
      split <;> rfl
    direction := fun u => by
      rw [modifyTasklet?_tasklets]
      split <;> simp
    ends := fun c' d' => by
      simp only [modifyTasklet?_channels, setLastBlocked_ends side]
      split <;> simp_all
    balance := fun c' => by simp }

/-- The first node of a longer list. -/
theorem detached_first (side : d ≠ .neither) {back : List TaskletId} {b : TaskletId}
    (first : ((s.channels c).ends d).first = some t)
    (last : ((s.channels c).ends d).last = (b :: back).getLast?)
    (notLast : (b :: back).getLast? ≠ some t) (prev : (s.tasklets t).previousBlocked = some b) :
    ((s.detachLast d c t).1.detachFirst d c t).2 = true ∧
      s.Detached c d [] t (b :: back) ((s.detachLast d c t).1.detachFirst d c t).1 := by
  rw [detachLast_of_ne (last.trans_ne notLast), detachFirst_of_eq first, prev]
  refine ⟨rfl, ?_⟩
  exact {
    nextBlocked := fun u _ => by
      rw [modifyTasklet?_tasklets, List.head?_cons, setFirstBlocked_tasklets]
      split <;> rfl
    previousBlocked := fun u _ => by
      rw [modifyTasklet?_tasklets]
      split <;> simp
    direction := fun u => by
      rw [modifyTasklet?_tasklets]
      split <;> simp
    ends := fun c' d' => by
      simp only [modifyTasklet?_channels, setFirstBlocked_ends side]
      split <;> simp_all
    balance := fun c' => by simp }

/-- A node with neighbours on both sides. -/
theorem detached_middle {front back : List TaskletId} {f b : TaskletId} (distinct : f ≠ b)
    (first : ((s.channels c).ends d).first = (front ++ [f]).head?)
    (last : ((s.channels c).ends d).last = (b :: back).getLast?)
    (notFirst : (front ++ [f]).head? ≠ some t) (notLast : (b :: back).getLast? ≠ some t)
    (selfFree : t ≠ f ∧ t ≠ b)
    (next : (s.tasklets t).nextBlocked = some f) (prev : (s.tasklets t).previousBlocked = some b) :
    ((s.detachLast d c t).2 || ((s.detachLast d c t).1.detachFirst d c t).2) = false ∧
      s.Detached c d (front ++ [f]) t (b :: back)
        (((s.detachLast d c t).1.detachFirst d c t).1.detachMiddle t) := by
  rw [detachLast_of_ne (last.trans_ne notLast), detachFirst_of_ne (first.trans_ne notFirst)]
  refine ⟨rfl, ?_⟩
  have shape : s.detachMiddle t = (s.modifyTasklet b fun tasklet =>
      { tasklet with nextBlocked := some f }).modifyTasklet f fun tasklet =>
        { tasklet with previousBlocked := some b } := by
    simp [detachMiddle, modifyTasklet?, next, prev, selfFree.2]
  rw [shape]
  exact {
    nextBlocked := fun u _ => by
      by_cases isBack : u = b
      · subst isBack
        simp [distinct.symm]
      · by_cases isFront : u = f
        · subst isFront
          simp [Ne.symm isBack, isBack]
        · simp [isFront, isBack, Ne.symm isBack]
    previousBlocked := fun u _ => by
      by_cases isFront : u = f
      · subst isFront
        simp
      · by_cases isBack : u = b
        · subst isBack
          simp [Ne.symm isFront, isFront]
        · simp [isFront, isBack, Ne.symm isFront]
    direction := fun u => by
      by_cases isFront : u = f <;> by_cases isBack : u = b <;> simp_all
    ends := fun c' d' => by
      simp only [modifyTasklet_channels]
      split
      · rename_i here
        obtain ⟨rfl, rfl⟩ := here
        have whole : (front ++ [f] ++ b :: back).head? = (front ++ [f]).head? := by
          cases front <;> simp
        rw [whole, ← first]
        have whole' : (front ++ [f] ++ b :: back).getLast? = (b :: back).getLast? := by
          simp [List.getLast?_append, List.getLast?_cons]
        rw [whole', ← last]
      · rfl
    balance := fun c' => by simp }

end State

open State

/-- The state after a listed tasklet was removed: its neighbours are linked to
each other and its own fields are cleared. -/
structure Unlinked (s : State ν) (c : ChannelId) (d : ChannelDirection) (front : List TaskletId)
    (t : TaskletId) (back : List TaskletId) (s' : State ν) : Prop where
  nextBlocked : ∀ u, (s'.tasklets u).nextBlocked =
    if u = t then none else if back.head? = some u then front.getLast?
    else (s.tasklets u).nextBlocked
  previousBlocked : ∀ u, (s'.tasklets u).previousBlocked =
    if u = t then none else if front.getLast? = some u then back.head?
    else (s.tasklets u).previousBlocked
  direction : ∀ u, (s'.tasklets u).blockedDirection =
    if u = t then .neither else (s.tasklets u).blockedDirection
  ends : ∀ c' d', (s'.channels c').ends d' =
    if c' = c ∧ d' = d then ⟨(front ++ back).head?, (front ++ back).getLast?⟩
    else (s.channels c').ends d'
  balance : ∀ c', (s'.channels c').balance =
    if c' = c then (s.channels c).balance - d.weight else (s.channels c').balance

/-- Clearing the fields of a detached tasklet completes its removal. -/
theorem State.Detached.unlinked {s s' : State ν} {c : ChannelId} {d : ChannelDirection}
    {front back : List TaskletId} {t : TaskletId} (detached : s.Detached c d front t back s')
    (direction : (s.tasklets t).blockedDirection = d) :
    Unlinked s c d front t back (s'.clearBlockedFields c t) where
  nextBlocked u := by
    rw [clearBlockedFields_tasklets]
    split
    · rfl
    · next differs => exact detached.nextBlocked u differs
  previousBlocked u := by
    rw [clearBlockedFields_tasklets]
    split
    · rfl
    · next differs => exact detached.previousBlocked u differs
  direction u := by
    rw [clearBlockedFields_tasklets]
    split
    · rfl
    · exact detached.direction u
  ends c' d' := by
    rw [← detached.ends, clearBlockedFields_channels, Function.update_apply]
    split
    · next same => rw [ends_withBalance, same]
    · rfl
  balance c' := by
    rw [clearBlockedFields_channels, Function.update_apply]
    split
    · rw [detached.balance, detached.direction, direction]
    · exact detached.balance c'

/-- The fields of a listed tasklet's neighbours and its own after a removal. -/
theorem BlockedRep.unlinked {s : State ν} {lists : BlockedLists}
    (rep : BlockedRep s lists) {c : ChannelId} {d : ChannelDirection} {t : TaskletId}
    {front back : List TaskletId} (split : lists c d = front ++ t :: back) :
    Unlinked s c d front t back (s.removeTaskletFromBlocked c t) := by
  have side : d ≠ .neither := by
    rintro rfl
    simp [rep.neither] at split
  have segment := rep.segment c d
  have first := rep.first c d
  have last := rep.last c d
  have nodup := rep.nodup c d
  have direction : (s.tasklets t).blockedDirection = d := rep.direction c d t (by simp [split])
  rw [split] at segment first last nodup
  obtain ⟨next, prev⟩ := segment.around
  have elsewhere : ∀ d', d' ≠ d → t ∉ lists c d' := fun d' differs member =>
    differs (rep.disjoint c c d' d t member (by simp [split])).2
  have ends := detachEnds_eq (s := s) (c := c) (t := t) side
    (fun d' differs same => elsewhere d' differs (List.mem_of_mem_head? (rep.first c d' ▸ same)))
    (fun d' differs same => elsewhere d' differs (List.mem_of_mem_getLast? (rep.last c d' ▸ same)))
  have notIn : t ∉ front ∧ t ∉ back := by
    simpa using (List.nodup_cons.mp (List.nodup_middle.mp nodup)).1
  have notFirst : front.head? ≠ some t := fun same => notIn.1 (List.mem_of_mem_head? same)
  have notLast : back.getLast? ≠ some t := fun same => notIn.2 (List.mem_of_mem_getLast? same)
  simp only [removeTaskletFromBlocked, ends]
  rcases front.eq_nil_or_concat with rfl | ⟨front, f, rfl⟩ <;> rcases back with _ | ⟨b, back⟩
  · obtain ⟨isEnd, detached⟩ := detached_alone side first last next prev
    simpa only [isEnd, Bool.true_or, ↓reduceIte] using detached.unlinked direction
  · obtain ⟨isEnd, detached⟩ := detached_first side first
      (by simpa using last) notLast prev
    simpa only [isEnd, Bool.or_true, ↓reduceIte] using detached.unlinked direction
  · rw [List.concat_eq_append] at *
    obtain ⟨isEnd, detached⟩ := detached_last side
      (by rw [first]; cases front <;> simp) (by simpa using last) notFirst (by simpa using next)
    simpa only [isEnd, Bool.true_or, ↓reduceIte] using detached.unlinked direction
  · rw [List.concat_eq_append] at *
    obtain ⟨isEnd, detached⟩ := detached_middle (s := s) (c := c) (d := d) (f := f) (b := b)
      (by rintro rfl; simp [List.nodup_append] at nodup)
      (by rw [first]; cases front <;> simp) (by rw [last]; simp [List.getLast?_append, List.getLast?_cons])
      notFirst notLast (by constructor <;> rintro rfl <;> simp at notIn)
      (by simpa using next) prev
    simpa only [isEnd, Bool.false_eq_true, ↓reduceIte] using detached.unlinked direction

/-- A tasklet of a list that is left when `t` is taken out differs from `t`. -/
theorem ne_of_mem_rest {front back : List TaskletId} {t u : TaskletId}
    (nodup : (front ++ t :: back).Nodup) (member : u ∈ front ++ back) : u ≠ t := by
  rintro rfl
  exact (List.nodup_cons.mp (List.nodup_middle.mp nodup)).1 member

/-- Removing a listed tasklet takes exactly it off its list. -/
theorem BlockedRep.remove {s s' : State ν} {lists : BlockedLists}
    (rep : BlockedRep s lists) {c : ChannelId} {d : ChannelDirection} {t : TaskletId}
    {front back : List TaskletId} (split : lists c d = front ++ t :: back)
    (unlinked : Unlinked s c d front t back s') :
    BlockedRep s' (lists.set c d (front ++ back)) := by
  have side : d ≠ .neither := by
    rintro rfl
    simp [rep.neither] at split
  have nodup := rep.nodup c d
  rw [split] at nodup
  have restNodup : (front ++ back).Nodup := (List.nodup_cons.mp (List.nodup_middle.mp nodup)).2
  have listed : ∀ {u}, u ∈ front ++ t :: back → ∀ {c' d'}, u ∈ lists c' d' → c' = c ∧ d' = d :=
    fun member _ _ other => rep.disjoint _ _ _ _ _ other (split ▸ member)
  have stays : ∀ c' d' u, u ∈ lists.set c d (front ++ back) c' d' → u ∈ lists c' d' ∧ u ≠ t := by
    intro c' d' u member
    rw [BlockedLists.set_apply] at member
    split at member
    · next here =>
        obtain ⟨rfl, rfl⟩ := here
        refine ⟨?_, ne_of_mem_rest nodup member⟩
        rw [split]
        simp only [List.mem_append, List.mem_cons] at member ⊢
        tauto
    · next elsewhere =>
        refine ⟨member, ?_⟩
        rintro rfl
        exact elsewhere (listed (by simp) member)
  constructor
  case segment =>
    intro c' d'
    rw [BlockedLists.set_apply]
    split
    · next here =>
        obtain ⟨rfl, rfl⟩ := here
        have segment := rep.segment c' d'
        rw [split] at segment
        refine segment.remove restNodup ?_ ?_ ?_ ?_
        · intro last isLast
          rw [unlinked.previousBlocked, if_neg (ne_of_mem_rest nodup
            (List.mem_append_left _ (List.mem_of_mem_getLast? isLast))), if_pos isLast]
        · intro first isFirst
          rw [unlinked.nextBlocked, if_neg (ne_of_mem_rest nodup
            (List.mem_append_right _ (List.mem_of_mem_head? isFirst))), if_pos isFirst]
        · intro u member notLast
          rw [unlinked.previousBlocked, if_neg (ne_of_mem_rest nodup member), if_neg notLast]
        · intro u member notFirst
          rw [unlinked.nextBlocked, if_neg (ne_of_mem_rest nodup member), if_neg notFirst]
    · next elsewhere =>
        have apart : ∀ u ∈ lists c' d', u ∉ front ++ t :: back :=
          fun u member inside => elsewhere (listed inside member)
        refine (rep.segment c' d').congr ?_ ?_
        · intro u member
          rw [unlinked.previousBlocked, if_neg, if_neg]
          · intro isLast
            exact apart u member (List.mem_append_left _ (List.mem_of_mem_getLast? isLast))
          · rintro rfl
            exact apart u member (by simp)
        · intro u member
          rw [unlinked.nextBlocked, if_neg, if_neg]
          · intro isFirst
            exact apart u member
              (List.mem_append_right _ (List.mem_cons_of_mem _ (List.mem_of_mem_head? isFirst)))
          · rintro rfl
            exact apart u member (by simp)
  case first =>
    intro c' d'
    rw [unlinked.ends, BlockedLists.set_apply]
    split
    · rfl
    · exact rep.first c' d'
  case last =>
    intro c' d'
    rw [unlinked.ends, BlockedLists.set_apply]
    split
    · rfl
    · exact rep.last c' d'
  case nodup =>
    intro c' d'
    rw [BlockedLists.set_apply]
    split
    · exact restNodup
    · exact rep.nodup c' d'
  case direction =>
    intro c' d' u member
    obtain ⟨before, differs⟩ := stays c' d' u member
    rw [unlinked.direction, if_neg differs]
    exact rep.direction c' d' u before
  case disjoint =>
    intro c₁ c₂ d₁ d₂ u left right
    exact rep.disjoint c₁ c₂ d₁ d₂ u (stays c₁ d₁ u left).1 (stays c₂ d₂ u right).1
  case unlisted =>
    intro u nowhere
    rw [unlinked.nextBlocked, unlinked.previousBlocked, unlinked.direction]
    by_cases same : u = t
    · simp [same]
    · have outside : u ∉ front ++ back := by
        intro member
        exact nowhere c d (by rw [BlockedLists.set_apply]; simpa using member)
      have before : ∀ c' d', u ∉ lists c' d' := by
        intro c' d' member
        refine nowhere c' d' ?_
        rw [BlockedLists.set_apply]
        split
        · next here =>
            obtain ⟨rfl, rfl⟩ := here
            rw [split] at member
            simp only [List.mem_append, List.mem_cons] at member ⊢
            tauto
        · exact member
      have notFirst : back.head? ≠ some u := fun isFirst =>
        outside (List.mem_append_right _ (List.mem_of_mem_head? isFirst))
      have notLast : front.getLast? ≠ some u := fun isLast =>
        outside (List.mem_append_left _ (List.mem_of_mem_getLast? isLast))
      simpa [same, notFirst, notLast] using rep.unlisted u before
  case balance =>
    intro c'
    rw [unlinked.balance]
    have before := rep.balance c'
    split
    · next same =>
        subst same
        rw [before]
        cases d with
        | neither => exact absurd rfl side
        | sender => simp [BlockedLists.set_apply, split, ChannelDirection.weight]; omega
        | receiver => simp [BlockedLists.set_apply, split, ChannelDirection.weight]; omega
    · next differs => simpa [BlockedLists.set_apply, differs] using before
  case neither =>
    intro c'
    rw [BlockedLists.set_apply, if_neg (fun here => side here.2.symm)]
    exact rep.neither c'

/-- The state after an unlisted tasklet was appended to a list. -/
structure Appended (s : State ν) (c : ChannelId) (d : ChannelDirection) (nodes : List TaskletId)
    (t : TaskletId) (s' : State ν) : Prop where
  nextBlocked : ∀ u, (s'.tasklets u).nextBlocked =
    if u = t then nodes.getLast? else (s.tasklets u).nextBlocked
  previousBlocked : ∀ u, (s'.tasklets u).previousBlocked =
    if nodes.getLast? = some u then some t else (s.tasklets u).previousBlocked
  direction : ∀ u, (s'.tasklets u).blockedDirection =
    if u = t then d else (s.tasklets u).blockedDirection
  ends : ∀ c' d', (s'.channels c').ends d' =
    if c' = c ∧ d' = d then ⟨(nodes ++ [t]).head?, some t⟩ else (s.channels c').ends d'
  balance : ∀ c', (s'.channels c').balance =
    if c' = c then (s.channels c).balance + d.weight else (s.channels c').balance

theorem State.addTaskletToWaiting_balance (s : State ν) (d : ChannelDirection) (c : ChannelId)
    (t : TaskletId) (c' : ChannelId) :
    ((s.addTaskletToWaiting d c t).channels c').balance = (s.channels c').balance := by
  unfold addTaskletToWaiting
  split <;> simp

/-- The fields of the last node and of the added tasklet after an add. -/
theorem BlockedRep.appended {s : State ν} {lists : BlockedLists} (rep : BlockedRep s lists)
    {c : ChannelId} {d : ChannelDirection} (side : d ≠ .neither) {t : TaskletId}
    (unlisted : ∀ c d, t ∉ lists c d) :
    Appended s c d (lists c d) t ((s.addTaskletToWaiting d c t).modifyChannel c
      (fun channel => { channel with balance := channel.balance + d.weight })) := by
  obtain ⟨next, prev, -⟩ := rep.unlisted t unlisted
  have first := rep.first c d
  have last := rep.last c d
  have balance : ∀ c', (((s.addTaskletToWaiting d c t).modifyChannel c
      (fun channel => { channel with balance := channel.balance + d.weight })).channels c').balance =
      if c' = c then (s.channels c).balance + d.weight else (s.channels c').balance := by
    intro c'
    rw [modifyChannel_channels, Function.update_apply]
    split
    · rw [addTaskletToWaiting_balance]
    · rw [addTaskletToWaiting_balance]
  have ends : ∀ c' d', (((s.addTaskletToWaiting d c t).modifyChannel c
      (fun channel => { channel with balance := channel.balance + d.weight })).channels c').ends d' =
      ((s.addTaskletToWaiting d c t).channels c').ends d' := by
    intro c' d'
    rw [modifyChannel_channels, Function.update_apply]
    split
    · next same => rw [ends_withBalance, same]
    · rfl
  rcases (lists c d).eq_nil_or_concat with empty | ⟨nodes, l, whole⟩
  · rw [empty] at first last ⊢
    have shape : s.addTaskletToWaiting d c t =
        ((s.setLastBlocked c d (some t)).setFirstBlocked c d (some t)).modifyTasklet t
          fun tasklet => { tasklet with blockedDirection := d } := by
      simp [addTaskletToWaiting, last]
    rw [shape] at ends balance ⊢
    exact {
      nextBlocked := fun u => by
        by_cases same : u = t
        · subst same
          simp [next]
        · simp [same]
      previousBlocked := fun u => by
        by_cases same : u = t
        · subst same
          simp
        · simp [same]
      direction := fun u => by
        by_cases same : u = t
        · subst same
          simp
        · simp [same]
      ends := fun c' d' => by
        rw [ends, modifyTasklet_channels, setFirstBlocked_ends side]
        split
        · simp [setLastBlocked_ends side]
        · next elsewhere => rw [setLastBlocked_ends side, if_neg elsewhere]
      balance := balance }
  · rw [List.concat_eq_append] at whole
    have differs : l ≠ t := by
      rintro rfl
      exact unlisted c d (by simp [whole])
    rw [whole] at first last ⊢
    rw [List.getLast?_concat] at last
    have shape : s.addTaskletToWaiting d c t =
        ((((s.modifyTasklet l fun tasklet => { tasklet with previousBlocked := some t }).modifyTasklet
          t fun tasklet => { tasklet with nextBlocked := some l }).setLastBlocked c d
          (some t)).modifyTasklet t fun tasklet => { tasklet with blockedDirection := d }) := by
      simp [addTaskletToWaiting, last]
    rw [shape] at ends balance ⊢
    exact {
      nextBlocked := fun u => by
        by_cases same : u = t
        · subst same
          simp
        · by_cases isLast : u = l
          · subst isLast
            simp [same]
          · simp [same, isLast]
      previousBlocked := fun u => by
        by_cases same : u = t
        · subst same
          simp [differs, differs.symm]
        · by_cases isLast : u = l
          · subst isLast
            simp [same]
          · simp [same, isLast, Ne.symm isLast]
      direction := fun u => by
        by_cases same : u = t
        · subst same
          simp
        · by_cases isLast : u = l
          · subst isLast
            simp [same]
          · simp [same, isLast]
      ends := fun c' d' => by
        rw [ends, modifyTasklet_channels, setLastBlocked_ends side]
        split
        · simp only [modifyTasklet_channels, first]
          cases nodes <;> simp
        · rfl
      balance := balance }


/-- Adding an unlisted tasklet appends it to the list. -/
theorem BlockedRep.append {s s' : State ν} {lists : BlockedLists} (rep : BlockedRep s lists)
    {c : ChannelId} {d : ChannelDirection} (side : d ≠ .neither) {t : TaskletId}
    (unlisted : ∀ c d, t ∉ lists c d) (appended : Appended s c d (lists c d) t s') :
    BlockedRep s' (lists.set c d (lists c d ++ [t])) := by
  obtain ⟨next, prev, -⟩ := rep.unlisted t unlisted
  have stays : ∀ c' d' u, u ∈ lists.set c d (lists c d ++ [t]) c' d' →
      u ∈ lists c' d' ∨ (u = t ∧ c' = c ∧ d' = d) := by
    intro c' d' u member
    rw [BlockedLists.set_apply] at member
    split at member
    · next here =>
        obtain ⟨rfl, rfl⟩ := here
        simpa using member
    · exact .inl member
  have old : ∀ {c' d' u}, u ∈ lists c' d' → u ≠ t := by
    rintro c' d' u member rfl
    exact unlisted c' d' member
  constructor
  case segment =>
    intro c' d'
    rw [BlockedLists.set_apply]
    split
    · next here =>
        obtain ⟨rfl, rfl⟩ := here
        have segment := rep.segment c' d'
        rw [← List.append_nil (lists c' d')] at segment
        refine segment.insert (by simpa using rep.nodup c' d') ?_ ?_ ?_ (by simp) ?_ ?_
        · have notLast : (lists c' d').getLast? ≠ some t := fun isLast =>
            unlisted c' d' (List.mem_of_mem_getLast? isLast)
          rw [appended.previousBlocked, if_neg notLast, prev]
          rfl
        · rw [appended.nextBlocked, if_pos rfl]
        · intro last isLast
          rw [appended.previousBlocked, if_pos isLast]
        · intro u _ notLast
          rw [appended.previousBlocked, if_neg notLast]
        · intro u member _
          rw [List.append_nil] at member
          rw [appended.nextBlocked, if_neg (old member)]
    · next elsewhere =>
        refine (rep.segment c' d').congr ?_ ?_
        · intro u member
          have notLast : (lists c d).getLast? ≠ some u := fun isLast =>
            elsewhere (rep.disjoint _ _ _ _ u member (List.mem_of_mem_getLast? isLast))
          rw [appended.previousBlocked, if_neg notLast]
        · intro u member
          rw [appended.nextBlocked, if_neg (old member)]
  case first =>
    intro c' d'
    rw [appended.ends, BlockedLists.set_apply]
    split
    · rfl
    · exact rep.first c' d'
  case last =>
    intro c' d'
    rw [appended.ends, BlockedLists.set_apply]
    split
    · rw [List.getLast?_concat]
    · exact rep.last c' d'
  case nodup =>
    intro c' d'
    rw [BlockedLists.set_apply]
    split
    · exact (rep.nodup c d).append (List.nodup_singleton t) (by simpa using unlisted c d)
    · exact rep.nodup c' d'
  case direction =>
    intro c' d' u member
    rw [appended.direction]
    rcases stays c' d' u member with before | ⟨rfl, rfl, rfl⟩
    · rw [if_neg (old before)]
      exact rep.direction c' d' u before
    · rw [if_pos rfl]
  case disjoint =>
    intro c₁ c₂ d₁ d₂ u left right
    rcases stays c₁ d₁ u left with before | ⟨same, rfl, rfl⟩ <;>
      rcases stays c₂ d₂ u right with before' | ⟨same', rfl, rfl⟩
    · exact rep.disjoint c₁ c₂ d₁ d₂ u before before'
    · exact absurd same' (old before)
    · exact absurd same (old before')
    · exact ⟨rfl, rfl⟩
  case unlisted =>
    intro u nowhere
    have differs : u ≠ t := by
      rintro rfl
      exact nowhere c d (by simp [BlockedLists.set_apply])
    have before : ∀ c' d', u ∉ lists c' d' := by
      intro c' d' member
      refine nowhere c' d' ?_
      rw [BlockedLists.set_apply]
      split
      · next here =>
          obtain ⟨rfl, rfl⟩ := here
          exact List.mem_append_left _ member
      · exact member
    have notLast : (lists c d).getLast? ≠ some u := fun isLast =>
      before c d (List.mem_of_mem_getLast? isLast)
    rw [appended.nextBlocked, appended.previousBlocked, appended.direction, if_neg differs,
      if_neg notLast, if_neg differs]
    exact rep.unlisted u before
  case balance =>
    intro c'
    rw [appended.balance]
    have before := rep.balance c'
    split
    · next same =>
        subst same
        rw [before]
        cases d with
        | neither => exact absurd rfl side
        | sender => simp [BlockedLists.set_apply, ChannelDirection.weight]; omega
        | receiver => simp [BlockedLists.set_apply, ChannelDirection.weight]; omega
    · next differs => simpa [BlockedLists.set_apply, differs] using before
  case neither =>
    intro c'
    rw [BlockedLists.set_apply, if_neg (fun here => side here.2.symm)]
    exact rep.neither c'

/-- `AddTaskletToWaitingToSend` appends to the list of senders. -/
theorem BlockedRep.addTaskletToWaitingToSend {s : State ν} {lists : BlockedLists}
    (rep : BlockedRep s lists) (c : ChannelId) {t : TaskletId} (unlisted : ∀ c d, t ∉ lists c d) :
    BlockedRep (s.addTaskletToWaitingToSend c t) (lists.set c .sender (lists c .sender ++ [t])) :=
  rep.append (by decide) unlisted (rep.appended (by decide) unlisted)

/-- `AddTaskletToWaitingToReceive` appends to the list of receivers. -/
theorem BlockedRep.addTaskletToWaitingToReceive {s : State ν} {lists : BlockedLists}
    (rep : BlockedRep s lists) (c : ChannelId) {t : TaskletId} (unlisted : ∀ c d, t ∉ lists c d) :
    BlockedRep (s.addTaskletToWaitingToReceive c t)
      (lists.set c .receiver (lists c .receiver ++ [t])) :=
  rep.append (by decide) unlisted (rep.appended (by decide) unlisted)

/-- Removing a tasklet of a list takes exactly it off that list. -/
theorem BlockedRep.removeTaskletFromBlocked {s : State ν} {lists : BlockedLists}
    (rep : BlockedRep s lists) {c : ChannelId} {d : ChannelDirection} {t : TaskletId}
    (member : t ∈ lists c d) :
    BlockedRep (s.removeTaskletFromBlocked c t) (lists.set c d ((lists c d).erase t)) := by
  obtain ⟨front, back, split⟩ := List.append_of_mem member
  have notFront : t ∉ front := by
    have nodup := rep.nodup c d
    rw [split] at nodup
    intro inside
    exact (List.nodup_cons.mp (List.nodup_middle.mp nodup)).1 (List.mem_append_left _ inside)
  have rest : (lists c d).erase t = front ++ back := by
    rw [split, List.erase_append_right _ notFront, List.erase_cons_head]
  rw [rest]
  exact rep.remove split (rep.unlinked split)

/-- Removing a tasklet that is on no list changes nothing. -/
theorem BlockedRep.removeTaskletFromBlocked_unlisted {s : State ν} {lists : BlockedLists}
    (rep : BlockedRep s lists) (c : ChannelId) {t : TaskletId} (unlisted : ∀ c d, t ∉ lists c d) :
    s.removeTaskletFromBlocked c t = s := by
  obtain ⟨next, prev, direction⟩ := rep.unlisted t unlisted
  have notFirst : ∀ d, ((s.channels c).ends d).first ≠ some t := fun d isFirst =>
    unlisted c d (List.mem_of_mem_head? (rep.first c d ▸ isFirst))
  have notLast : ∀ d, ((s.channels c).ends d).last ≠ some t := fun d isLast =>
    unlisted c d (List.mem_of_mem_getLast? (rep.last c d ▸ isLast))
  have ends : s.detachEnds c t = (s, false) := by
    simp only [detachEnds, detachLast_of_ne (notLast _), detachFirst_of_ne (notFirst _), Bool.or_self]
  have middle : s.detachMiddle t = s := by
    simp [detachMiddle, next, prev, modifyTasklet?]
  have same : ({ s.tasklets t with
      nextBlocked := none, previousBlocked := none, blockedDirection := .neither } : Tasklet ν) =
      s.tasklets t := by
    conv_rhs => rw [show s.tasklets t = { s.tasklets t with
      nextBlocked := (s.tasklets t).nextBlocked
      previousBlocked := (s.tasklets t).previousBlocked
      blockedDirection := (s.tasklets t).blockedDirection } from rfl, next, prev, direction]
  have cleared : s.clearBlockedFields c t = { s with
      tasklets := (s.clearBlockedFields c t).tasklets
      channels := (s.clearBlockedFields c t).channels } := by
    simp [clearBlockedFields, direction, modifyTasklet]
  simp only [State.removeTaskletFromBlocked, ends, middle, Bool.false_eq_true, ↓reduceIte]
  rw [cleared, clearBlockedFields_channels, direction]
  have tasklets : (s.clearBlockedFields c t).tasklets = s.tasklets := by
    funext u
    rw [clearBlockedFields_tasklets, same]
    split
    · next here => rw [here]
    · rfl
  rw [tasklets]
  simp [ChannelDirection.weight]


/-- Popping takes the first tasklet off a list. -/
theorem BlockedRep.popNextTaskletBlocked {s : State ν} {lists : BlockedLists}
    (rep : BlockedRep s lists) (d : ChannelDirection) (c : ChannelId) :
    BlockedRep (s.popNextTaskletBlocked d c).1 (lists.set c d (lists c d).tail) ∧
      (s.popNextTaskletBlocked d c).2 = (lists c d).head? := by
  rw [State.popNextTaskletBlocked, rep.first]
  cases nodes : lists c d with
  | nil =>
      have same : lists.set c d [] = lists := by
        funext c' d'
        rw [BlockedLists.set_apply]
        split
        · next here => rw [here.1, here.2, nodes]
        · rfl
      simpa [same] using rep
  | cons first rest =>
      have removed := rep.removeTaskletFromBlocked (c := c) (d := d) (t := first) (by simp [nodes])
      rw [nodes, List.erase_cons_head] at removed
      exact ⟨removed, rfl⟩

end CarbonLab.Scheduler
