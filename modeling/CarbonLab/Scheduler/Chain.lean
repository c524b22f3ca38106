import CarbonLab.Scheduler.Machine
import Mathlib.Data.List.Perm.Subperm

/-!
# Who runs whom

The running greenlet was switched to by the run loop of its parent, that one by
the run loop of its own parent, and so on down to main: the active chain.  Every
other tasklet has not started, has ended, or is suspended in a yield.
-/

namespace CarbonLab.Scheduler

open LinkedList

variable {ν : Type}

/-- The fields of a tasklet that tie greenlets together. -/
structure Links where
  greenlet : Greenlet
  greenletParent : Option TaskletId
  taskletParent : Option TaskletId
  isMain : Bool

/-- The links of a tasklet. -/
def Tasklet.links (tasklet : Tasklet ν) : Links :=
  ⟨tasklet.greenlet, tasklet.greenletParent, tasklet.taskletParent, tasklet.isMain⟩

/-- The active tasklets, the running one first and main last: each is the child of
the next, which waits for it in its run loop. -/
def ActiveChain (k : Config ν) : List TaskletId → Prop
  | [] => False
  | [t] => t = mainTasklet ∧ (k.state.tasklets t).greenletParent = none ∧
      (k.state.tasklets t).taskletParent = none
  | t :: parent :: rest =>
      (k.state.tasklets t).taskletParent = some parent ∧
        (k.state.tasklets t).greenletParent = some parent ∧
        (∃ base endTasklet unblocked below,
          k.stack parent = .switchTo t :: .run base endTasklet unblocked t :: below) ∧
        ActiveChain k (parent :: rest)

/-- A tasklet that is not active: not running any call, or suspended in a yield. -/
def Suspended (k : Config ν) (t : TaskletId) : Prop :=
  (k.stack t = [] ∧ (k.state.tasklets t).greenlet ≠ .started) ∨
    ∃ parent below, k.stack t = .switchTo parent :: .yieldSwitch t :: below ∧
      (k.state.tasklets t).greenlet = .started

/-- The configuration has the given active chain. -/
structure Chained (k : Config ν) (chain : List TaskletId) : Prop where
  head : chain.head? = some k.running
  active : ActiveChain k chain
  nodup : chain.Nodup
  started : ∀ t ∈ chain, (k.state.tasklets t).greenlet = .started
  suspended : ∀ t, t ∉ chain → Suspended k t
  isMain : ∀ t, (k.state.tasklets t).isMain = true ↔ t = mainTasklet
  bounded : ∀ t, (k.state.tasklets t).greenlet ≠ .null → t < k.state.taskletCount

theorem ActiveChain.congr {k k' : Config ν} {chain : List TaskletId} (active : ActiveChain k chain)
    (links : ∀ t ∈ chain, (k'.state.tasklets t).links = (k.state.tasklets t).links)
    (stack : ∀ t ∈ chain.tail, k'.stack t = k.stack t) : ActiveChain k' chain := by
  induction chain with
  | nil => exact active
  | cons t rest ih =>
      have same := links t (.head _)
      cases rest with
      | nil =>
          obtain ⟨main, greenletParent, taskletParent⟩ := active
          exact ⟨main, (congrArg Links.greenletParent same).trans greenletParent,
            (congrArg Links.taskletParent same).trans taskletParent⟩
      | cons parent rest =>
          obtain ⟨taskletParent, greenletParent, waits, above⟩ := active
          refine ⟨?_, ?_, ?_, ih above (fun u member => links u (.tail _ member))
            (fun u member => stack u (.tail _ member))⟩
          · exact (congrArg Links.taskletParent same).trans taskletParent
          · exact (congrArg Links.greenletParent same).trans greenletParent
          · rw [stack parent (.head _)]
            exact waits

theorem Suspended.congr {k k' : Config ν} {t : TaskletId} (suspended : Suspended k t)
    (greenlet : (k'.state.tasklets t).greenlet = (k.state.tasklets t).greenlet)
    (stack : k'.stack t = k.stack t) : Suspended k' t := by
  unfold Suspended
  rw [stack, greenlet]
  exact suspended

theorem ActiveChain.main_mem {k : Config ν} {chain : List TaskletId}
    (active : ActiveChain k chain) : mainTasklet ∈ chain := by
  induction chain with
  | nil => exact active.elim
  | cons t rest ih =>
      cases rest with
      | nil => exact List.mem_singleton.mpr active.1.symm
      | cons parent rest => exact .tail _ (ih active.2.2.2)

namespace Chained

variable {k k' : Config ν} {chain : List TaskletId}

theorem running_mem (chained : Chained k chain) : k.running ∈ chain :=
  List.mem_of_mem_head? chained.head

theorem tail_ne (chained : Chained k chain) {t : TaskletId} (member : t ∈ chain.tail) :
    t ≠ k.running := by
  intro same
  have nodup := chained.nodup
  rw [List.eq_cons_of_mem_head? chained.head] at nodup member
  exact (List.nodup_cons.mp nodup).1 (same ▸ member)

/-- A step of the running greenlet that touches no other stack, no links of an
active tasklet and no greenlet. -/
theorem congr (chained : Chained k chain) (running : k'.running = k.running)
    (count : k'.state.taskletCount = k.state.taskletCount)
    (links : ∀ t ∈ chain, (k'.state.tasklets t).links = (k.state.tasklets t).links)
    (greenlet : ∀ t, (k'.state.tasklets t).greenlet = (k.state.tasklets t).greenlet)
    (isMain : ∀ t, (k'.state.tasklets t).isMain = (k.state.tasklets t).isMain)
    (stack : ∀ t, t ≠ k.running → k'.stack t = k.stack t) : Chained k' chain where
  head := running ▸ chained.head
  active := chained.active.congr links fun t member => stack t (chained.tail_ne member)
  nodup := chained.nodup
  started := fun t member => (greenlet t).trans (chained.started t member)
  suspended := fun t outside => (chained.suspended t outside).congr (greenlet t)
    (stack t fun same => outside (same ▸ chained.running_mem))
  isMain := fun t => by rw [isMain, chained.isMain]
  bounded := fun t => by
    rw [greenlet, count]
    exact chained.bounded t

/-- The links of a tasklet that is not active do not matter. -/
theorem congr_links (chained : Chained k chain) (running : k'.running = k.running)
    (count : k'.state.taskletCount = k.state.taskletCount)
    (links : ∀ t, (k'.state.tasklets t).links = (k.state.tasklets t).links)
    (stack : ∀ t, t ≠ k.running → k'.stack t = k.stack t) : Chained k' chain :=
  chained.congr running count (fun t _ => links t) (fun t => congrArg Links.greenlet (links t))
    (fun t => congrArg Links.isMain (links t)) stack

end Chained

theorem ActiveChain.hasAncestor_iff {k : Config ν} {p : TaskletId} {rest : List TaskletId}
    (active : ActiveChain k (p :: rest)) {fuel : Nat} (enough : rest.length ≤ fuel)
    (t : TaskletId) : k.state.hasAncestor fuel p t = true ↔ t ∈ p :: rest := by
  induction rest generalizing p fuel with
  | nil =>
      obtain ⟨-, root, -⟩ := active
      cases fuel <;> simp [State.hasAncestor, root, @eq_comm _ p t]
  | cons parent rest ih =>
      obtain ⟨-, greenletParent, -, above⟩ := active
      obtain ⟨fuel, rfl⟩ : ∃ smaller, fuel = smaller + 1 :=
        Nat.exists_eq_add_one.mpr (Nat.lt_of_lt_of_le (Nat.succ_pos _) enough)
      have smaller := ih above (Nat.le_of_succ_le_succ enough)
      simp [State.hasAncestor, greenletParent, smaller, @eq_comm _ p t]

namespace Chained

variable {k k' : Config ν} {chain : List TaskletId}

theorem length_le (chained : Chained k chain) : chain.length ≤ k.state.taskletCount := by
  have below : ∀ t ∈ chain, t ∈ List.range k.state.taskletCount := by
    intro t member
    rw [List.mem_range]
    refine chained.bounded t ?_
    rw [chained.started t member]
    exact Greenlet.noConfusion
  simpa using (List.subperm_of_subset chained.nodup below).length_le

/-- The run loop's cycle check finds exactly the active tasklets. -/
theorem hasAncestor_iff (chained : Chained k chain) (t : TaskletId) :
    k.state.hasAncestor k.state.taskletCount k.running t = true ↔ t ∈ chain := by
  have length := chained.length_le
  have whole := List.eq_cons_of_mem_head? chained.head
  have active := chained.active
  rw [whole] at active length ⊢
  exact active.hasAncestor_iff (Nat.le_of_succ_le (by simpa using length)) t

/-- Switch from a run loop into a tasklet that is not active. -/
theorem enterChild (chained : Chained k chain) {x : TaskletId} (outside : x ∉ chain)
    (taskletParent : (k.state.tasklets x).taskletParent = some k.running)
    (greenletParent : (k.state.tasklets x).greenletParent = some k.running)
    (waits : ∃ base endTasklet unblocked below,
      k.stack k.running = .switchTo x :: .run base endTasklet unblocked x :: below)
    (present : (k.state.tasklets x).greenlet ≠ .null)
    (running : k'.running = x) (stack : k'.stack = k.stack)
    (count : k'.state.taskletCount = k.state.taskletCount)
    (others : ∀ t, t ≠ x → (k'.state.tasklets t).links = (k.state.tasklets t).links)
    (own : (k'.state.tasklets x).links = { (k.state.tasklets x).links with greenlet := .started }) :
    Chained k' (x :: chain) where
  head := by rw [running, List.head?_cons]
  active := by
    have whole := List.eq_cons_of_mem_head? chained.head
    have above : ActiveChain k' chain := by
      refine chained.active.congr (fun t member => ?_) (fun t _ => by rw [stack])
      exact others t fun same => outside (same ▸ member)
    rw [whole] at above ⊢
    refine ⟨?_, ?_, ?_, above⟩
    · exact (congrArg Links.taskletParent own).trans taskletParent
    · exact (congrArg Links.greenletParent own).trans greenletParent
    · rw [stack]
      exact waits
  nodup := List.nodup_cons.mpr ⟨outside, chained.nodup⟩
  started := by
    intro t member
    by_cases same : t = x
    · rw [same]
      exact congrArg Links.greenlet own
    · refine (congrArg Links.greenlet (others t same)).trans (chained.started t ?_)
      simpa [same] using member
  suspended := by
    intro t notMember
    rw [List.mem_cons, not_or] at notMember
    exact (chained.suspended t notMember.2).congr
      (congrArg Links.greenlet (others t notMember.1)) (by rw [stack])
  isMain := by
    intro t
    rw [← chained.isMain t]
    by_cases same : t = x
    · rw [same]
      exact iff_of_eq (congrArg (·.isMain = true) own)
    · exact iff_of_eq (congrArg (·.isMain = true) (others t same))
  bounded := by
    intro t live
    rw [count]
    by_cases same : t = x
    · rw [same]
      exact chained.bounded x present
    · refine chained.bounded t fun missing => live ?_
      exact (congrArg Links.greenlet (others t same)).trans missing

/-- Switch from a yield back to the parent. -/
theorem backToParent {r parent : TaskletId} {rest : List TaskletId}
    (chained : Chained k (r :: parent :: rest)) {x : TaskletId}
    {below : List Frame} (yields : k.stack r = .switchTo x :: .yieldSwitch r :: below)
    (running : k'.running = parent) (stack : k'.stack = k.stack) (state : k'.state = k.state) :
    Chained k' (parent :: rest) where
  head := by rw [running, List.head?_cons]
  active := chained.active.2.2.2.congr (fun t _ => by rw [state]) (fun t _ => by rw [stack])
  nodup := (List.nodup_cons.mp chained.nodup).2
  started := fun t member => by
    rw [state]
    exact chained.started t (.tail _ member)
  suspended := by
    intro t outside
    by_cases same : t = r
    · refine .inr ⟨x, below, ?_, ?_⟩
      · rw [stack, same, yields]
      · rw [state, same]
        exact chained.started r (.head _)
    · refine (chained.suspended t ?_).congr (by rw [state]) (by rw [stack])
      simpa [same] using outside
  isMain := fun t => by rw [state, chained.isMain]
  bounded := fun t => by
    rw [state]
    exact chained.bounded t

/-- The body of the running tasklet ends. -/
theorem endBody {r parent : TaskletId} {rest : List TaskletId}
    (chained : Chained k (r :: parent :: rest)) (idle : k.stack r = [])
    (running : k'.running = parent) (stack : k'.stack = k.stack)
    (state : k'.state = k.state.modifyTasklet r (.setGreenlet .dead)) :
    Chained k' (parent :: rest) := by
  obtain ⟨notMember, nodup⟩ := List.nodup_cons.mp chained.nodup
  have other : ∀ t ∈ parent :: rest, t ≠ r := fun t member same => notMember (same ▸ member)
  constructor
  case head => rw [running, List.head?_cons]
  case active =>
    refine chained.active.2.2.2.congr (fun t member => ?_) (fun t _ => by rw [stack])
    simp [state, other t member]
  case nodup => exact nodup
  case started =>
    intro t member
    simpa [state, other t member] using chained.started t (.tail _ member)
  case suspended =>
    intro t outside
    by_cases same : t = r
    · refine .inl ⟨?_, ?_⟩
      · rw [stack, same, idle]
      · simp [state, same]
    · refine (chained.suspended t ?_).congr (by simp [state, same]) (by rw [stack])
      simpa [same] using outside
  case isMain =>
    intro t
    rw [← chained.isMain t]
    by_cases same : t = r <;> simp [state, same]
  case bounded =>
    intro t
    by_cases same : t = r
    · intro _
      have present : (k.state.tasklets r).greenlet ≠ .null := by
        rw [chained.started r (.head _)]
        exact Greenlet.noConfusion
      simpa [state, same] using chained.bounded r present
    · simpa [state, same] using chained.bounded t

end Chained

end CarbonLab.Scheduler
