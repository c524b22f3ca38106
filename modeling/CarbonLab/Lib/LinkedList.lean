import Mathlib

/-!
# Intrusive doubly linked lists

A heap of nodes is seen through two pointer fields, `fwd` and `bwd`.  The
predicate `Segment` says which list of nodes such a pair of fields threads
together, `OnList` is membership by following `fwd`, and `walk` reads the list
back with a bound on the number of nodes visited.
-/

namespace CarbonLab.LinkedList

variable {α : Type*} {fwd bwd fwd' bwd' : α → Option α}

/-- The nodes of the list are linked one after the other, the first one back to
`before` and the last one forward to `after`. -/
def Segment (fwd bwd : α → Option α) (before : Option α) : List α → Option α → Prop
  | [], _ => True
  | node :: rest, after =>
      bwd node = before ∧ fwd node = rest.head?.or after ∧
        Segment fwd bwd (some node) rest after

@[simp] theorem segment_nil (before after : Option α) : Segment fwd bwd before [] after :=
  trivial

theorem segment_cons (before after : Option α) (node : α) (rest : List α) :
    Segment fwd bwd before (node :: rest) after ↔
      bwd node = before ∧ fwd node = rest.head?.or after ∧
        Segment fwd bwd (some node) rest after :=
  Iff.rfl

theorem segment_singleton (before after : Option α) (node : α) :
    Segment fwd bwd before [node] after ↔ bwd node = before ∧ fwd node = after := by
  simp [segment_cons]

/-- A segment splits at any point, each part taking its boundary from the
other. -/
theorem segment_append (before after : Option α) (left right : List α) :
    Segment fwd bwd before (left ++ right) after ↔
      Segment fwd bwd before left (right.head?.or after) ∧
        Segment fwd bwd (left.getLast?.or before) right after := by
  induction left generalizing before with
  | nil => simp
  | cons node rest ih =>
      have last : (node :: rest).getLast?.or before = rest.getLast?.or (some node) := by
        cases rest with
        | nil => simp
        | cons next tail => simp [List.getLast?_cons]
      have head : (rest ++ right).head?.or after = rest.head?.or (right.head?.or after) := by
        cases rest <;> simp
      simp only [List.cons_append, segment_cons, ih, last, head]
      tauto

/-- Only the pointers of its own nodes matter to a segment. -/
theorem Segment.congr {before after : Option α} {nodes : List α}
    (segment : Segment fwd bwd before nodes after)
    (sameFwd : ∀ node ∈ nodes, fwd' node = fwd node)
    (sameBwd : ∀ node ∈ nodes, bwd' node = bwd node) :
    Segment fwd' bwd' before nodes after := by
  induction nodes generalizing before with
  | nil => trivial
  | cons node rest ih =>
      obtain ⟨back, forward, tail⟩ := segment
      refine ⟨?_, ?_, ih tail (fun other member => sameFwd other (.tail _ member))
        (fun other member => sameBwd other (.tail _ member))⟩
      · rw [sameBwd node (.head _), back]
      · rw [sameFwd node (.head _), forward]

/-- The boundaries of the empty segment are free, those of a nonempty segment
are its end nodes' pointers. -/
theorem segment_concat (before after : Option α) (front : List α) (last : α) :
    Segment fwd bwd before (front ++ [last]) after ↔
      Segment fwd bwd before front (some last) ∧
        bwd last = front.getLast?.or before ∧ fwd last = after := by
  simp [segment_append, segment_singleton]

/-- The pointers around one node of a complete list. -/
theorem Segment.around {front back : List α} {node : α}
    (segment : Segment fwd bwd none (front ++ node :: back) none) :
    bwd node = front.getLast? ∧ fwd node = back.head? := by
  simp only [segment_append, segment_cons, Option.or_none] at segment
  exact ⟨segment.2.1, segment.2.2.1⟩

/-- The forward boundary of a segment may be moved by redirecting its last
node. -/
theorem Segment.redirect_after {before after after' : Option α} {nodes : List α}
    (segment : Segment fwd bwd before nodes after) (nodup : nodes.Nodup)
    (atLast : ∀ last, nodes.getLast? = some last → fwd' last = after')
    (sameFwd : ∀ node ∈ nodes, nodes.getLast? ≠ some node → fwd' node = fwd node)
    (sameBwd : ∀ node ∈ nodes, bwd' node = bwd node) :
    Segment fwd' bwd' before nodes after' := by
  rcases nodes.eq_nil_or_concat with rfl | ⟨front, last, rfl⟩
  · trivial
  · rw [List.concat_eq_append] at *
    rw [segment_concat] at segment ⊢
    have outside : ∀ node ∈ front, node ≠ last := fun node member same =>
      (List.disjoint_of_nodup_append nodup) member (List.mem_singleton.mpr same)
    refine ⟨segment.1.congr (fun node member => sameFwd node (by simp [member]) ?_)
      (fun node member => sameBwd node (by simp [member])), ?_, atLast last (by simp)⟩
    · simpa using (outside node member).symm
    · rw [sameBwd last (by simp), segment.2.1]

/-- The backward boundary of a segment may be moved by redirecting its first
node. -/
theorem Segment.redirect_before {before before' after : Option α} {nodes : List α}
    (segment : Segment fwd bwd before nodes after) (nodup : nodes.Nodup)
    (atHead : ∀ first, nodes.head? = some first → bwd' first = before')
    (sameFwd : ∀ node ∈ nodes, fwd' node = fwd node)
    (sameBwd : ∀ node ∈ nodes, nodes.head? ≠ some node → bwd' node = bwd node) :
    Segment fwd' bwd' before' nodes after := by
  cases nodes with
  | nil => trivial
  | cons first rest =>
      have outside : ∀ node ∈ rest, node ≠ first := fun node member same =>
        (List.nodup_cons.mp nodup).1 (same ▸ member)
      obtain ⟨_, forward, tail⟩ := segment
      refine ⟨atHead first (by simp), (sameFwd first (by simp)).trans forward, tail.congr
        (fun node member => sameFwd node (.tail _ member))
        (fun node member => sameBwd node (.tail _ member) ?_)⟩
      simpa using (outside node member).symm

/-- Linking a new node in between two parts of a complete list. -/
theorem Segment.insert {front back : List α} {node : α}
    (segment : Segment fwd bwd none (front ++ back) none) (nodup : (front ++ back).Nodup)
    (nodeFwd : fwd' node = back.head?) (nodeBwd : bwd' node = front.getLast?)
    (lastFwd : ∀ last, front.getLast? = some last → fwd' last = some node)
    (headBwd : ∀ first, back.head? = some first → bwd' first = some node)
    (sameFwd : ∀ other ∈ front ++ back, front.getLast? ≠ some other → fwd' other = fwd other)
    (sameBwd : ∀ other ∈ front ++ back, back.head? ≠ some other → bwd' other = bwd other) :
    Segment fwd' bwd' none (front ++ node :: back) none := by
  obtain ⟨frontNodup, backNodup, disjoint⟩ := List.nodup_append'.mp nodup
  rw [segment_append] at segment
  rw [segment_append, segment_cons]
  refine ⟨segment.1.redirect_after frontNodup (by simpa using lastFwd)
      (fun other member => sameFwd other (by simp [member]))
      (fun other member => sameBwd other (by simp [member]) fun first =>
        disjoint member (List.mem_of_mem_head? first)), ?_, ?_,
    segment.2.redirect_before backNodup (by simpa using headBwd)
      (fun other member => sameFwd other (by simp [member]) fun last =>
        disjoint (List.mem_of_mem_getLast? last) member)
      (fun other member => sameBwd other (by simp [member]))⟩
  · simpa using nodeBwd
  · simpa using nodeFwd

/-- Unlinking one node of a complete list. -/
theorem Segment.remove {front back : List α} {node : α}
    (segment : Segment fwd bwd none (front ++ node :: back) none)
    (nodup : (front ++ back).Nodup)
    (lastFwd : ∀ last, front.getLast? = some last → fwd' last = back.head?)
    (headBwd : ∀ first, back.head? = some first → bwd' first = front.getLast?)
    (sameFwd : ∀ other ∈ front ++ back, front.getLast? ≠ some other → fwd' other = fwd other)
    (sameBwd : ∀ other ∈ front ++ back, back.head? ≠ some other → bwd' other = bwd other) :
    Segment fwd' bwd' none (front ++ back) none := by
  obtain ⟨frontNodup, backNodup, disjoint⟩ := List.nodup_append'.mp nodup
  rw [segment_append, segment_cons] at segment
  rw [segment_append]
  exact ⟨segment.1.redirect_after frontNodup (by simpa using lastFwd)
      (fun other member => sameFwd other (by simp [member]))
      (fun other member => sameBwd other (by simp [member]) fun first =>
        disjoint member (List.mem_of_mem_head? first)),
    segment.2.2.2.redirect_before backNodup (by simpa using headBwd)
      (fun other member => sameFwd other (by simp [member]) fun last =>
        disjoint (List.mem_of_mem_getLast? last) member)
      (fun other member => sameBwd other (by simp [member]))⟩

/-- Following `fwd` from `start` meets `node`. -/
def OnList (fwd : α → Option α) (start : Option α) (node : α) : Prop :=
  ∃ first, start = some first ∧ Relation.ReflTransGen (fun a b => fwd a = some b) first node

theorem not_onList_none (node : α) : ¬ OnList fwd none node := by
  rintro ⟨_, absurd, _⟩
  cases absurd

theorem onList_some (first node : α) :
    OnList fwd (some first) node ↔ node = first ∨ OnList fwd (fwd first) node := by
  constructor
  · rintro ⟨start, same, path⟩
    cases same
    rcases path.cases_head with rfl | ⟨second, step, rest⟩
    · exact .inl rfl
    · exact .inr ⟨second, step, rest⟩
  · rintro (rfl | ⟨second, step, rest⟩)
    · exact ⟨node, rfl, .refl⟩
    · exact ⟨first, rfl, .head step rest⟩

/-- The nodes met by following the pointers of a complete list are its
members. -/
theorem Segment.onList_iff {before : Option α} {nodes : List α}
    (segment : Segment fwd bwd before nodes none) (node : α) :
    OnList fwd nodes.head? node ↔ node ∈ nodes := by
  induction nodes generalizing before with
  | nil => simpa using not_onList_none node
  | cons first rest ih =>
      obtain ⟨_, forward, tail⟩ := segment
      rw [Option.or_none] at forward
      rw [List.head?_cons, onList_some, forward, ih tail, List.mem_cons]

/-- The list read by following `fwd` from `start`, `none` when more than `bound`
nodes are met. -/
def walk (fwd : α → Option α) : Nat → Option α → Option (List α)
  | _, none => some []
  | 0, some _ => none
  | bound + 1, some node => (walk fwd bound (fwd node)).map (node :: ·)

@[simp] theorem walk_none (bound : Nat) : walk fwd bound none = some [] := by
  cases bound <;> rfl

theorem walk_some_succ (bound : Nat) (node : α) :
    walk fwd (bound + 1) (some node) = (walk fwd bound (fwd node)).map (node :: ·) :=
  rfl

/-- Reading a complete list back gives that list. -/
theorem Segment.walk_eq {before : Option α} {nodes : List α}
    (segment : Segment fwd bwd before nodes none) {bound : Nat} (enough : nodes.length ≤ bound) :
    walk fwd bound nodes.head? = some nodes := by
  induction nodes generalizing before bound with
  | nil => simp
  | cons node rest ih =>
      obtain ⟨_, forward, tail⟩ := segment
      obtain ⟨bound, rfl⟩ : ∃ smaller, bound = smaller + 1 :=
        Nat.exists_eq_add_one.mpr (Nat.lt_of_lt_of_le (Nat.succ_pos _) enough)
      rw [Option.or_none] at forward
      rw [List.head?_cons, walk_some_succ, forward, ih tail (Nat.le_of_succ_le_succ enough)]
      rfl

/-- Two complete lists with the same pointers and the same first node are
equal. -/
theorem Segment.unique {before before' : Option α} {nodes nodes' : List α}
    (segment : Segment fwd bwd before nodes none)
    (segment' : Segment fwd bwd' before' nodes' none)
    (sameHead : nodes.head? = nodes'.head?) : nodes = nodes' := by
  have read := segment.walk_eq (Nat.le_max_left nodes.length nodes'.length)
  have read' := segment'.walk_eq (Nat.le_max_right nodes.length nodes'.length)
  rw [sameHead, read'] at read
  exact (Option.some.inj read).symm

end CarbonLab.LinkedList
