import CarbonLab.Lib.Json
import CarbonLab.Lib.FinishOrder

/-!
# The dependency graph of modules

`_check_dependency_graph` of `modules.py`.  The limit on the depth of Python's recursion is left
out.
-/

namespace CarbonLab.Aegis

/-- Of what `discover` finds, the modules and their dependencies. -/
structure ModuleMap where
  entries : List (Text × List Text)
  distinct : (entries.map (·.1)).Nodup

/-- What `_check_dependency_graph` raises. -/
inductive GraphFault
  /-- `"module dependency cycle: " + " -> ".join(path)` -/
  | cycle (path : List Text)
  /-- `f"module {module_id!r} has missing dependency {dependency!r}"` -/
  | missing (moduleId dependency : Text)
  deriving DecidableEq, Repr

namespace ModuleMap

/-- `visiting` and `visited`, the last added first. -/
structure Marks where
  visiting : List Text
  visited : List Text
  deriving DecidableEq, Repr

variable (found : ModuleMap)

/-- The identifiers of the modules. -/
def ids : List Text := found.entries.map (·.1)

/-- `found[module_id]["manifest"]["module"].get("dependencies", [])` -/
def dependencies (moduleId : Text) : List Text := (found.entries.lookup moduleId).getD []

/-- The loop of `visit` over dependencies. -/
def visitEach (visit : Text → Marks → Option (Except GraphFault Marks)) (moduleId : Text) :
    List Text → Marks → Option (Except GraphFault Marks)
  | [], marks => some (.ok marks)
  | dependency :: rest, marks =>
      if dependency ∉ found.ids then some (.error (.missing moduleId dependency))
      else
        match visit dependency marks with
        | some (.ok marks) => visitEach visit moduleId rest marks
        | other => other

/-- `visit`, for calls up to a depth. -/
def visit : (fuel : ℕ) → (stack : List Text) → Text → Marks → Option (Except GraphFault Marks)
  | 0, _, _, _ => none
  | fuel + 1, stack, moduleId, marks =>
      if moduleId ∈ marks.visiting then some (.error (.cycle (stack ++ [moduleId])))
      else if moduleId ∈ marks.visited then some (.ok marks)
      else
        let entered : Marks := { marks with visiting := moduleId :: marks.visiting }
        match found.visitEach (visit fuel (stack ++ [moduleId])) moduleId
            (found.dependencies moduleId) entered with
        | some (.ok marks) =>
            some (.ok ⟨marks.visiting.erase moduleId, moduleId :: marks.visited⟩)
        | other => other

/-- The loop of `_check_dependency_graph`. -/
def visitAll (fuel : ℕ) : List Text → Marks → Option (Except GraphFault Unit)
  | [], _ => some (.ok ())
  | moduleId :: rest, marks =>
      match found.visit fuel [] moduleId marks with
      | some (.ok marks) => visitAll fuel rest marks
      | some (.error fault) => some (.error fault)
      | none => none

/-- `_check_dependency_graph` -/
def checkDependencyGraph (fuel : ℕ) : Option (Except GraphFault Unit) :=
  found.visitAll fuel (found.ids.insertionSort (· ≤ ·)) ⟨[], []⟩

/-! ## The graph -/

/-- A module lists a dependency. -/
def DependsOn (moduleId dependency : Text) : Prop := dependency ∈ found.dependencies moduleId

/-- Every listed dependency is there. -/
def Complete : Prop := ∀ moduleId dependency, found.DependsOn moduleId dependency → dependency ∈ found.ids

/-- No module depends on itself through others. -/
def Acyclic : Prop := ∀ moduleId, ¬Relation.TransGen found.DependsOn moduleId moduleId

variable {found} {fuel : ℕ} {stack : List Text} {moduleId dependency : Text} {marks : Marks}

/-- What a fault says of the graph. -/
def Reports (found : ModuleMap) : GraphFault → Prop
  | .cycle path => ClosesCycle found.DependsOn path
  | .missing moduleId dependency =>
      found.DependsOn moduleId dependency ∧ dependency ∉ found.ids

/-- The marks between two calls: what is being visited is the stack, and what was visited has been
finished. -/
structure Between (found : ModuleMap) (stack : List Text) (marks : Marks) : Prop where
  visiting : ∀ moduleId, moduleId ∈ marks.visiting ↔ moduleId ∈ stack
  once : marks.visiting.Nodup
  finished : Finished found.DependsOn marks.visited
  complete : ∀ moduleId ∈ marks.visited, ∀ dependency, found.DependsOn moduleId dependency →
    dependency ∈ found.ids
  apart : ∀ moduleId ∈ marks.visited, moduleId ∉ stack

/-- A call that returns keeps the marks and visits what it should; one that raises is right. -/
def Settles (found : ModuleMap) (stack : List Text) (marks : Marks) (visits : Marks → Prop) :
    Option (Except GraphFault Marks) → Prop
  | none => False
  | some (.error fault) => found.Reports fault
  | some (.ok after) =>
      found.Between stack after ∧ (∀ moduleId ∈ marks.visited, moduleId ∈ after.visited) ∧ visits after

/-- The loop settles when its calls do. -/
theorem visitEach_settles {visit : Text → Marks → Option (Except GraphFault Marks)}
    (between : found.Between stack marks) {rest : List Text}
    (listed : ∀ dependency ∈ rest, found.DependsOn moduleId dependency)
    (settles : ∀ dependency marks, found.DependsOn moduleId dependency → dependency ∈ found.ids →
      found.Between stack marks →
      found.Settles stack marks (dependency ∈ ·.visited) (visit dependency marks)) :
    found.Settles stack marks
      (fun after => ∀ dependency ∈ rest, dependency ∈ found.ids ∧ dependency ∈ after.visited)
      (found.visitEach visit moduleId rest marks) := by
  induction rest generalizing marks with
  | nil => exact ⟨between, fun _ member => member, by simp⟩
  | cons dependency rest ih =>
      obtain ⟨depends, restListed⟩ := List.forall_mem_cons.mp listed
      rw [visitEach]
      by_cases known : dependency ∈ found.ids
      · rw [if_neg (not_not.mpr known)]
        have first := settles dependency marks depends known between
        rcases call : visit dependency marks with _ | fault | after
        · rw [call] at first
          exact first
        · rw [call] at first
          exact first
        · rw [call] at first
          obtain ⟨between, kept, visited⟩ := first
          have later := ih between restListed
          simp only
          rcases loop : found.visitEach visit moduleId rest after with _ | fault | last
          · rw [loop] at later
            exact later
          · rw [loop] at later
            exact later
          · rw [loop] at later
            obtain ⟨between, keptLater, all⟩ := later
            refine ⟨between, fun _ member => keptLater _ (kept _ member), ?_⟩
            exact List.forall_mem_cons.mpr ⟨⟨known, keptLater _ visited⟩, all⟩
      · rw [if_pos known]
        exact ⟨depends, known⟩

/-- A path of modules. -/
structure Stacked (found : ModuleMap) (stack : List Text) (moduleId : Text) : Prop where
  walk : (stack ++ [moduleId]).IsChain found.DependsOn
  once : stack.Nodup
  known : ∀ other ∈ stack, other ∈ found.ids
  here : moduleId ∈ found.ids

theorem Stacked.push (stacked : found.Stacked stack moduleId) (fresh : moduleId ∉ stack)
    (depends : found.DependsOn moduleId dependency) (known : dependency ∈ found.ids) :
    found.Stacked (stack ++ [moduleId]) dependency where
  walk := by
    refine List.isChain_append.mpr ⟨stacked.walk, List.isChain_singleton _, ?_⟩
    intro last isLast first isFirst
    rw [List.getLast?_concat] at isLast
    cases isLast
    cases isFirst
    exact depends
  once := by
    rw [List.nodup_append]
    refine ⟨stacked.once, List.nodup_singleton _, ?_⟩
    intro other member last isLast same
    rw [List.mem_singleton.mp isLast] at same
    exact fresh (same ▸ member)
  known := by
    intro other member
    rcases List.mem_append.mp member with before | here
    · exact stacked.known other before
    · rw [List.mem_singleton.mp here]
      exact stacked.here
  here := known

/-- A path is no longer than there are modules. -/
theorem Stacked.length_le (stacked : found.Stacked stack moduleId) :
    stack.length ≤ found.ids.length :=
  (List.subperm_of_subset stacked.once fun other => stacked.known other).length_le

/-- Entering a module. -/
theorem Between.enter (between : found.Between stack marks) (fresh : moduleId ∉ stack)
    (unvisited : moduleId ∉ marks.visited) :
    found.Between (stack ++ [moduleId]) { marks with visiting := moduleId :: marks.visiting } where
  visiting := by
    intro other
    rw [List.mem_cons, between.visiting, List.mem_append, List.mem_singleton, or_comm]
  once := List.nodup_cons.mpr ⟨fun member => fresh ((between.visiting _).mp member), between.once⟩
  finished := between.finished
  complete := between.complete
  apart := by
    intro other member inside
    rcases List.mem_append.mp inside with before | here
    · exact between.apart other member before
    · rw [List.mem_singleton.mp here] at member
      exact unvisited member

/-- Leaving a module whose dependencies have been visited. -/
theorem Between.leave (between : found.Between (stack ++ [moduleId]) marks) (fresh : moduleId ∉ stack)
    (all : ∀ dependency ∈ found.dependencies moduleId,
      dependency ∈ found.ids ∧ dependency ∈ marks.visited) :
    found.Between stack ⟨marks.visiting.erase moduleId, moduleId :: marks.visited⟩ where
  visiting := by
    intro other
    rw [between.once.mem_erase_iff, between.visiting, List.mem_append, List.mem_singleton]
    constructor
    · rintro ⟨different, before | here⟩
      · exact before
      · exact absurd here different
    · intro before
      exact ⟨fun same => fresh (same ▸ before), Or.inl before⟩
  once := between.once.erase moduleId
  finished := by
    refine .cons ?_ (fun next depends => (all next depends).2) between.finished
    intro member
    exact between.apart moduleId member (List.mem_append_right _ List.mem_cons_self)
  complete := by
    intro other member next depends
    rcases List.mem_cons.mp member with rfl | visited
    · exact (all next depends).1
    · exact between.complete other visited next depends
  apart := by
    intro other member inside
    rcases List.mem_cons.mp member with rfl | visited
    · exact fresh inside
    · exact between.apart other visited (List.mem_append_left _ inside)

/-- A call of `visit` settles; the fuel is used up only on a path through all modules. -/
theorem visit_settles (stacked : found.Stacked stack moduleId) (between : found.Between stack marks)
    (enough : found.ids.length < fuel + stack.length) :
    found.Settles stack marks (moduleId ∈ ·.visited) (found.visit fuel stack moduleId marks) := by
  induction fuel generalizing stack moduleId marks with
  | zero =>
      have short := stacked.length_le
      omega
  | succ fuel ih =>
      rw [visit]
      by_cases inside : moduleId ∈ marks.visiting
      · rw [if_pos inside]
        exact ⟨stacked.walk, stack, moduleId, rfl, (between.visiting moduleId).mp inside⟩
      · have fresh : moduleId ∉ stack := fun member => inside ((between.visiting moduleId).mpr member)
        rw [if_neg inside]
        by_cases visited : moduleId ∈ marks.visited
        · rw [if_pos visited]
          exact ⟨between, fun _ member => member, visited⟩
        · rw [if_neg visited]
          have loop := @visitEach_settles found (stack ++ [moduleId]) moduleId _
            (found.visit fuel (stack ++ [moduleId])) (between.enter fresh visited)
            (found.dependencies moduleId) (fun _ listed => listed) (by
              intro dependency marks depends known between
              apply ih (stacked.push fresh depends known) between
              rw [List.length_append, List.length_singleton]
              omega)
          simp only
          rcases all : found.visitEach (found.visit fuel (stack ++ [moduleId])) moduleId
            (found.dependencies moduleId) { marks with visiting := moduleId :: marks.visiting }
            with _ | fault | after
          · rw [all] at loop
            exact loop
          · rw [all] at loop
            exact loop
          · rw [all] at loop
            obtain ⟨between, kept, complete⟩ := loop
            exact ⟨between.leave fresh complete,
              fun other member => List.mem_cons_of_mem _ (kept other member), List.mem_cons_self⟩

/-! ## The check -/

/-- What the check returns tells the graph. -/
def Tells (found : ModuleMap) (visited : Prop) : Option (Except GraphFault Unit) → Prop
  | none => False
  | some (.error fault) => found.Reports fault
  | some (.ok ()) => visited

theorem visitAll_tells (enough : found.ids.length < fuel) (between : found.Between [] marks)
    {rest : List Text} (known : ∀ moduleId ∈ rest, moduleId ∈ found.ids) :
    found.Tells (∃ nodes, Finished found.DependsOn nodes ∧
        (∀ moduleId ∈ nodes, ∀ dependency, found.DependsOn moduleId dependency →
          dependency ∈ found.ids) ∧
        ∀ moduleId, moduleId ∈ marks.visited ∨ moduleId ∈ rest → moduleId ∈ nodes)
      (found.visitAll fuel rest marks) := by
  induction rest generalizing marks with
  | nil => exact ⟨marks.visited, between.finished, between.complete, by simp⟩
  | cons moduleId rest ih =>
      obtain ⟨here, restKnown⟩ := List.forall_mem_cons.mp known
      have stacked : found.Stacked [] moduleId :=
        ⟨List.isChain_singleton _, List.nodup_nil, by simp, here⟩
      have first := visit_settles stacked between enough
      rw [visitAll]
      rcases call : found.visit fuel [] moduleId marks with _ | fault | after
      · rw [call] at first
        exact first
      · rw [call] at first
        exact first
      · rw [call] at first
        obtain ⟨between, kept, visited⟩ := first
        have later := ih between restKnown
        simp only
        rcases all : found.visitAll fuel rest after with _ | fault | ⟨⟩
        · rw [all] at later
          exact later
        · rw [all] at later
          exact later
        · rw [all] at later
          obtain ⟨nodes, finished, complete, covers⟩ := later
          refine ⟨nodes, finished, complete, ?_⟩
          intro other member
          rcases member with before | member
          · exact covers other (Or.inl (kept other before))
          · rcases List.mem_cons.mp member with rfl | behind
            · exact covers other (Or.inl visited)
            · exact covers other (Or.inr behind)

/-- A node with an edge is a module. -/
theorem mem_ids_of_dependsOn (depends : found.DependsOn moduleId dependency) :
    moduleId ∈ found.ids := by
  unfold DependsOn dependencies at depends
  cases listed : found.entries.lookup moduleId with
  | none =>
      rw [listed] at depends
      cases depends
  | some dependencies =>
      obtain ⟨before, after, entries, _⟩ := List.lookup_eq_some_iff.mp listed
      rw [ids, entries]
      simp

/-- A reported fault excludes a complete graph without cycles. -/
theorem Reports.refutes {fault : GraphFault} (reports : found.Reports fault) :
    ¬(found.Complete ∧ found.Acyclic) := by
  rintro ⟨complete, acyclic⟩
  cases fault with
  | cycle path =>
      obtain ⟨moduleId, cycle⟩ := ClosesCycle.exists_cycle reports
      exact acyclic moduleId cycle
  | missing moduleId dependency => exact reports.2 (complete moduleId dependency reports.1)

/-- **The dependency check.** With a depth for every module the search ends; it returns exactly when
every dependency is there and no module depends on itself; and the path of a cycle that it reports
is a walk in the graph that ends in a module it has passed. -/
theorem checkDependencyGraph_exact (found : ModuleMap) {fuel : ℕ}
    (enough : found.ids.length < fuel) :
    ∃ outcome, found.checkDependencyGraph fuel = some outcome ∧
      (outcome = .ok () ↔ found.Complete ∧ found.Acyclic) ∧
      (∀ path, outcome = .error (.cycle path) → ClosesCycle found.DependsOn path) ∧
      ∀ moduleId dependency, outcome = .error (.missing moduleId dependency) →
        found.DependsOn moduleId dependency ∧ dependency ∉ found.ids := by
  have start : found.Between [] ⟨[], []⟩ :=
    ⟨by simp, List.nodup_nil, .nil, by simp, by simp⟩
  have sorted (moduleId : Text) :
      moduleId ∈ found.ids.insertionSort (· ≤ ·) ↔ moduleId ∈ found.ids :=
    (List.perm_insertionSort _ _).mem_iff
  have tells := visitAll_tells enough start fun moduleId member => (sorted moduleId).mp member
  rw [checkDependencyGraph]
  rcases check : found.visitAll fuel (found.ids.insertionSort (· ≤ ·)) ⟨[], []⟩ with _ | fault | ⟨⟩
  · rw [check] at tells
    exact absurd tells id
  · rw [check] at tells
    refine ⟨.error fault, rfl, ?_, ?_, ?_⟩
    · exact iff_of_false (fun is => by cases is) (Reports.refutes tells)
    · rintro path ⟨⟩
      exact tells
    · rintro moduleId dependency ⟨⟩
      exact tells
  · rw [check] at tells
    obtain ⟨nodes, finished, complete, covers⟩ := tells
    have inside {moduleId : Text} (member : moduleId ∈ found.ids) : moduleId ∈ nodes :=
      covers moduleId (Or.inr ((sorted moduleId).mpr member))
    refine ⟨.ok (), rfl, iff_of_true rfl ⟨?_, ?_⟩, ?_, ?_⟩
    · intro moduleId dependency depends
      exact complete moduleId (inside (mem_ids_of_dependsOn depends)) dependency depends
    · intro moduleId cycle
      obtain ⟨next, step, _⟩ := Relation.TransGen.head'_iff.mp cycle
      exact finished.acyclic (inside (mem_ids_of_dependsOn step)) cycle
    · rintro path ⟨⟩
    · rintro moduleId dependency ⟨⟩

/-- Two modules that depend on each other. -/
def twoModules : ModuleMap where
  entries := [(text "codex", [text "xonsh"]), (text "xonsh", [text "codex"])]
  distinct := by decide

theorem checkDependencyGraph_exact_two :
    ∃ outcome, twoModules.checkDependencyGraph 3 = some outcome ∧
      outcome = .error (.cycle [text "codex", text "xonsh", text "codex"]) ∧
      ¬(twoModules.Complete ∧ twoModules.Acyclic) := by
  obtain ⟨outcome, checked, returns, _, _⟩ := checkDependencyGraph_exact twoModules
    (show twoModules.ids.length < 3 by decide)
  have cycle : twoModules.checkDependencyGraph 3 =
      some (.error (.cycle [text "codex", text "xonsh", text "codex"])) := by decide +kernel
  rw [cycle] at checked
  cases checked
  exact ⟨_, cycle, rfl, fun good => by cases returns.mpr good⟩

end ModuleMap

end CarbonLab.Aegis
