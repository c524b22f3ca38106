import CarbonLab.Aegis.PolicyGates
import CarbonLab.Aegis.DirtyProtection

/-!
# Compilation of stronger inputs

More classes, changed paths and packs give a stronger policy, but for one case: an input
without any class is compiled as a feature, and a class that is added to it takes the place of
this default.
-/

namespace CarbonLab.Aegis

namespace Policy

variable {classes more selected others : List Text} {gates items : List PolicyGate}

/-! ## Modes -/

/-- More classes ask for a mode that is at least as strict. -/
theorem rank_tddMode_le (subset : classes ⊆ more) :
    (tddMode classes).rank ≤ (tddMode more).rank := by
  unfold tddMode
  dsimp only
  have kept : (classes.filter fun name => name ∉ [text "DOCUMENTATION", text "TEST_ONLY"]) ⊆
      more.filter fun name => name ∉ [text "DOCUMENTATION", text "TEST_ONLY"] :=
    List.filter_subset _ subset
  generalize classes.filter (fun name => name ∉ [text "DOCUMENTATION", text "TEST_ONLY"]) =
    few at kept
  generalize more.filter (fun name => name ∉ [text "DOCUMENTATION", text "TEST_ONLY"]) =
    many at kept
  by_cases missing : few = []
  · rw [if_pos missing]
    exact Nat.zero_le _
  · have filled : many ≠ [] := by
      intro empty
      rw [empty, List.subset_nil] at kept
      exact missing kept
    rw [if_neg missing, if_neg filled]
    by_cases refactors : ∀ name ∈ many, name = text "REFACTOR"
    · rw [if_pos refactors, if_pos fun name member => refactors name (kept member)]
    · rw [if_neg refactors]
      split <;> decide

/-! ## Gates -/

/-- Every gate of a compiled policy is hard. -/
def AllHard (gates : List PolicyGate) : Prop :=
  ∀ gate ∈ gates, gate.severity = .hard ∧ gate.waivable = false

theorem allHard_addGate (hard : AllHard gates) (new : AllHard items) :
    AllHard (items.foldl addGate gates) := by
  induction items generalizing gates with
  | nil => exact hard
  | cons gate items ih =>
      refine ih ?_ fun other member => new other (List.mem_cons_of_mem _ member)
      unfold addGate
      split
      · exact hard
      · intro other member
        rcases List.mem_append.mp member with old | last
        · exact hard other old
        · rw [List.mem_singleton.mp last]
          exact new gate List.mem_cons_self

theorem allHard_classGates (name : Text) : AllHard ((classGates.lookup name).getD []) := by
  have all : ∀ entry ∈ classGates, AllHard entry.2 := by
    unfold AllHard
    decide
  cases found : classGates.lookup name with
  | none => exact fun gate member => absurd member List.not_mem_nil
  | some gates =>
      obtain ⟨before, after, split, _⟩ := List.lookup_eq_some_iff.mp found
      have member : (name, gates) ∈ classGates := by
        rw [split]
        exact List.mem_append_right _ List.mem_cons_self
      exact all _ member

theorem allHard_packGates (pack : Text) : AllHard (packGates pack) := by
  intro gate member
  obtain ⟨id, _, rfl⟩ := List.mem_map.mp member
  exact ⟨rfl, rfl⟩

theorem mem_gatesOf {gate : PolicyGate} : gate ∈ gatesOf classes selected ↔
    gate ∈ (selected.flatMap packGates).foldl addGate
      ((classes.flatMap fun name => (classGates.lookup name).getD []).foldl addGate
        (setGate coreGates (modeGate (tddMode classes)))) :=
  (List.perm_insertionSort _ _).mem_iff

theorem allHard_gatesOf : AllHard (gatesOf classes selected) := by
  intro gate member
  refine allHard_addGate ?_ ?_ gate (mem_gatesOf.mp member)
  · refine allHard_addGate ?_ ?_
    · intro other inside
      rcases List.mem_append.mp inside with core | mode
      · have all : AllHard coreGates := by
          unfold AllHard
          decide
        exact all other (List.mem_of_mem_filter core)
      · rw [List.mem_singleton.mp mode]
        exact ⟨rfl, rfl⟩
    · intro other inside
      obtain ⟨name, _, inside⟩ := List.mem_flatMap.mp inside
      exact allHard_classGates name other inside
  · intro other inside
    obtain ⟨pack, _, inside⟩ := List.mem_flatMap.mp inside
    exact allHard_packGates pack other inside

/-- A list has a gate with this identifier. -/
def Has (gates : List PolicyGate) (id : Text) : Prop := ∃ gate ∈ gates, gate.id = id

theorem has_append {id : Text} : Has (gates ++ items) id ↔ Has gates id ∨ Has items id := by
  unfold Has
  simp only [List.mem_append, or_and_right, exists_or]

theorem has_foldl_addGate {id : Text} :
    Has (items.foldl addGate gates) id ↔ Has gates id ∨ Has items id := by
  induction items generalizing gates with
  | nil => simp [Has]
  | cons gate items ih =>
      have step : Has (addGate gates gate) id ↔ Has gates id ∨ gate.id = id := by
        unfold addGate
        split
        · next there =>
            refine (or_iff_left_of_imp ?_).symm
            rintro rfl
            exact there
        · rw [has_append]
          simp [Has]
      rw [List.foldl_cons, ih, step, or_assoc]
      simp [Has]

theorem has_setGate {gate : PolicyGate} {id : Text} :
    Has (setGate gates gate) id ↔ Has gates id ∨ gate.id = id := by
  unfold setGate
  rw [has_append]
  by_cases same : gate.id = id
  · simp [Has, same]
  · have kept : Has (gates.filter fun other => other.id ≠ gate.id) id ↔ Has gates id := by
      unfold Has
      refine exists_congr fun other => ?_
      rw [List.mem_filter, decide_eq_true_eq]
      constructor
      · rintro ⟨⟨inside, _⟩, named⟩
        exact ⟨inside, named⟩
      · rintro ⟨inside, rfl⟩
        exact ⟨⟨inside, Ne.symm same⟩, rfl⟩
    rw [kept]
    simp [Has]

/-- The identifiers of the gates of a task. -/
theorem has_gatesOf {id : Text} : Has (gatesOf classes selected) id ↔
    Has coreGates id ∨ (tddMode classes).gateId = id ∨
      (∃ name ∈ classes, Has ((classGates.lookup name).getD []) id) ∨
      ∃ pack ∈ selected, Has (packGates pack) id := by
  have sorted : Has (gatesOf classes selected) id ↔
      Has ((selected.flatMap packGates).foldl addGate
        ((classes.flatMap fun name => (classGates.lookup name).getD []).foldl addGate
          (setGate coreGates (modeGate (tddMode classes))))) id := by
    unfold Has
    simp only [mem_gatesOf]
  have flat {names : List Text} {read : Text → List PolicyGate} :
      Has (names.flatMap read) id ↔ ∃ name ∈ names, Has (read name) id := by
    unfold Has
    simp only [List.mem_flatMap]
    constructor
    · rintro ⟨gate, ⟨name, member, inside⟩, named⟩
      exact ⟨name, member, gate, inside, named⟩
    · rintro ⟨name, member, gate, inside, named⟩
      exact ⟨gate, ⟨name, member, inside⟩, named⟩
  rw [sorted, has_foldl_addGate, has_foldl_addGate, has_setGate, flat, flat]
  simp only [or_assoc]
  rfl

end Policy

/-- What a policy keeps of another one that was compiled from less. -/
structure CompiledPolicy.Strengthens (first second : CompiledPolicy) : Prop where
  gates : ∀ gate ∈ first.gates, gate.id ≠ first.tddMode.gateId →
    ∃ kept ∈ second.gates, kept.id = gate.id ∧ gate.severity.rank ≤ kept.severity.rank
  core : ∀ policy ∈ [first, second], ∀ core ∈ Policy.coreGates,
    ∃ gate ∈ policy.gates, gate.id = core.id ∧ gate.severity = .hard ∧ gate.waivable = false
  classes : first.classes ⊆ second.classes
  mode : first.tddMode.rank ≤ second.tddMode.rank

/-- The arguments of one compilation are among those of another. -/
structure PolicyInput.Within (first second : PolicyInput) : Prop where
  declared : first.declaredClasses ⊆ second.declaredClasses
  prior : first.priorClasses ⊆ second.priorClasses
  paths : first.changedPaths ⊆ second.changedPaths

namespace Policy

variable {classes more selected others : List Text}

/-- More classes and packs keep every gate but that of the mode. -/
theorem has_gatesOf_mono {id : Text} (subset : classes ⊆ more) (packed : selected ⊆ others)
    (ordinary : id ≠ (tddMode classes).gateId) (present : Has (gatesOf classes selected) id) :
    Has (gatesOf more others) id := by
  rw [has_gatesOf] at present ⊢
  rcases present with core | mode | ⟨name, member, inside⟩ | ⟨pack, member, inside⟩
  · exact Or.inl core
  · exact absurd mode.symm ordinary
  · exact Or.inr (Or.inr (Or.inl ⟨name, subset member, inside⟩))
  · exact Or.inr (Or.inr (Or.inr ⟨pack, packed member, inside⟩))

/-- Every core gate is among the gates of a task. -/
theorem core_of_gatesOf {core : PolicyGate} (member : core ∈ coreGates) :
    ∃ gate ∈ gatesOf classes selected,
      gate.id = core.id ∧ gate.severity = .hard ∧ gate.waivable = false := by
  have present : Has (gatesOf classes selected) core.id :=
    has_gatesOf.mpr (Or.inl ⟨core, member, rfl⟩)
  obtain ⟨gate, inside, named⟩ := present
  obtain ⟨hard, fixed⟩ := allHard_gatesOf gate inside
  exact ⟨gate, inside, named, hard, fixed⟩

end Policy

namespace Host

variable {host : Host} {upper : Text → Text} {contract larger : Json}
  {first second : PolicyInput} {policy stronger : CompiledPolicy}

/-! ## Classes -/

/-- The classes of a task grow with its declared and prior classes, paths and packs. -/
theorem rawClasses_mono (within : first.Within second)
    (packs : packsOf contract ⊆ packsOf larger) :
    host.rawClasses upper contract first ⊆ host.rawClasses upper larger second := by
  intro name member
  simp only [rawClasses, classifyPaths, List.mem_append, List.mem_map, List.mem_flatMap,
    mem_sortedSet] at member ⊢
  rcases member with (⟨given, source, spelled⟩ | ⟨path, changed, classed⟩) | ⟨pack, selected, classed⟩
  · refine Or.inl (Or.inl ⟨given, ?_, spelled⟩)
    rcases source with declared | prior
    · exact Or.inl (within.declared declared)
    · exact Or.inr (within.prior prior)
  · exact Or.inl (Or.inr ⟨path, within.paths changed, classed⟩)
  · exact Or.inr ⟨pack, packs selected, classed⟩

/-- What a compilation that succeeds returns. -/
theorem compilePolicy_parts (compiled : host.compilePolicy upper contract first = .ok policy) :
    policy.classes = sortedSet (if host.rawClasses upper contract first = [] then
        [text "FEATURE"] else host.rawClasses upper contract first) ∧
      policy.tddMode = Policy.tddMode policy.classes ∧
      policy.gates = Policy.gatesOf policy.classes (sortedSet (packsOf contract)) := by
  unfold compilePolicy at compiled
  obtain ⟨_, _, compiled⟩ := bind_eq_ok.mp compiled
  obtain ⟨_, _, compiled⟩ := bind_eq_ok.mp compiled
  obtain ⟨references, _, compiled⟩ := bind_eq_ok.mp compiled
  cases Except.ok.inj compiled
  exact ⟨rfl, rfl, rfl⟩

/-- The default class is the one class that more inputs can take away. -/
theorem classes_mono_iff (within : first.Within second)
    (packs : packsOf contract ⊆ packsOf larger)
    (compiled : host.compilePolicy upper contract first = .ok policy)
    (recompiled : host.compilePolicy upper larger second = .ok stronger) :
    policy.classes ⊆ stronger.classes ↔
      host.rawClasses upper contract first ≠ [] ∨ host.rawClasses upper larger second = [] ∨
        text "FEATURE" ∈ host.rawClasses upper larger second := by
  obtain ⟨named, _, _⟩ := compilePolicy_parts compiled
  obtain ⟨renamed, _, _⟩ := compilePolicy_parts recompiled
  have grows := @rawClasses_mono host upper contract larger first second within packs
  rw [named, renamed]
  by_cases unclassified : host.rawClasses upper contract first = []
  · rw [if_pos unclassified]
    by_cases bare : host.rawClasses upper larger second = []
    · rw [if_pos bare]
      exact iff_of_true (List.Subset.refl _) (Or.inr (Or.inl bare))
    · rw [if_neg bare]
      constructor
      · intro kept
        have feature : text "FEATURE" ∈ sortedSet [text "FEATURE"] :=
          mem_sortedSet.mpr List.mem_cons_self
        exact Or.inr (Or.inr (mem_sortedSet.mp (kept feature)))
      · intro condition name member
        rw [mem_sortedSet, List.mem_singleton] at member
        rw [member, mem_sortedSet]
        exact (condition.resolve_left fun filled => filled unclassified).resolve_left bare
  · have filled : host.rawClasses upper larger second ≠ [] := by
      intro bare
      rw [bare, List.subset_nil] at grows
      exact unclassified grows
    rw [if_neg unclassified, if_neg filled]
    refine iff_of_true ?_ (Or.inl unclassified)
    intro name member
    rw [mem_sortedSet] at member ⊢
    exact grows member

/-! ## Policies -/

/-- A policy that is compiled from more strengthens the first one exactly when its inputs do
not replace the default class of an input without any. -/
theorem compilePolicy_mono_iff (within : first.Within second)
    (packs : packsOf contract ⊆ packsOf larger)
    (compiled : host.compilePolicy upper contract first = .ok policy)
    (recompiled : host.compilePolicy upper larger second = .ok stronger) :
    policy.Strengthens stronger ↔
      host.rawClasses upper contract first ≠ [] ∨ host.rawClasses upper larger second = [] ∨
        text "FEATURE" ∈ host.rawClasses upper larger second := by
  have decided := classes_mono_iff within packs compiled recompiled
  constructor
  · exact fun strengthened => decided.mp strengthened.classes
  · intro condition
    have subset := decided.mpr condition
    obtain ⟨_, mode, gates⟩ := compilePolicy_parts compiled
    obtain ⟨_, strongerMode, strongerGates⟩ := compilePolicy_parts recompiled
    have selected : sortedSet (packsOf contract) ⊆ sortedSet (packsOf larger) := by
      intro pack member
      rw [mem_sortedSet] at member ⊢
      exact packs member
    refine ⟨?_, ?_, subset, ?_⟩
    · intro gate member ordinary
      rw [gates] at member
      rw [mode] at ordinary
      obtain ⟨kept, inside, same⟩ := Policy.has_gatesOf_mono subset selected ordinary
        ⟨gate, member, rfl⟩
      refine ⟨kept, strongerGates ▸ inside, same, ?_⟩
      rw [(Policy.allHard_gatesOf gate member).1, (Policy.allHard_gatesOf kept inside).1]
    · intro each member core inside
      rcases List.mem_pair.mp member with rfl | rfl
      · rw [gates]
        exact Policy.core_of_gatesOf inside
      · rw [strongerGates]
        exact Policy.core_of_gatesOf inside
    · rw [mode, strongerMode]
      exact Policy.rank_tddMode_le subset

/-- A compilation for a small project. -/
def openInput (declaredClasses changedPaths : List Text) : PolicyInput where
  declaredClasses
  priorClasses := []
  changedPaths
  risk := text "medium"

/-- The small project takes every known class. -/
theorem compiles_openContract {declaredClasses changedPaths : List Text}
    (known : ∀ name ∈ declaredClasses, name ∈ Contract.taskClasses)
    (plain : text "REIMPLEMENTATION" ∉ scopeHost.rawClasses id (openContract [])
      (openInput declaredClasses changedPaths)) :
    ∃ policy, scopeHost.compilePolicy id (openContract [])
      (openInput declaredClasses changedPaths) = .ok policy := by
  have valid : scopeHost.validateProjectContract (openContract []) = .ok () :=
    validate_openContract scopeHost_foldsAscii (by simp)
  have classes : ∀ name ∈ ((openInput declaredClasses changedPaths).declaredClasses ++
      (openInput declaredClasses changedPaths).priorClasses).map id, name ∈ Contract.taskClasses := by
    simpa [openInput] using known
  have optional (raw : List Text) (absent : text "REIMPLEMENTATION" ∉ raw) :
      scopeHost.validateReferences ((openContract []).get "references")
        (text "REIMPLEMENTATION" ∈ sortedSet (if raw = [] then [text "FEATURE"] else raw)) =
        .ok [] := by
    have missing : text "REIMPLEMENTATION" ∉
        sortedSet (if raw = [] then [text "FEATURE"] else raw) := by
      rw [mem_sortedSet]
      split
      · simp
      · exact absent
    rw [decide_eq_false missing]
    rfl
  unfold compilePolicy
  simp only [bind_eq_ok, demand_eq_ok, exists_const]
  exact ⟨_, (), valid, classes, [], optional _ plain, rfl⟩

/-- A documentation file that is added to a feature. -/
theorem compilePolicy_mono_readme : ∃ policy stronger,
    scopeHost.compilePolicy id (openContract []) (openInput [text "FEATURE"] []) = .ok policy ∧
      scopeHost.compilePolicy id (openContract [])
        (openInput [text "FEATURE"] [text "README.md"]) = .ok stronger ∧
      (policy.Strengthens stronger ↔
        scopeHost.rawClasses id (openContract []) (openInput [text "FEATURE"] []) ≠ [] ∨
          scopeHost.rawClasses id (openContract [])
            (openInput [text "FEATURE"] [text "README.md"]) = [] ∨
          text "FEATURE" ∈ scopeHost.rawClasses id (openContract [])
            (openInput [text "FEATURE"] [text "README.md"])) := by
  obtain ⟨policy, compiled⟩ := @compiles_openContract [text "FEATURE"] [] (by decide) (by decide)
  obtain ⟨stronger, recompiled⟩ :=
    @compiles_openContract [text "FEATURE"] [text "README.md"] (by decide) (by decide)
  exact ⟨policy, stronger, compiled, recompiled, compilePolicy_mono_iff
    ⟨List.Subset.refl _, List.Subset.refl _, List.nil_subset _⟩ (List.Subset.refl _)
    compiled recompiled⟩

/-- A documentation file that is added to an unclassified task takes away its default class. -/
theorem readme_weakens : ∃ policy weaker,
    scopeHost.compilePolicy id (openContract []) (openInput [] []) = .ok policy ∧
      scopeHost.compilePolicy id (openContract []) (openInput [] [text "README.md"]) =
        .ok weaker ∧
      policy.classes = [text "FEATURE"] ∧ weaker.classes = [text "DOCUMENTATION"] ∧
      weaker.tddMode.rank < policy.tddMode.rank ∧ ¬policy.Strengthens weaker := by
  obtain ⟨policy, compiled⟩ := @compiles_openContract [] [] (by decide) (by decide)
  obtain ⟨weaker, recompiled⟩ :=
    @compiles_openContract [] [text "README.md"] (by decide) (by decide)
  obtain ⟨named, mode, _⟩ := compilePolicy_parts compiled
  obtain ⟨renamed, otherMode, _⟩ := compilePolicy_parts recompiled
  have feature : policy.classes = [text "FEATURE"] := named.trans (by decide)
  have document : weaker.classes = [text "DOCUMENTATION"] := renamed.trans (by decide)
  refine ⟨policy, weaker, compiled, recompiled, feature, document, ?_, ?_⟩
  · rw [mode, otherMode, feature, document]
    decide
  · intro strengthened
    have kept := strengthened.classes
    rw [feature, document] at kept
    exact absurd (kept List.mem_cons_self) (by decide)

end Host

end CarbonLab.Aegis
