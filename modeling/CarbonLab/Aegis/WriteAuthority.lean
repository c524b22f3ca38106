import CarbonLab.Aegis.DirtyProtection

/-!
# What a write scope authorizes

`write_authorized` of a compiled scope: it refuses every path that is governed, leaves the
project or lies under a protected entry, never allows one path in both phases, and refuses
no less when more entries are protected.  A path that names nothing makes it raise, and
what lies below a denied entry may be left open.
-/

namespace CarbonLab.Aegis

/-- A spelling, trimmed, with forward slashes and without `./` in front. -/
def trimmedPath (path : Text) : Text := dropDots (forwardSlashes (strip path))

/-- The spelling is empty or absolute, or it has a part. -/
def HasParts (path : Text) : Prop :=
  strip path = [] ∨ (trimmedPath path).head? = some (code '/') ∨ pathParts (trimmedPath path) ≠ []

/-- A path is an entry, or below it. -/
def LiesUnder (target entry : Text) : Prop := target = entry ∨ entry ++ [code '/'] <+: target

namespace Host

variable (host : Host)

/-- What a spelling is compared with. -/
def targetOf (path : Text) : Text := host.casefold (joinParts (pathParts (trimmedPath path)))

/-- A path is protected by an entry: it lies under it, or it matches it when the entry is a
pattern. -/
def ProtectedBy (target entry : Text) : Prop :=
  ∃ known, host.normalizePath true entry = .ok known ∧
    if hasMarker (stripSlashes known) then covered target (stripSlashes known) = true
    else LiesUnder target (stripSlashes known)

/-- The paths that no scope may authorize. -/
inductive Forbidden (paths : ScopePaths) (path : Text) : Prop
  | absolute (rooted : (trimmedPath path).head? = some (code '/'))
  | parent (climbs : text ".." ∈ pathParts (trimmedPath path))
  | agents (first : ((host.targetOf path).splitOn (code '/')).head? = some (text ".agents"))
  | instructions
      (last : ((host.targetOf path).splitOn (code '/')).getLast? = some (text "agents.md"))
  | denied (entry : Text) (listed : entry ∈ paths.deny)
      (inside : host.ProtectedBy (host.targetOf path) entry)
  | reference (entry : Text) (listed : entry ∈ paths.referencePaths)
      (inside : host.ProtectedBy (host.targetOf path) entry)
  | userDirty (entry : Text) (listed : entry ∈ paths.userDirty)
      (inside : host.ProtectedBy (host.targetOf path) entry)
  | nested (entry : Text) (listed : entry ∈ paths.nestedRepositories)
      (inside : host.ProtectedBy (host.targetOf path) entry)

/-- A target matches one of the protected lists of a scope. -/
def Shut (scope : WriteScope) (target : Text) : Prop :=
  matchesAny target scope.deny = true ∨ matchesAny target scope.referencePaths = true ∨
    matchesAny target scope.userDirty = true ∨ matchesAny target scope.nestedRepositories = true

/-- A target belongs to the governance. -/
def Governed (target : Text) : Prop :=
  (target.splitOn (code '/')).head? = some (text ".agents") ∨
    (target.splitOn (code '/')).getLast? = some (text "agents.md")

/-- A scope allows a target to one of the phases. -/
structure Allowed (scope : WriteScope) (target : Text) : Prop where
  allow : matchesAny target scope.allow = true
  phase : (matchesAny target scope.testPaths = true ∧
      matchesAny target scope.productionPaths = false) ∨
    (scope.baselineAuthorized = true ∧ matchesAny target scope.productionPaths = true ∧
      matchesAny target scope.testPaths = false)

/-- What lies below a denied entry that is no pattern is closed by something else: it is
governed, a protecting pattern covers it, or the scope allows it to no phase. -/
def ClosedBelow (paths : ScopePaths) (scope : WriteScope) (path : Text) : Prop :=
  ∀ target entry known, host.normalizePath false path = .ok target → entry ∈ paths.deny →
    host.normalizePath true entry = .ok known → hasMarker (stripSlashes known) = false →
    stripSlashes known ++ [code '/'] <+: target →
      Governed target ∨ Shut scope target ∨ ¬ Allowed scope target

/-- The same paths, with further protected entries. -/
structure Widens (paths wider : ScopePaths) : Prop where
  allow : wider.allow = paths.allow
  testPaths : wider.testPaths = paths.testPaths
  productionPaths : wider.productionPaths = paths.productionPaths
  deny : paths.deny ⊆ wider.deny
  referencePaths : paths.referencePaths ⊆ wider.referencePaths
  userDirty : paths.userDirty ⊆ wider.userDirty
  nestedRepositories : paths.nestedRepositories ⊆ wider.nestedRepositories

/-- Write authorization of a path in a scope fails closed. -/
structure FailsClosed (paths : ScopePaths) (baseline : Bool) (governance : Text)
    (scope : WriteScope) (path : Text) : Prop where
  returns : ∀ phase current, ∃ allowed, host.writeAuthorized scope path phase current = .ok allowed
  refuses : host.Forbidden paths path →
    ∀ phase current, host.writeAuthorized scope path phase current = .ok false
  exclusive : ∀ current current',
    ¬ (host.writeAuthorized scope path (text "TEST_DESIGN") current = .ok true ∧
      host.writeAuthorized scope path (text "IMPLEMENTATION") current' = .ok true)
  monotone : ∀ wider stricter, Widens paths wider →
    host.compileWriteScope wider baseline governance = .ok stricter → ∀ phase current,
      host.writeAuthorized scope path phase current = .ok false →
        host.writeAuthorized stricter path phase current ≠ .ok true

variable {host} {paths wider : ScopePaths} {baseline : Bool} {governance : Text}
  {scope stricter : WriteScope} {path target : Text}

/-! ## Spellings -/

/-- What `_normalize` makes of a target. -/
theorem normalizePath_cases (path : Text) :
    (HasParts path ∧ ∃ message, host.normalizePath false path = .error (.scopeError message)) ∨
      (¬ HasParts path ∧ host.normalizePath false path = .error .indexError) ∨
      (HasParts path ∧ host.normalizePath false path = .ok (host.targetOf path) ∧
        (trimmedPath path).head? ≠ some (code '/') ∧ text ".." ∉ pathParts (trimmedPath path)) := by
  unfold normalizePath posixPath demand HasParts
  dsimp only
  by_cases filled : strip path ≠ []
  · rw [if_pos filled, ok_bind]
    by_cases relative : (trimmedPath path).head? ≠ some (code '/')
    · rw [trimmedPath] at relative
      rw [if_pos relative, ok_bind]
      cases parts : pathParts (dropDots (forwardSlashes (strip path))) with
      | nil =>
          refine Or.inr (Or.inl ⟨?_, rfl⟩)
          simp only [not_or, not_not]
          exact ⟨filled, relative, parts⟩
      | cons first rest =>
          have there : pathParts (trimmedPath path) ≠ [] := by
            rw [trimmedPath, parts]
            exact List.cons_ne_nil _ _
          simp only
          by_cases safe : code ':' ∉ first ∧ text ".." ∉ first :: rest
          · rw [if_pos safe, ok_bind]
            by_cases plain : false = true ∨
                hasMarker (dropDots (forwardSlashes (strip path))) = false
            · rw [if_pos plain, ok_bind]
              refine Or.inr (Or.inr ⟨Or.inr (Or.inr there), ?_, relative, ?_⟩)
              · rw [targetOf, trimmedPath, parts]
                rfl
              · rw [trimmedPath, parts]
                exact safe.2
            · rw [if_neg plain]
              exact Or.inl ⟨Or.inr (Or.inr there), _, rfl⟩
          · rw [if_neg safe]
            exact Or.inl ⟨Or.inr (Or.inr there), _, rfl⟩
    · rw [trimmedPath] at relative
      rw [if_neg relative]
      exact Or.inl ⟨Or.inr (Or.inl (not_not.mp relative)), _, rfl⟩
  · rw [if_neg filled]
    exact Or.inl ⟨Or.inl (not_not.mp filled), _, rfl⟩

/-! ## Patterns -/

theorem stripSlashes_idem (string : Text) : stripSlashes (stripSlashes string) = stripSlashes string := by
  apply stripSlashes_of_getLast?
  unfold stripSlashes
  rw [List.getLast?_reverse]
  have front := List.head?_dropWhile_not (fun letter => decide (letter = code '/')) string.reverse
  intro slash
  rw [slash] at front
  simp at front

/-- The second pattern of a protected path covers it and everything below it. -/
theorem covered_below {entry : Text} (stripped : stripSlashes entry = entry) :
    covered target (entry ++ text "/**") = true ↔ LiesUnder target entry := by
  have whole : stripSlashes (entry ++ text "/**") = entry ++ text "/**" := by
    apply stripSlashes_of_getLast?
    rw [List.getLast?_append_of_ne_nil]
    · simp [text, code]
    · simp [text]
  have suffix : (text "/**").isSuffixOf (entry ++ text "/**") = true :=
    List.isSuffixOf_iff_suffix.mpr (List.suffix_append _ _)
  have front : (entry ++ text "/**").take ((entry ++ text "/**").length - 3) = entry := by
    simp [text]
  unfold covered
  simp only [whole, suffix, if_true, front, stripped, startsWith, Bool.or_eq_true, decide_eq_true_eq,
    List.isPrefixOf_iff_prefix]
  rfl

/-- What a protected entry protects matches its patterns. -/
theorem matchesAny_of_protected {listed patterns : List Text} {entry : Text}
    (read : host.boundaryPatterns listed = .ok patterns) (member : entry ∈ listed)
    (inside : host.ProtectedBy target entry) : matchesAny target patterns = true := by
  obtain ⟨known, knownRead, inside⟩ := inside
  obtain ⟨path, pathRead, subset⟩ := boundaryOf_subset read member
  cases knownRead.symm.trans pathRead
  refine matchesAny_of_subset subset ?_
  unfold matchesAny boundaryOf
  rw [List.any_eq_true]
  split at inside
  · next marked =>
      rw [if_pos marked]
      exact ⟨_, List.mem_singleton_self _, inside⟩
  · next plain =>
      rw [if_neg plain]
      exact ⟨_, List.mem_cons_of_mem _ List.mem_cons_self,
        (covered_below (stripSlashes_idem known)).mpr inside⟩

theorem mem_boundaryPatterns {listed patterns : List Text}
    (read : host.boundaryPatterns listed = .ok patterns) {pattern : Text} :
    pattern ∈ patterns ↔ ∃ entry ∈ listed, ∃ known, host.normalizePath true entry = .ok known ∧
      pattern ∈ boundaryOf known := by
  unfold boundaryPatterns at read
  cases all : listed.mapM (host.normalizePath true) with
  | error fault =>
      rw [all] at read
      cases read
  | ok paths =>
      rw [all] at read
      cases read
      rw [mem_sortedSet, List.mem_flatMap]
      simp only [mem_mapM_iff all]
      constructor
      · rintro ⟨known, ⟨entry, member, knownRead⟩, inside⟩
        exact ⟨entry, member, known, knownRead, inside⟩
      · rintro ⟨entry, member, known, knownRead, inside⟩
        exact ⟨known, ⟨entry, member, knownRead⟩, inside⟩

/-- The patterns of more entries are more patterns. -/
theorem boundaryPatterns_subset {listed more patterns others : List Text}
    (read : host.boundaryPatterns listed = .ok patterns)
    (moreRead : host.boundaryPatterns more = .ok others) (subset : listed ⊆ more) :
    ∀ pattern ∈ patterns, pattern ∈ others := by
  intro pattern member
  obtain ⟨entry, inside, rest⟩ := (mem_boundaryPatterns read).mp member
  exact (mem_boundaryPatterns moreRead).mpr ⟨entry, subset inside, rest⟩

/-! ## Targets -/

/-- A denied entry that is no pattern matches itself. -/
theorem covered_self (plain : hasMarker (stripSlashes target) = false) :
    covered (stripSlashes target) target = true := by
  have single : ¬(text "/**").isSuffixOf (stripSlashes target) = true := by
    intro suffix
    obtain ⟨front, is⟩ := List.isSuffixOf_iff_suffix.mp suffix
    rw [← is] at plain
    simp [hasMarker, text, code] at plain
  rw [covered, if_neg single, fnmatchcase_self plain]

theorem covered_stripSlashes (pattern : Text) :
    covered target (stripSlashes pattern) = covered target pattern := by
  simp only [covered, stripSlashes_idem]

/-- What `write_authorized` asks of a target. -/
theorem targetAuthorized_iff {phase : Text} : targetAuthorized scope phase target = true ↔
    ¬ Governed target ∧ ¬ Shut scope target ∧ matchesAny target scope.allow = true ∧
      if phase = text "TEST_DESIGN" then
        matchesAny target scope.testPaths = true ∧ matchesAny target scope.productionPaths = false
      else scope.baselineAuthorized = true ∧ matchesAny target scope.productionPaths = true ∧
        matchesAny target scope.testPaths = false := by
  unfold targetAuthorized Shut Governed
  dsimp only
  by_cases governed : (target.splitOn (code '/')).head? = some (text ".agents") ∨
      (target.splitOn (code '/')).getLast? = some (text "agents.md")
  · simp only [governed, if_true, not_true, false_and, Bool.false_eq_true]
  · rw [if_neg governed]
    by_cases shut : matchesAny target scope.deny = true ∨
        matchesAny target scope.referencePaths = true ∨
        matchesAny target scope.userDirty = true ∨ matchesAny target scope.nestedRepositories = true
    · simp only [shut, if_true, not_true, false_and, and_false, Bool.false_eq_true]
    · rw [if_neg shut]
      split
      · next closed => simp [closed]
      · next open_ =>
          rw [Bool.not_eq_false] at open_
          split
          · simp [governed, shut, open_]
          · simp [governed, shut, open_, and_assoc]

/-- A target is authorized in one of the phases when it is allowed and neither governed nor
protected. -/
theorem targetAuthorized_phase_iff : (∃ phase ∈ phases, targetAuthorized scope phase target = true) ↔
    ¬ Governed target ∧ ¬ Shut scope target ∧ Allowed scope target := by
  have other : text "IMPLEMENTATION" ≠ text "TEST_DESIGN" := by simp
  simp only [phases, List.mem_cons, List.not_mem_nil, or_false, exists_eq_or_imp, exists_eq_left,
    targetAuthorized_iff, if_true, if_neg other]
  constructor
  · rintro (⟨free, open_, allow, phase⟩ | ⟨free, open_, allow, phase⟩)
    · exact ⟨free, open_, allow, .inl phase⟩
    · exact ⟨free, open_, allow, .inr phase⟩
  · rintro ⟨free, open_, allow, phase⟩
    exact phase.imp (fun phase => ⟨free, open_, allow, phase⟩)
      fun phase => ⟨free, open_, allow, phase⟩

/-- A target that is governed or protected is refused, below a denied entry that is no
pattern if something else closes it. -/
theorem targetAuthorized_of_forbidden {phase : Text}
    (compiled : host.compileWriteScope paths baseline governance = .ok scope)
    (member : phase ∈ phases) (read : host.normalizePath false path = .ok (host.targetOf path))
    (relative : (trimmedPath path).head? ≠ some (code '/'))
    (level : text ".." ∉ pathParts (trimmedPath path))
    (below : host.ClosedBelow paths scope path) (forbidden : host.Forbidden paths path) :
    targetAuthorized scope phase (host.targetOf path) = false := by
  have asked := compiled
  obtain ⟨_, allow, _, deny, denyRead, tests, _, production, _, generated, _, reference,
    referenceRead, dirty, dirtyRead, nested, nestedRead, rfl⟩ := compileWriteScope_eq_ok.mp compiled
  rw [← Bool.not_eq_true]
  intro authorized
  obtain ⟨free, open_, allowed⟩ := targetAuthorized_phase_iff.mp ⟨phase, member, authorized⟩
  have denies (entry known : Text) (listed : entry ∈ paths.deny)
      (knownRead : host.normalizePath true entry = .ok known)
      (matched : covered (host.targetOf path) known = true) : False := by
    refine open_ (Or.inl ?_)
    unfold matchesAny
    rw [List.any_eq_true]
    refine ⟨known, ?_, matched⟩
    rw [mem_sortedSet, List.mem_append]
    exact Or.inl ((mem_patterns denyRead).mpr ⟨entry, listed, knownRead⟩)
  cases forbidden with
  | absolute rooted => exact relative rooted
  | parent climbs => exact level climbs
  | agents first => exact free (Or.inl first)
  | instructions last => exact free (Or.inr last)
  | denied entry listed inside =>
      obtain ⟨known, knownRead, inside⟩ := inside
      split at inside
      · rw [covered_stripSlashes] at inside
        exact denies entry known listed knownRead inside
      next unmarked =>
      rw [Bool.not_eq_true] at unmarked
      rcases inside with same | under
      · refine denies entry known listed knownRead ?_
        rw [same]
        exact covered_self unmarked
      · rcases below _ entry known read listed knownRead unmarked under with governed | shut | refused
        · exact free governed
        · exact open_ shut
        · exact refused allowed
  | reference entry listed inside =>
      exact open_ (Or.inr (Or.inl (matchesAny_of_protected referenceRead listed inside)))
  | userDirty entry listed inside =>
      exact open_ (Or.inr (Or.inr (Or.inl (matchesAny_of_protected dirtyRead listed inside))))
  | nested entry listed inside =>
      exact open_ (Or.inr (Or.inr (Or.inr (matchesAny_of_protected nestedRead listed inside))))

/-- A scope that protects more authorizes less. -/
theorem targetAuthorized_of_widens {phase : Text} (widens : Widens paths wider)
    (compiled : host.compileWriteScope paths baseline governance = .ok scope)
    (stricterCompiled : host.compileWriteScope wider baseline governance = .ok stricter)
    (allowed : targetAuthorized stricter phase target = true) :
    targetAuthorized scope phase target = true := by
  obtain ⟨_, allow, allowRead, deny, denyRead, tests, testsRead, production, productionRead,
    generated, _, reference, referenceRead, dirty, dirtyRead, nested, nestedRead, rfl⟩ :=
      compileWriteScope_eq_ok.mp compiled
  obtain ⟨_, allow', allowRead', deny', denyRead', tests', testsRead', production',
    productionRead', generated', _, reference', referenceRead', dirty', dirtyRead', nested',
    nestedRead', rfl⟩ := compileWriteScope_eq_ok.mp stricterCompiled
  rw [widens.allow, allowRead] at allowRead'
  rw [widens.testPaths, testsRead] at testsRead'
  rw [widens.productionPaths, productionRead] at productionRead'
  cases allowRead'
  cases testsRead'
  cases productionRead'
  have denied : ∀ pattern ∈ sortedSet (deny ++ denyFloor), pattern ∈ sortedSet (deny' ++ denyFloor) := by
    intro pattern member
    rw [mem_sortedSet, List.mem_append] at member ⊢
    refine member.imp_left fun inside => ?_
    obtain ⟨entry, listed, read⟩ := (mem_patterns denyRead).mp inside
    exact (mem_patterns denyRead').mpr ⟨entry, widens.deny listed, read⟩
  have references := boundaryPatterns_subset referenceRead referenceRead' widens.referencePaths
  have dirties := boundaryPatterns_subset dirtyRead dirtyRead' widens.userDirty
  have nests := boundaryPatterns_subset nestedRead nestedRead' widens.nestedRepositories
  rw [targetAuthorized_iff] at allowed ⊢
  obtain ⟨free, open_, rest⟩ := allowed
  refine ⟨free, fun shut => open_ ?_, rest⟩
  exact shut.imp (matchesAny_of_subset denied) (Or.imp (matchesAny_of_subset references)
    (Or.imp (matchesAny_of_subset dirties) (matchesAny_of_subset nests)))

/-- No target is authorized in both phases. -/
theorem targetAuthorized_exclusive
    (designed : targetAuthorized scope (text "TEST_DESIGN") target = true) :
    targetAuthorized scope (text "IMPLEMENTATION") target = false := by
  have other : text "IMPLEMENTATION" ≠ text "TEST_DESIGN" := by simp
  rw [targetAuthorized_iff, if_pos rfl] at designed
  rw [← Bool.not_eq_true, targetAuthorized_iff, if_neg other]
  rintro ⟨_, _, _, _, production, _⟩
  rw [designed.2.2.2.2] at production
  cases production

/-! ## The call -/

/-- Write authorization in a compiled scope fails closed for exactly the paths that have
parts and that something closes when they lie below a denied entry. -/
theorem write_fails_closed_iff
    (compiled : host.compileWriteScope paths baseline governance = .ok scope) :
    host.FailsClosed paths baseline governance scope path ↔
      HasParts path ∧ host.ClosedBelow paths scope path := by
  have serves (phase current : Text) := writeAuthorized_of_compiled compiled path phase current
  rcases @normalizePath_cases host path with ⟨there, message, read⟩ | ⟨empty, read⟩ |
    ⟨there, read, relative, level⟩
  · simp only [read] at serves
    refine iff_of_true ?_ ⟨there, fun target entry known named => ?_⟩
    swap
    · rw [read] at named
      cases named
    constructor
    · exact fun phase current => ⟨false, serves phase current⟩
    · exact fun _ => serves
    · rintro current current' ⟨designed, _⟩
      rw [serves] at designed
      cases designed
    · intro wider stricter _ stricterCompiled phase current _ allowed
      rw [writeAuthorized_of_compiled stricterCompiled, read] at allowed
      cases allowed
  · simp only [read] at serves
    refine iff_of_false (fun closed => ?_) fun both => empty both.1
    obtain ⟨allowed, returned⟩ := closed.returns [] []
    rw [serves] at returned
    cases returned
  · simp only [read] at serves
    constructor
    · refine fun closed => ⟨there, fun target entry known named listed known' unmarked under => ?_⟩
      rw [read] at named
      cases named
      by_contra free
      simp only [not_or, not_not] at free
      obtain ⟨phase, member, authorized⟩ := targetAuthorized_phase_iff.mpr free
      have refused := closed.refuses (.denied entry listed ⟨known, known', by
        rw [if_neg (by simp [unmarked])]
        exact Or.inr under⟩) phase scope.governanceDigest
      rw [serves, if_neg (by simp [member]), authorized] at refused
      cases refused
    rintro ⟨-, below⟩
    constructor
    · intro phase current
      rw [serves]
      split
      · exact ⟨_, rfl⟩
      · exact ⟨_, rfl⟩
    · intro forbidden phase current
      rw [serves]
      split
      · rfl
      · next ready =>
        simp only [not_or, not_not] at ready
        rw [targetAuthorized_of_forbidden compiled ready.1 read relative level below forbidden]
    · rintro current current' ⟨designed, implemented⟩
      rw [serves] at designed implemented
      split at designed
      · cases designed
      · split at implemented
        · cases implemented
        · rw [targetAuthorized_exclusive (Except.ok.inj designed)] at implemented
          cases implemented
    · intro wider stricter widens stricterCompiled phase current refused allowed
      rw [writeAuthorized_of_compiled stricterCompiled, read] at allowed
      rw [serves] at refused
      have governed : stricter.governanceDigest = scope.governanceDigest := by
        obtain ⟨_, _, _, _, _, _, _, _, _, _, _, _, _, _, _, _, _, rfl⟩ :=
          compileWriteScope_eq_ok.mp compiled
        obtain ⟨_, _, _, _, _, _, _, _, _, _, _, _, _, _, _, _, _, rfl⟩ :=
          compileWriteScope_eq_ok.mp stricterCompiled
        rfl
      simp only [governed] at allowed
      split at allowed
      · cases allowed
      · next ready =>
          rw [if_neg ready, targetAuthorized_of_widens widens compiled stricterCompiled
            (Except.ok.inj allowed)] at refused
          cases refused

/-- The paths of a small project with one dirty file and a denied directory. -/
def dirtyProject : ScopePaths where
  allow := [text "src/**"]
  deny := [text "src/secret"]
  testPaths := [text "tests/**"]
  productionPaths := [text "src/**"]
  generatedPaths := []
  referencePaths := []
  userDirty := [text "src/dirty.txt"]
  nestedRepositories := []

/-- SHA-256 of no bytes and of the scope of the small project. -/
def projectHost : Host := tableHost
  [(0, 0xe3b0c44298fc1c149afbf4c8996fb92427ae41e4649b934ca495991b7852b855),
    (587232312, 0xdb6b131615554baf75ee7dca20fddf22a40fa8a9c279b02581be11311afd65fa)]

theorem compiles_dirtyProject : ∃ scope, projectHost.compileWriteScope dirtyProject true
    (projectHost.sha256 []) = .ok scope := by
  have compiles : (projectHost.compileWriteScope dirtyProject true
      (projectHost.sha256 [])).toOption.isSome = true := by decide +kernel
  cases is : projectHost.compileWriteScope dirtyProject true (projectHost.sha256 []) with
  | error fault =>
      rw [is] at compiles
      cases compiles
  | ok scope => exact ⟨scope, rfl⟩

theorem write_fails_closed_dirtyProject :
    ∃ scope, projectHost.compileWriteScope dirtyProject true (projectHost.sha256 []) = .ok scope ∧
      HasParts (text "src/dirty.txt/b") ∧
      projectHost.ClosedBelow dirtyProject scope (text "src/dirty.txt/b") ∧
      (projectHost.FailsClosed dirtyProject true (projectHost.sha256 []) scope
          (text "src/dirty.txt/b") ↔
        HasParts (text "src/dirty.txt/b") ∧
          projectHost.ClosedBelow dirtyProject scope (text "src/dirty.txt/b")) := by
  obtain ⟨scope, compiled⟩ := compiles_dirtyProject
  refine ⟨scope, compiled, .inr (.inr (by decide +kernel)), ?_, write_fails_closed_iff compiled⟩
  intro target entry known named listed read _ below
  have target_ : projectHost.normalizePath false (text "src/dirty.txt/b") =
      .ok (text "src/dirty.txt/b") := by decide +kernel
  have known_ : projectHost.normalizePath true (text "src/secret") = .ok (text "src/secret") := by
    decide +kernel
  rw [dirtyProject, List.mem_singleton] at listed
  subst listed
  cases target_.symm.trans named
  cases known_.symm.trans read
  exact absurd below (by decide +kernel)

/-- The path `.` makes a compiled scope raise, and a file below a denied directory may be
written. -/
theorem write_authorized_raises :
    ∃ scope, projectHost.compileWriteScope dirtyProject true (projectHost.sha256 []) = .ok scope ∧
      projectHost.writeAuthorized scope (text ".") (text "TEST_DESIGN") (projectHost.sha256 []) =
        .error .indexError ∧
      projectHost.writeAuthorized scope (text "src/secret/key.pem") (text "IMPLEMENTATION")
        (projectHost.sha256 []) = .ok true := by
  have ran : ((projectHost.compileWriteScope dirtyProject true (projectHost.sha256 [])).toOption.map
      fun scope => (projectHost.writeAuthorized scope (text ".") (text "TEST_DESIGN")
          (projectHost.sha256 []),
        projectHost.writeAuthorized scope (text "src/secret/key.pem") (text "IMPLEMENTATION")
          (projectHost.sha256 []))) = some (.error .indexError, .ok true) := by
    decide +kernel
  obtain ⟨scope, compiled⟩ := compiles_dirtyProject
  rw [compiled] at ran
  exact ⟨scope, compiled, Prod.mk.inj (Option.some.inj ran)⟩

end Host

end CarbonLab.Aegis
