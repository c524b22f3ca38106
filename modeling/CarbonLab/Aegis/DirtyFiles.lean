import CarbonLab.Aegis.ProjectContract
import CarbonLab.Aegis.GitStatus

/-!
# Dirty files

The dirty paths that `_git_facts` of `discovery.py` reads from git, and the write scope that
`build_precheck` compiles from them.  Which tasks and gates the precheck records does not
matter to the scope.
-/

namespace CarbonLab.Aegis

open StatusEntry

/-! ## The dirty list -/

section GitFacts

variable (decode : Bytes → Text)

/-- The loop of `_git_facts` over the records, dirty paths first; `skip` is set for the
record behind a rename or a copy. -/
def scanStatus : (skip : Bool) → List Bytes → List Text × List Text
  | _, [] => ([], [])
  | skip, raw :: rest =>
      if skip = true ∨ raw.length < 4 then scanStatus false rest
      else
        let path := forwardSlashes (decode (raw.drop 3))
        let later := scanStatus (hasOriginal raw) rest
        if isUntracked raw then (later.1, path :: later.2) else (path :: later.1, later.2)

/-- `dirty_tracked` of `_git_facts` -/
def dirtyTracked (output : Bytes) : List Text :=
  sortedSet (scanStatus decode false ((chunks output).filter (· ≠ []))).1

/-- The paths that are listed for what git reports. -/
def listedPaths (entries : List StatusEntry) : List Text :=
  (entries.filter tracked).map fun entry => forwardSlashes (decode entry.path.bytes)

/-- The original of a renamed path is skipped. -/
theorem scanStatus_records (entry : StatusEntry) (rest : List Bytes) :
    (scanStatus decode false (entry.records ++ rest)).1 =
      listedPaths decode [entry] ++ (scanStatus decode false rest).1 := by
  have long := Nat.not_lt.mpr entry.four_le_length_record
  have behind : scanStatus decode entry.original.isSome
      ((entry.original.map GitPath.bytes).toList ++ rest) = scanStatus decode false rest := by
    cases entry.original with
    | none => rfl
    | some path => exact if_pos (Or.inl rfl)
  rw [records, List.cons_append, scanStatus, if_neg (by simp [long]), hasOriginal_record, behind,
    isUntracked_record, drop_record]
  cases known : entry.tracked <;> simp [listedPaths, known]

theorem scanStatus_output (entries : List StatusEntry) :
    (scanStatus decode false (entries.flatMap records)).1 = listedPaths decode entries := by
  induction entries with
  | nil => rfl
  | cons entry others ih =>
      rw [List.flatMap_cons, scanStatus_records, ih]
      simp only [listedPaths, List.filter_cons, List.filter_nil]
      split <;> rfl

theorem dirtyTracked_output (entries : List StatusEntry) :
    dirtyTracked decode (output entries) = sortedSet (listedPaths decode entries) := by
  rw [dirtyTracked, nonempty_chunks_output, scanStatus_output]

end GitFacts

/-! ## The scope of a precheck -/

/-- The test paths that `build_precheck` gives. -/
def testPaths : List Text :=
  [text "tests/**", text "infra/tests/**", text "infra/property_tests/**",
    text "infra/law_tests/**"]

/-- Upper case ASCII letters in lower case. -/
def lowerAscii (string : Text) : Text :=
  string.map fun letter =>
    if 65 ≤ letter.val ∧ letter.val ≤ 90 then Fin.ofNat _ (letter.val + 32) else letter

namespace Host

variable (host : Host)

/-- `str.casefold()` of ASCII. -/
def FoldsAscii : Prop :=
  ∀ string : Text, (∀ letter ∈ string, letter.val < 128) →
    host.casefold string = lowerAscii string

/-- `artifacts["write_scope"]` of `build_precheck`, which calls it without baseline
authority. -/
def precheckScope (contract : Json) (classes : List Text) (baselineAuthorized : Bool)
    (governanceDigest : Text) (dirty nested : List Text) : Except ScopeFault WriteScope := do
  let scope ← host.compileContract contract classes
  host.compileWriteScope
    { allow := scope.allow, deny := scope.deny, testPaths, productionPaths := scope.source,
      generatedPaths := scope.generated, referencePaths := scope.reference,
      userDirty := dirty, nestedRepositories := nested }
    baselineAuthorized governanceDigest

variable {host}

/-- What a compiled scope holds. -/
theorem compileWriteScope_eq_ok {paths : ScopePaths} {baseline : Bool} {governance : Text}
    {scope : WriteScope} :
    host.compileWriteScope paths baseline governance = .ok scope ↔
      isCanonicalDigest governance ∧
      ∃ allow, host.patterns paths.allow = .ok allow ∧
      ∃ deny, host.patterns paths.deny = .ok deny ∧
      ∃ tests, host.patterns paths.testPaths = .ok tests ∧
      ∃ production, host.patterns paths.productionPaths = .ok production ∧
      ∃ generated, host.patterns paths.generatedPaths = .ok generated ∧
      ∃ reference, host.boundaryPatterns paths.referencePaths = .ok reference ∧
      ∃ dirty, host.boundaryPatterns paths.userDirty = .ok dirty ∧
      ∃ nested, host.boundaryPatterns paths.nestedRepositories = .ok nested ∧
      scope =
        let value : WriteScope :=
          { schema := 1, allow, deny := sortedSet (deny ++ denyFloor), testPaths := tests,
            productionPaths := production, generatedPaths := generated,
            referencePaths := reference, userDirty := dirty, nestedRepositories := nested,
            baselineAuthorized := baseline, governanceDigest := governance, digest := [] }
        { value with digest := host.digest value.body } := by
  unfold compileWriteScope
  simp only [bind_eq_ok, demand_eq_ok, exists_and_left, exists_const, Except.ok.injEq,
    eq_comm (b := scope)]

/-- A compiled scope passes its own checks. -/
theorem validateWriteScope_of_compiled {paths : ScopePaths} {baseline : Bool}
    {governance : Text} {scope : WriteScope}
    (compiled : host.compileWriteScope paths baseline governance = .ok scope) :
    host.validateWriteScope scope = .ok () := by
  obtain ⟨canonical, allow, _, deny, _, tests, _, production, _, generated, _, reference, _,
    dirty, _, nested, _, rfl⟩ := compileWriteScope_eq_ok.mp compiled
  unfold validateWriteScope
  simp only [bind_eq_ok, demand_eq_ok, exists_const]
  exact ⟨trivial, rfl, canonical⟩

/-- `write_authorized` of a compiled scope. -/
theorem writeAuthorized_of_compiled {paths : ScopePaths} {baseline : Bool}
    {governance : Text} {scope : WriteScope}
    (compiled : host.compileWriteScope paths baseline governance = .ok scope)
    (path phase current : Text) :
    host.writeAuthorized scope path phase current =
      match host.normalizePath false path with
      | .error (.scopeError _) => .ok false
      | .error fault => .error fault
      | .ok target =>
          if phase ∉ phases ∨ current ≠ scope.governanceDigest then .ok false
          else .ok (targetAuthorized scope phase target) := by
  have valid := validateWriteScope_of_compiled compiled
  cases read : host.normalizePath false path with
  | error fault => cases fault <;> simp only [writeAuthorized, valid, read]
  | ok target => simp only [writeAuthorized, valid, read]

/-! ## What every contract has in common -/

/-- ASCII paths in lower case. -/
theorem mapM_normalizePath_of_ascii (folds : host.FoldsAscii) {values paths : List Text}
    (read : values.mapM (posixPath true) = .ok paths)
    (ascii : ∀ path ∈ paths, ∀ letter ∈ path, letter.val < 128) :
    values.mapM (host.normalizePath true) = .ok (paths.map lowerAscii) := by
  induction values generalizing paths with
  | nil =>
      cases read
      rfl
  | cons value values ih =>
      rw [List.mapM_cons, bind_eq_ok] at read
      obtain ⟨path, first, read⟩ := read
      obtain ⟨others, rest, read⟩ := bind_eq_ok.mp read
      cases read
      obtain ⟨firstAscii, restAscii⟩ := List.forall_mem_cons.mp ascii
      rw [List.mapM_cons, ih rest restAscii, normalizePath, first]
      change Except.ok (host.casefold path :: others.map lowerAscii) = _
      rw [folds path firstAscii, List.map_cons]

theorem patterns_of_ascii (folds : host.FoldsAscii) {values paths : List Text}
    (read : values.mapM (posixPath true) = .ok paths)
    (ascii : ∀ path ∈ paths, ∀ letter ∈ path, letter.val < 128) :
    host.patterns values = .ok (sortedSet (paths.map lowerAscii)) := by
  rw [patterns, mapM_normalizePath_of_ascii folds read ascii]
  rfl

theorem patterns_testPaths (folds : host.FoldsAscii) :
    host.patterns testPaths = .ok (sortedSet testPaths) :=
  @patterns_of_ascii host folds testPaths testPaths (by decide +kernel) (by simp [testPaths, text])

theorem patterns_allowFloor (folds : host.FoldsAscii) :
    host.patterns Contract.allowFloor = .ok (sortedSet Contract.allowFloor) :=
  @patterns_of_ascii host folds Contract.allowFloor Contract.allowFloor (by decide +kernel)
    (by simp [Contract.allowFloor, text])

/-- The patterns are what the values are read as. -/
theorem mem_patterns {values compiled : List Text} (read : host.patterns values = .ok compiled)
    {pattern : Text} :
    pattern ∈ compiled ↔ ∃ value ∈ values, host.normalizePath true value = .ok pattern := by
  unfold patterns at read
  cases all : values.mapM (host.normalizePath true) with
  | error fault =>
      rw [all] at read
      cases read
  | ok paths =>
      rw [all] at read
      cases read
      rw [mem_sortedSet, mem_mapM_iff all]

/-- A contract allows its own source and the test directories. -/
theorem allow_of_compileContract {contract : Json} {classes : List Text} {scope : ContractScope}
    (compiled : host.compileContract contract classes = .ok scope) :
    scope.allow = sortedSet (scope.source ++ Contract.allowFloor) := by
  unfold compileContract at compiled
  obtain ⟨_, _, compiled⟩ := bind_eq_ok.mp compiled
  obtain ⟨_, _, compiled⟩ := bind_eq_ok.mp compiled
  obtain ⟨references, _, compiled⟩ := bind_eq_ok.mp compiled
  cases paths : references.mapM fun item => (item.get "path").str? with
  | none =>
      rw [paths] at compiled
      cases compiled
  | some reference =>
      rw [paths] at compiled
      cases compiled
      rfl

/-- What is allowed is production or lies in the test directories. -/
theorem matchesAny_allow (folds : host.FoldsAscii) {source allow production : List Text}
    (allowed : host.patterns (sortedSet (source ++ Contract.allowFloor)) = .ok allow)
    (produced : host.patterns source = .ok production) (target : Text) :
    matchesAny target allow =
      (matchesAny target production || matchesAny target Contract.allowFloor) := by
  rw [← matchesAny_append]
  apply matchesAny_congr
  intro pattern
  have tests := @mem_patterns host _ _ (patterns_allowFloor folds) pattern
  rw [mem_sortedSet] at tests
  rw [List.mem_append, mem_patterns produced, tests, mem_patterns allowed]
  simp only [mem_sortedSet, List.mem_append, or_and_right, exists_or]

end Host

/-- No contract makes a target writable that is governance, that the guarded patterns cover,
or that lies in `tests/` and nowhere else. -/
def Shut (guarded : List Text) (target : Text) : Prop :=
  (target.splitOn (code '/')).head? = some (text ".agents") ∨
    (target.splitOn (code '/')).getLast? = some (text "agents.md") ∨
    matchesAny target denyFloor = true ∨ matchesAny target guarded = true ∨
    (matchesAny target testPaths = true ∧ matchesAny target Contract.allowFloor = false)

namespace Host

variable {host : Host}

theorem targetAuthorized_of_shut (folds : host.FoldsAscii) {contract : Json}
    {classes : List Text} {baseline : Bool} {governance : Text} {listed nested : List Text}
    {dirtyPatterns nestedPatterns : List Text} {scope : WriteScope}
    (compiled : host.precheckScope contract classes baseline governance listed nested = .ok scope)
    (dirtyRead : host.boundaryPatterns listed = .ok dirtyPatterns)
    (nestedRead : host.boundaryPatterns nested = .ok nestedPatterns) {target : Text}
    (shut : Shut (dirtyPatterns ++ nestedPatterns) target) (phase : Text) :
    targetAuthorized scope phase target = false := by
  obtain ⟨contractScope, contractRead, compiled⟩ := bind_eq_ok.mp compiled
  obtain ⟨_, allow, allowed, deny, _, tests, tested, production, produced, _, _, _, _,
    dirty, dirtied, inner, innerRead, rfl⟩ := compileWriteScope_eq_ok.mp compiled
  rw [allow_of_compileContract contractRead] at allowed
  rw [dirtyRead] at dirtied
  rw [nestedRead] at innerRead
  rw [patterns_testPaths folds] at tested
  cases dirtied
  cases innerRead
  cases tested
  have denied : matchesAny target denyFloor = true →
      matchesAny target (sortedSet (deny ++ denyFloor)) = true := by
    apply matchesAny_of_subset
    intro pattern member
    rw [mem_sortedSet]
    exact List.mem_append_right deny member
  have allows := matchesAny_allow folds allowed produced target
  have tests : matchesAny target (sortedSet testPaths) = matchesAny target testPaths :=
    matchesAny_congr fun pattern => mem_sortedSet
  unfold targetAuthorized
  simp only
  rcases shut with agents | instructions | floor | guarded | ⟨test, outside⟩
  · simp [agents]
  · simp [instructions]
  · simp [denied floor]
  · rw [matchesAny_append, Bool.or_eq_true] at guarded
    rcases guarded with guarded | guarded <;> simp [guarded]
  · rw [allows, outside, tests, test]
    cases matchesAny target production <;> simp

end Host

/-! ## Contracts that leave a target open -/

/-- A contract with source patterns and nothing else. -/
def openContract (source : List Text) : Json :=
  .obj [(text "boundaries", .obj [(text "source", .arr (source.map .str))]),
    (text "project", .obj [(text "name", .str (text "carbon"))]), (text "schema", .int 1)]

namespace Host

variable {host : Host}

theorem strings?_map (values : List Text) :
    Contract.strings? (.arr (values.map .str)) = some values := by
  simp only [Contract.strings?, Json.arr?, Option.bind_eq_bind, Option.bind_some]
  induction values with
  | nil => rfl
  | cons first rest ih => simp [List.mapM_cons, ih, Json.str?]

theorem walkItems_strings (values : List Text) : host.walkItems (values.map .str) = [] := by
  induction values with
  | nil => rfl
  | cons first rest ih => simp [walkItems, walk, ih]

theorem validate_openContract (folds : host.FoldsAscii) {source : List Text}
    (plain : ∀ value ∈ source, strip value ≠ []) :
    host.validateProjectContract (openContract source) = .ok () := by
  have fold (key : Text) (ascii : ∀ letter ∈ key.map (fun letter =>
      if letter = code '-' then code '_' else letter), letter.val < 128) :
      host.ruleKey key = lowerAscii (key.map fun letter =>
        if letter = code '-' then code '_' else letter) := folds _ ascii
  have walked : (host.walk (openContract source)).all
      (fun field => !Contract.weakens field) = true := by
    rw [openContract]
    simp only [walk, walkFields, walkItems_strings, List.append_nil, List.cons_append]
    rw [fold (text "boundaries") (by simp [text, code]),
      fold (text "source") (by simp [text, code]), fold (text "project") (by simp [text, code]),
      fold (text "name") (by simp [text, code]), fold (text "schema") (by simp [text, code])]
    rfl
  have schema : (openContract source).get "schema" = .int 1 := rfl
  have project : (openContract source).get "project" =
      .obj [(text "name", .str (text "carbon"))] := rfl
  have policy : (openContract source).getD "policy" (.obj []) = .obj [] := rfl
  have boundaries : (openContract source).getD "boundaries" (.obj []) =
      .obj [(text "source", .arr (source.map .str))] := rfl
  have packs : Contract.strings? ((Json.obj []).getD "packs" (.arr [])) = some [] := rfl
  have listed : (Json.obj [(text "source", .arr (source.map .str))]).getD (text "source")
      (.arr []) = .arr (source.map .str) := rfl
  have absent : ∀ field ∈ [text "generated", text "immutable", text "vendor"],
      (Json.obj [(text "source", .arr (source.map .str))]).getD field (.arr []) = .arr [] := by
    intro field member
    simp only [List.mem_cons, List.not_mem_nil, or_false] at member
    rcases member with rfl | rfl | rfl <;> rfl
  unfold validateProjectContract
  simp only [bind_eq_ok, demand_eq_ok, exists_const, schema, project, policy, boundaries, packs]
  refine ⟨⟨rfl, rfl⟩, ⟨rfl, rfl⟩, walked, rfl, by simp, rfl, ?_⟩
  intro field member
  rcases List.mem_cons.mp member with rfl | other
  · rw [listed, strings?_map]
    simpa using plain
  · rw [absent field other]
    rfl

theorem compile_openContract (folds : host.FoldsAscii) {source : List Text}
    (plain : ∀ value ∈ source, strip value ≠ []) :
    host.compileContract (openContract source) [] =
      .ok ⟨sortedSet (source ++ Contract.allowFloor),
        sortedSet [text ".agents/**", text "**/AGENTS.md"], [], [], source⟩ := by
  have boundary : Contract.boundary (openContract source) "source" = source := by
    change (Contract.strings? (.arr (source.map .str))).getD [] = source
    rw [strings?_map]
    rfl
  unfold compileContract
  rw [validate_openContract folds plain, boundary]
  rfl

theorem patterns_contractDeny (folds : host.FoldsAscii) :
    host.patterns (sortedSet [text ".agents/**", text "**/AGENTS.md"]) =
      .ok (sortedSet [text "**/agents.md", text ".agents/**"]) :=
  @patterns_of_ascii host folds (sortedSet [text ".agents/**", text "**/AGENTS.md"])
    [text "**/AGENTS.md", text ".agents/**"] (by decide +kernel) (by simp [text])

theorem patterns_nil : host.patterns [] = .ok [] := rfl

theorem boundaryPatterns_nil : host.boundaryPatterns [] = .ok [] := rfl

/-- What such a contract leaves open of the targets that are not shut. -/
theorem targetAuthorized_openContract (folds : host.FoldsAscii) {source production : List Text}
    (plain : ∀ value ∈ source, strip value ≠ [])
    (produced : host.patterns source = .ok production) {allow : List Text}
    (allowed : host.patterns (sortedSet (source ++ Contract.allowFloor)) = .ok allow)
    {listed nested dirtyPatterns nestedPatterns : List Text}
    (dirtyRead : host.boundaryPatterns listed = .ok dirtyPatterns)
    (nestedRead : host.boundaryPatterns nested = .ok nestedPatterns) {governance : Text}
    (canonical : isCanonicalDigest governance = true) :
    ∃ scope,
      host.precheckScope (openContract source) [] true governance listed nested = .ok scope ∧
      scope.governanceDigest = governance ∧
      ∀ target, ¬Shut (dirtyPatterns ++ nestedPatterns) target → ∀ phase,
        targetAuthorized scope phase target =
          ((matchesAny target production || matchesAny target Contract.allowFloor) &&
            if phase = text "TEST_DESIGN" then
              matchesAny target testPaths && !matchesAny target production
            else matchesAny target production && !matchesAny target testPaths) := by
  have compiled := (@compileWriteScope_eq_ok host
    ⟨sortedSet (source ++ Contract.allowFloor), sortedSet [text ".agents/**", text "**/AGENTS.md"],
      testPaths, source, [], [], listed, nested⟩ true governance _).mpr
    ⟨canonical, allow, allowed, _, patterns_contractDeny folds, _, patterns_testPaths folds,
      production, produced, [], patterns_nil, [], boundaryPatterns_nil, dirtyPatterns, dirtyRead,
      nestedPatterns, nestedRead, rfl⟩
  refine ⟨_, bind_eq_ok.mpr ⟨_, compile_openContract folds plain, compiled⟩, rfl, ?_⟩
  intro target unshut phase
  simp only [Shut, not_or, matchesAny_append, Bool.or_eq_true, Bool.not_eq_true] at unshut
  obtain ⟨agents, instructions, floor, ⟨dirty, inner⟩, _⟩ := unshut
  have allows := matchesAny_allow folds allowed produced target
  have tests : matchesAny target (sortedSet testPaths) = matchesAny target testPaths :=
    matchesAny_congr fun pattern => mem_sortedSet
  have denied : matchesAny target
      (sortedSet (sortedSet [text "**/agents.md", text ".agents/**"] ++ denyFloor)) = false := by
    rw [← floor]
    apply matchesAny_congr
    intro pattern
    rw [mem_sortedSet, List.mem_append, mem_sortedSet, or_iff_right_iff_imp]
    intro member
    rcases List.mem_cons.mp member with rfl | member
    · exact List.mem_of_elem_eq_true rfl
    · rw [List.mem_singleton.mp member]
      exact List.mem_of_elem_eq_true rfl
  have unmatched : matchesAny target [] = false := rfl
  simp only [targetAuthorized, agents, instructions, denied, dirty, inner, unmatched, allows,
    tests]
  cases matchesAny target production || matchesAny target Contract.allowFloor <;> simp

end Host

end CarbonLab.Aegis
