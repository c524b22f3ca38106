import CarbonLab.Aegis.DirtyFiles
import CarbonLab.Aegis.PathSpelling

/-!
# Protection of dirty files

Which dirty files no write scope of a precheck lets a task write to.  Git lists a path from
the top level of the worktree, and a write target is a path from the project root.
-/

namespace CarbonLab.Aegis

open StatusEntry

/-- A letter for a modified, added, deleted or renamed path. -/
def StatusLetter.changed : StatusLetter → Bool
  | .modified | .added | .deleted | .renamed => true
  | _ => false

namespace StatusEntry

/-- The paths that an entry reports: a rename reports the old one too. -/
def names (entry : StatusEntry) : List Bytes :=
  entry.path.bytes ::
    if entry.index = .renamed ∨ entry.worktree = .renamed then
      (entry.original.map GitPath.bytes).toList
    else []

/-- A file below the project root is reported as changed; `root` is the path of the project
root, which is empty at the top level and ends in a slash below it. -/
def Reported (root : Bytes) (entries : List StatusEntry) (name : Bytes) : Prop :=
  ∃ entry ∈ entries, (entry.index.changed = true ∨ entry.worktree.changed = true) ∧
    root ++ name ∈ entry.names

end StatusEntry

/-- A relative path that leads where the other one leads.  One with `..` is refused as a
target in any case. -/
def Spells (spelled name : Text) : Prop :=
  spelled.head? ≠ some (code '/') ∧ pathParts spelled = pathParts name

namespace Host

variable (host : Host)

/-- A target is refused, or no contract makes it writable. -/
def Sheltered (guarded : List Text) (spelled : Text) : Prop :=
  match host.normalizePath false spelled with
  | .error (.scopeError _) => True
  | .error _ => False
  | .ok target => Shut guarded target

variable {host}

theorem writeAuthorized_of_sheltered (folds : host.FoldsAscii) {contract : Json}
    {classes : List Text} {baseline : Bool} {governance : Text} {listed nested : List Text}
    {dirtyPatterns nestedPatterns : List Text} {scope : WriteScope}
    (compiled : host.precheckScope contract classes baseline governance listed nested = .ok scope)
    (dirtyRead : host.boundaryPatterns listed = .ok dirtyPatterns)
    (nestedRead : host.boundaryPatterns nested = .ok nestedPatterns) {spelled : Text}
    (sheltered : host.Sheltered (dirtyPatterns ++ nestedPatterns) spelled)
    (phase current : Text) :
    host.writeAuthorized scope spelled phase current = .ok false := by
  obtain ⟨_, _, written⟩ := bind_eq_ok.mp compiled
  rw [writeAuthorized_of_compiled written]
  unfold Sheltered at sheltered
  cases read : host.normalizePath false spelled with
  | error fault =>
      rw [read] at sheltered
      cases fault with
      | scopeError message => rfl
      | _ => cases sheltered
  | ok target =>
      rw [read] at sheltered
      have closed := targetAuthorized_of_shut folds compiled dirtyRead nestedRead sheltered phase
      simp [closed]

/-- The patterns of a scope that exists can be read. -/
theorem boundaryPatterns_of_precheckScope {contract : Json} {classes : List Text}
    {baseline : Bool} {governance : Text} {listed nested : List Text} {scope : WriteScope}
    (compiled : host.precheckScope contract classes baseline governance listed nested = .ok scope) :
    ∃ dirtyPatterns nestedPatterns, host.boundaryPatterns listed = .ok dirtyPatterns ∧
      host.boundaryPatterns nested = .ok nestedPatterns := by
  obtain ⟨_, _, written⟩ := bind_eq_ok.mp compiled
  obtain ⟨_, _, _, _, _, _, _, _, _, _, _, _, _, dirty, dirtyRead, inner, innerRead, _⟩ :=
    compileWriteScope_eq_ok.mp written
  exact ⟨dirty, inner, dirtyRead, innerRead⟩

theorem isCanonicalDigest_sha256 (bytes : Bytes) : isCanonicalDigest (host.sha256 bytes) = true := by
  obtain ⟨length, hex⟩ := host.sha256_hex bytes
  rw [isCanonicalDigest, length]
  simpa using hex

theorem patterns_stars (folds : host.FoldsAscii) :
    host.patterns [text "**"] = .ok [text "**"] :=
  @patterns_of_ascii host folds [text "**"] [text "**"] (by decide +kernel) (by simp [text])

/-- The patterns of a contract that allows everything. -/
theorem exists_patterns_allow (folds : host.FoldsAscii) {source : List Text}
    (member : source = [] ∨ source = [text "**"]) :
    ∃ allow, host.patterns (sortedSet (source ++ Contract.allowFloor)) = .ok allow := by
  rcases member with rfl | rfl
  · exact ⟨_, @patterns_of_ascii host folds _ (sortedSet Contract.allowFloor)
      (by decide +kernel) (by simp [Contract.allowFloor, text])⟩
  · exact ⟨_, @patterns_of_ascii host folds _ (sortedSet ([text "**"] ++ Contract.allowFloor))
      (by decide +kernel) (by simp [Contract.allowFloor, text])⟩

theorem matchesAny_stars (target : Text) : matchesAny target [text "**"] = true := by
  have open_ : covered target (text "**") = fnmatchcase target [code '*', code '*'] := rfl
  rw [matchesAny, List.any_cons, open_, fnmatchcase_stars]
  rfl

/-- `write_authorized` of a target that can be read. -/
theorem writeAuthorized_of_target {contract : Json} {classes : List Text} {baseline : Bool}
    {governance : Text} {listed nested : List Text} {scope : WriteScope}
    (compiled : host.precheckScope contract classes baseline governance listed nested = .ok scope)
    {spelled target : Text} (read : host.normalizePath false spelled = .ok target) {phase : Text}
    (known : phase ∈ phases) :
    host.writeAuthorized scope spelled phase scope.governanceDigest =
      .ok (targetAuthorized scope phase target) := by
  obtain ⟨_, _, written⟩ := bind_eq_ok.mp compiled
  rw [writeAuthorized_of_compiled written, read]
  simp [known]

/-- Some contract makes a target writable that is not sheltered. -/
theorem exists_writeAuthorized (folds : host.FoldsAscii) {listed nested : List Text}
    {dirtyPatterns nestedPatterns : List Text}
    (dirtyRead : host.boundaryPatterns listed = .ok dirtyPatterns)
    (nestedRead : host.boundaryPatterns nested = .ok nestedPatterns) {spelled : Text}
    (unsheltered : ¬host.Sheltered (dirtyPatterns ++ nestedPatterns) spelled) :
    ∃ contract scope phase,
      host.precheckScope contract [] true (host.sha256 []) listed nested = .ok scope ∧
      host.writeAuthorized scope spelled phase scope.governanceDigest ≠ .ok false := by
  have canonical := @isCanonicalDigest_sha256 host []
  -- One contract has every path as its source, the other has only the test directories.
  obtain ⟨wideAllow, wideAllowed⟩ := exists_patterns_allow folds (Or.inr rfl)
  obtain ⟨wide, wideCompiled, _, wideOpen⟩ :=
    targetAuthorized_openContract folds (by decide +kernel) (patterns_stars folds) wideAllowed
      dirtyRead nestedRead canonical
  obtain ⟨testAllow, testAllowed⟩ := exists_patterns_allow folds (Or.inl rfl)
  obtain ⟨test, testCompiled, _, testOpen⟩ :=
    targetAuthorized_openContract folds (by simp) patterns_nil testAllowed dirtyRead nestedRead
      canonical
  cases read : host.normalizePath false spelled with
  | error fault =>
      refine ⟨_, wide, text "IMPLEMENTATION", wideCompiled, ?_⟩
      obtain ⟨_, _, written⟩ := bind_eq_ok.mp wideCompiled
      rw [writeAuthorized_of_compiled written, read]
      rw [Sheltered, read] at unsheltered
      cases fault with
      | scopeError message => exact absurd trivial unsheltered
      | _ => simp
  | ok target =>
      have unshut : ¬Shut (dirtyPatterns ++ nestedPatterns) target := by
        rw [Sheltered, read] at unsheltered
        exact unsheltered
      cases tests : matchesAny target testPaths with
      | false =>
          refine ⟨_, wide, text "IMPLEMENTATION", wideCompiled, ?_⟩
          rw [writeAuthorized_of_target wideCompiled read (by decide), wideOpen target unshut,
            matchesAny_stars, tests, if_neg (by decide)]
          simp
      | true =>
          refine ⟨_, test, text "TEST_DESIGN", testCompiled, ?_⟩
          have floor : matchesAny target Contract.allowFloor = true := by
            simp only [Shut, not_or, not_and, Bool.not_eq_false] at unshut
            exact unshut.2.2.2.2 tests
          rw [writeAuthorized_of_target testCompiled read (by decide), testOpen target unshut,
            floor, tests, if_pos rfl]
          simp [matchesAny]

end Host

/-! ## Files at the top level -/

/-- `str.casefold()` makes no pattern marks and no slash at the end. -/
structure Host.FoldsPlain (host : Host) : Prop where
  marker : ∀ string, hasMarker string = false → hasMarker (host.casefold string) = false
  slash : ∀ string, string.getLast? ≠ some (code '/') →
    (host.casefold string).getLast? ≠ some (code '/')

/-- The patterns of a listed path are among those of the list. -/
theorem boundaryOf_subset {host : Host} {listed patterns : List Text}
    (read : host.boundaryPatterns listed = .ok patterns) {value : Text} (member : value ∈ listed) :
    ∃ path, host.normalizePath true value = .ok path ∧
      ∀ pattern ∈ Host.boundaryOf path, pattern ∈ patterns := by
  unfold Host.boundaryPatterns at read
  cases all : listed.mapM (host.normalizePath true) with
  | error fault =>
      rw [all] at read
      cases read
  | ok paths =>
      rw [all] at read
      cases read
      obtain ⟨path, _, known⟩ := exists_mem_of_mapM all member
      refine ⟨path, known, ?_⟩
      intro pattern inside
      rw [mem_sortedSet, List.mem_flatMap]
      exact ⟨path, (mem_mapM_iff all).mpr ⟨value, member, known⟩, inside⟩

/-- The patterns of a path without pattern marks cover it. -/
theorem covered_boundaryOf {host : Host} (folds : host.FoldsPlain) {string : Text}
    (plain : hasMarker (dropDots string) = false) :
    matchesAny (host.casefold (joinParts (pathParts string)))
      (Host.boundaryOf (host.casefold (joinParts (pathParts string)))) = true := by
  have marks := hasMarker_joinParts plain
  rw [pathParts_dropDots] at marks
  have unmarked := folds.marker _ marks
  have ends := folds.slash _ (getLast?_joinParts (@plain_of_mem_pathParts string))
  generalize host.casefold (joinParts (pathParts string)) = path at unmarked ends
  have whole := stripSlashes_of_getLast? ends
  have single : ¬(text "/**").isSuffixOf path = true := by
    intro suffix
    obtain ⟨front, rfl⟩ := List.isSuffixOf_iff_suffix.mp suffix
    simp [hasMarker, text, code] at unmarked
  rw [Host.boundaryOf, whole, if_neg (by simp [unmarked]), matchesAny, List.any_cons, covered,
    whole, if_neg single, fnmatchcase_self unmarked, Bool.true_or]

/-- A listed file is sheltered under every spelling, unless white space stands at an end of
its path. -/
theorem sheltered_of_listed {host : Host} (folds : host.FoldsPlain) {listed : List Text}
    {dirtyPatterns : List Text} (dirtyRead : host.boundaryPatterns listed = .ok dirtyPatterns)
    (nestedPatterns : List Text) {name : Text} (member : forwardSlashes name ∈ listed)
    (relative : name.head? ≠ some (code '/')) (trimmed : Trimmed (pathParts name))
    {spelled : Text} (spells : Spells spelled name) :
    host.Sheltered (dirtyPatterns ++ nestedPatterns) spelled := by
  obtain ⟨spelledRelative, same⟩ := spells
  obtain ⟨nameFront, nameBack⟩ := ends_of_trimmed relative trimmed
  obtain ⟨front, back⟩ := ends_of_trimmed spelledRelative (same ▸ trimmed)
  have parts : pathParts (forwardSlashes spelled) = pathParts (forwardSlashes name) := by
    rw [pathParts_forwardSlashes, same, ← pathParts_forwardSlashes]
  obtain ⟨path, read, inside⟩ := boundaryOf_subset dirtyRead member
  have nameCases := posixPath_cases true (strip_forwardSlashes_of_ends nameFront nameBack)
  rw [forwardSlashes_forwardSlashes] at nameCases
  have listedPath : path = host.casefold (joinParts (pathParts (forwardSlashes spelled))) := by
    unfold Host.normalizePath at read
    rw [parts]
    rcases nameCases with ⟨message, refused⟩ | ⟨_, refused⟩ | ⟨_, accepted, _⟩
    · rw [refused] at read
      cases read
    · rw [refused] at read
      cases read
    · rw [accepted] at read
      cases read
      rfl
  unfold Host.Sheltered Host.normalizePath
  rcases posixPath_cases false (strip_of_ends front back) with
    ⟨message, refused⟩ | ⟨empty, _⟩ | ⟨_, accepted, plain⟩
  · rw [refused]
    trivial
  · rw [parts] at empty
    unfold Host.normalizePath at read
    rcases nameCases with ⟨message, refused⟩ | ⟨_, refused⟩ | ⟨named, _⟩
    · rw [refused] at read
      cases read
    · rw [refused] at read
      cases read
    · exact absurd empty named
  · rw [accepted]
    refine Or.inr (Or.inr (Or.inr (Or.inl ?_)))
    rw [matchesAny_append, Bool.or_eq_true]
    left
    apply matchesAny_of_subset inside
    rw [listedPath]
    exact covered_boundaryOf folds (by simpa using plain)

/-- At the top level, without renames and white space at the ends of names, the listed paths
shelter every file. -/
theorem sheltered_of_top {host : Host} (folds : host.FoldsPlain) {decode : Bytes → Text}
    {entries : List StatusEntry}
    (kept : ∀ entry ∈ entries, entry.index ≠ .renamed ∧ entry.worktree ≠ .renamed)
    (plain : ∀ entry ∈ entries, entry.tracked = true →
      (decode entry.path.bytes).head? ≠ some (code '/') ∧
        Trimmed (pathParts (decode entry.path.bytes)))
    {dirtyPatterns : List Text}
    (dirtyRead : host.boundaryPatterns (sortedSet (listedPaths decode entries)) =
      .ok dirtyPatterns) (nestedPatterns : List Text) {name : Bytes}
    (reported : Reported [] entries name) {spelled : Text} (spells : Spells spelled (decode name)) :
    host.Sheltered (dirtyPatterns ++ nestedPatterns) spelled := by
  obtain ⟨entry, member, changed, named⟩ := reported
  obtain ⟨index, worktree⟩ := kept entry member
  have known : entry.tracked = true := by
    rw [tracked, decide_eq_true_eq]
    intro untracked
    rw [untracked, entry.untracked_iff.mp untracked] at changed
    rcases changed with changed | changed <;> cases changed
  have same : name = entry.path.bytes := by
    rw [names, if_neg (not_or.mpr ⟨index, worktree⟩), List.mem_singleton] at named
    exact named
  subst same
  obtain ⟨relative, trimmed⟩ := plain entry member known
  apply sheltered_of_listed folds dirtyRead nestedPatterns _ relative trimmed spells
  rw [mem_sortedSet]
  exact List.mem_map.mpr ⟨entry, List.mem_filter.mpr ⟨member, known⟩, rfl⟩

/-! ## Files below the top level -/

/-- No write scope of a precheck lets a task write to a file that git reports as changed. -/
def DirtyProtected (host : Host) (decode : Bytes → Text) (root : Bytes)
    (entries : List StatusEntry) (nested : List Text) : Prop :=
  ∀ contract classes baseline governance scope,
    host.precheckScope contract classes baseline governance
      (dirtyTracked decode (output entries)) nested = .ok scope →
    ∀ name, Reported root entries name → ∀ spelled, Spells spelled (decode name) →
      ∀ phase current, host.writeAuthorized scope spelled phase current = .ok false

/-- The dirty files are protected exactly when every spelling of every one of them is
sheltered by the listed paths and the nested repositories. -/
theorem dirtyProtected_iff {host : Host} (folds : host.FoldsAscii) (decode : Bytes → Text)
    (root : Bytes) (entries : List StatusEntry) (nested : List Text) :
    DirtyProtected host decode root entries nested ↔
      ∀ dirtyPatterns nestedPatterns,
        host.boundaryPatterns (sortedSet (listedPaths decode entries)) = .ok dirtyPatterns →
        host.boundaryPatterns nested = .ok nestedPatterns →
        ∀ name, Reported root entries name → ∀ spelled, Spells spelled (decode name) →
          host.Sheltered (dirtyPatterns ++ nestedPatterns) spelled := by
  unfold DirtyProtected
  rw [dirtyTracked_output]
  constructor
  · intro refused dirtyPatterns nestedPatterns dirtyRead nestedRead name reported spelled spells
    by_contra unsheltered
    obtain ⟨contract, scope, phase, compiled, written⟩ :=
      Host.exists_writeAuthorized folds dirtyRead nestedRead unsheltered
    exact written (refused _ _ _ _ _ compiled name reported spelled spells phase _)
  · intro sheltered contract classes baseline governance scope compiled name reported spelled
      spells phase current
    obtain ⟨dirtyPatterns, nestedPatterns, dirtyRead, nestedRead⟩ :=
      Host.boundaryPatterns_of_precheckScope compiled
    exact Host.writeAuthorized_of_sheltered folds compiled dirtyRead nestedRead
      (sheltered _ _ dirtyRead nestedRead name reported spelled spells) phase current

/-- A file name of ASCII bytes. -/
def asciiName (bytes : Bytes) : Text := bytes.map fun byte => Fin.ofNat _ byte.toNat

/-- A modified file. -/
def modifiedEntry (path : GitPath) : StatusEntry where
  index := .unmodified
  worktree := .modified
  path
  original := none
  untracked_iff := by simp
  original_iff := by simp

/-- A host that knows the digest of one scope. -/
def scopeHost : Host := tableHost
  [(0, 102987336249554097029535212322581322789799900648198034993379397001115665086549),
    (536505758, 1255171617349536981012232484408148193975738095636689794252157776871490038012)]

theorem scopeHost_foldsAscii : scopeHost.FoldsAscii := fun _ _ => rfl

theorem scopeHost_foldsPlain : scopeHost.FoldsPlain := by
  have lower (letter : CodePoint) (upper : 65 ≤ letter.val ∧ letter.val ≤ 90) :
      97 ≤ (Fin.ofNat 0x110000 (letter.val + 32)).val := by
    simp only [Fin.ofNat]
    omega
  constructor
  · intro string plain
    unfold hasMarker at plain ⊢
    rw [List.any_eq_false] at plain ⊢
    intro letter member
    obtain ⟨old, inside, rfl⟩ := List.mem_map.mp member
    split
    · rename_i upper
      have big := lower old upper
      simp only [Bool.or_eq_true, decide_eq_true_eq]
      rintro ((marker | marker) | marker) <;> rw [marker] at big <;> revert big <;> decide
    · exact plain old inside
  · intro string ends
    change (string.map _).getLast? ≠ _
    rw [List.getLast?_map]
    cases last : string.getLast? with
    | none => simp
    | some letter =>
        rw [last] at ends
        rw [Option.map_some, ne_eq, Option.some.injEq] at *
        split
        · rename_i upper
          have big := lower letter upper
          intro slash
          rw [slash] at big
          revert big
          decide
        · exact ends

/-- `src/a.py` -/
def sourceFile : GitPath := ⟨encode (text "src/a.py"), by decide, by decide⟩

/-- `sub/src/a.py` -/
def nestedSourceFile : GitPath := ⟨encode (text "sub/src/a.py"), by decide, by decide⟩

/-- A modified file at the top level is protected. -/
theorem dirtyProtected_sourceFile :
    DirtyProtected scopeHost asciiName [] [modifiedEntry sourceFile] [] := by
  refine (dirtyProtected_iff scopeHost_foldsAscii asciiName [] _ []).mpr ?_
  intro dirtyPatterns nestedPatterns dirtyRead _ name reported spelled spells
  apply sheltered_of_top scopeHost_foldsPlain _ _ dirtyRead nestedPatterns reported spells
  · intro entry member
    rw [List.mem_singleton.mp member]
    exact ⟨by decide, by decide⟩
  · intro entry member _
    rw [List.mem_singleton.mp member]
    refine ⟨by decide, ⟨?_, ?_⟩⟩
    · intro part first letter starts
      cases first
      cases starts
      rfl
    · intro part last letter ends
      cases last
      cases ends
      rfl

/-- A modified file below the project root `sub` is not: git lists it from the top level. -/
theorem not_dirtyProtected_nestedSourceFile :
    ¬∀ root entries nested, DirtyProtected scopeHost asciiName root entries nested := by
  intro protects
  have written : (scopeHost.precheckScope (openContract [text "src/**"]) [] true
      (scopeHost.sha256 []) (dirtyTracked asciiName (output [modifiedEntry nestedSourceFile]))
      []).bind (fun scope => scopeHost.writeAuthorized scope (text "src/a.py")
        (text "IMPLEMENTATION") (scopeHost.sha256 [])) = .ok true := by
    decide +kernel
  obtain ⟨scope, compiled, allowed⟩ := bind_eq_ok.mp written
  have refused := protects (encode (text "sub/")) [modifiedEntry nestedSourceFile] [] _ _ _ _ _
    compiled (encode (text "src/a.py"))
    ⟨_, List.mem_singleton_self _, Or.inr rfl, by decide⟩ (text "src/a.py")
    ⟨by decide, by decide⟩ (text "IMPLEMENTATION") (scopeHost.sha256 [])
  rw [refused] at allowed
  cases allowed

end CarbonLab.Aegis
