import CarbonLab.Aegis.Host
import CarbonLab.Lib.Glob
import Mathlib.Data.List.Dedup

/-!
# Write scopes

`_normalize`, `_covered`, `_boundary_patterns`, `compile_write_scope`,
`validate_write_scope` and `write_authorized` of `scope.py`.  The text of a path inside a
message is left out.
-/

namespace CarbonLab.Aegis

/-- What the scope and the contract functions raise. -/
inductive ScopeFault
  | scopeError (message : Text)
  | policyError (message : Text)
  /-- `IndexError`: the first part of a path that has no parts. -/
  | indexError
  deriving DecidableEq, Repr

/-- `if not condition: raise fault` -/
def demand (condition : Prop) [Decidable condition] (fault : ScopeFault) :
    Except ScopeFault Unit :=
  if condition then .ok () else .error fault

@[simp] theorem demand_eq_ok {condition : Prop} [Decidable condition] {fault : ScopeFault}
    {value : Unit} : demand condition fault = .ok value ↔ condition := by
  unfold demand
  split <;> simp_all

/-! ## Paths -/

/-- `string.replace("\\", "/")` -/
def forwardSlashes (string : Text) : Text :=
  string.map fun letter => if letter = code '\\' then code '/' else letter

/-- `while string.startswith("./"): string = string[2:]` -/
def dropDots : Text → Text
  | first :: second :: rest =>
      if first = code '.' ∧ second = code '/' then dropDots rest else first :: second :: rest
  | short => short

/-- `PurePosixPath(string).parts` of a relative path. -/
def pathParts (string : Text) : List Text :=
  (string.splitOn (code '/')).filter fun part => part ≠ [] ∧ part ≠ text "."

/-- `PurePosixPath(string).as_posix()` of a relative path. -/
def joinParts (parts : List Text) : Text := [code '/'].intercalate parts

/-- `string.rstrip("/")` -/
def stripSlashes (string : Text) : Text :=
  (string.reverse.dropWhile (· = code '/')).reverse

/-- `_covered` -/
def covered (path pattern : Text) : Bool :=
  let pattern := stripSlashes pattern
  if (text "/**").isSuffixOf pattern then
    let start := stripSlashes (pattern.take (pattern.length - 3))
    path = start || startsWith (start ++ [code '/']) path
  else fnmatchcase path pattern

/-- `_matches_any` -/
def matchesAny (path : Text) (patterns : List Text) : Bool := patterns.any (covered path)

/-- `sorted(set(values))` -/
def sortedSet (values : List Text) : List Text := values.dedup.insertionSort (· ≤ ·)

@[simp] theorem mem_sortedSet {values : List Text} {value : Text} :
    value ∈ sortedSet values ↔ value ∈ values := by
  rw [sortedSet, (List.perm_insertionSort _ _).mem_iff, List.mem_dedup]

theorem matchesAny_congr {path : Text} {first second : List Text}
    (same : ∀ pattern, pattern ∈ first ↔ pattern ∈ second) :
    matchesAny path first = matchesAny path second := by
  rw [Bool.eq_iff_iff, matchesAny, matchesAny, List.any_eq_true, List.any_eq_true]
  simp only [same]

@[simp] theorem matchesAny_append (path : Text) (first second : List Text) :
    matchesAny path (first ++ second) = (matchesAny path first || matchesAny path second) :=
  List.any_append

/-- Every pattern of a shorter list is in the longer one. -/
theorem matchesAny_of_subset {path : Text} {first second : List Text}
    (inside : ∀ pattern ∈ first, pattern ∈ second) (found : matchesAny path first = true) :
    matchesAny path second = true := by
  unfold matchesAny at found ⊢
  rw [List.any_eq_true] at found ⊢
  obtain ⟨pattern, member, covers⟩ := found
  exact ⟨pattern, inside pattern member, covers⟩

/-- The text that `_normalize` folds. -/
def posixPath (pattern : Bool) (value : Text) : Except ScopeFault Text := do
  demand (strip value ≠ []) (.scopeError "scope path must be a non-empty string")
  let string := dropDots (forwardSlashes (strip value))
  let absolute := ScopeFault.scopeError "scope path is absolute or traversing"
  demand (string.head? ≠ some (code '/')) absolute
  match pathParts string with
  | [] => .error .indexError
  | first :: rest =>
      demand (code ':' ∉ first ∧ text ".." ∉ first :: rest) absolute
      demand (pattern = true ∨ hasMarker string = false)
        (.scopeError "concrete write target must not contain a glob")
      .ok (joinParts (first :: rest))

namespace Host

variable (host : Host)

/-- `_normalize` -/
def normalizePath (pattern : Bool) (value : Text) : Except ScopeFault Text :=
  host.casefold <$> posixPath pattern value

/-- `_patterns` -/
def patterns (values : List Text) : Except ScopeFault (List Text) :=
  sortedSet <$> values.mapM (host.normalizePath true)

/-- The patterns of one protected path: itself, and what is below it unless it is a
pattern. -/
def boundaryOf (value : Text) : List Text :=
  let value := stripSlashes value
  if hasMarker value then [value] else [value, value ++ text "/**"]

/-- `_boundary_patterns` -/
def boundaryPatterns (values : List Text) : Except ScopeFault (List Text) :=
  (fun paths => sortedSet (paths.flatMap boundaryOf)) <$> values.mapM (host.normalizePath true)

end Host

/-! ## Scopes -/

/-- `_SHA256_RE.fullmatch(string)` -/
def isCanonicalDigest (string : Text) : Bool :=
  string.length = 64 && string.all fun letter => letter ∈ text "0123456789abcdef"

/-- A compiled write scope. -/
structure WriteScope where
  schema : ℤ
  allow : List Text
  deny : List Text
  testPaths : List Text
  productionPaths : List Text
  generatedPaths : List Text
  referencePaths : List Text
  userDirty : List Text
  nestedRepositories : List Text
  baselineAuthorized : Bool
  governanceDigest : Text
  digest : Text
  deriving DecidableEq, Repr

namespace WriteScope

/-- A list of strings. -/
def strings (values : List Text) : Json := .arr (values.map .str)

/-- The scope without its own digest. -/
def body (scope : WriteScope) : Json :=
  .obj (Fields.ofPairs [("schema", .int scope.schema), ("allow", strings scope.allow),
    ("deny", strings scope.deny), ("test_paths", strings scope.testPaths),
    ("production_paths", strings scope.productionPaths),
    ("generated_paths", strings scope.generatedPaths),
    ("reference_paths", strings scope.referencePaths),
    ("user_dirty", strings scope.userDirty),
    ("nested_repositories", strings scope.nestedRepositories),
    ("baseline_authorized", .bool scope.baselineAuthorized),
    ("governance_digest", .str scope.governanceDigest)])

end WriteScope

/-- The `deny` patterns that every scope has. -/
def denyFloor : List Text :=
  [text ".agents", text ".agents/**", text "agents.md", text "**/agents.md"]

/-- The paths that `compile_write_scope` is given. -/
structure ScopePaths where
  allow : List Text
  deny : List Text
  testPaths : List Text
  productionPaths : List Text
  generatedPaths : List Text
  referencePaths : List Text
  userDirty : List Text
  nestedRepositories : List Text

/-- `PHASES` -/
def phases : List Text := [text "TEST_DESIGN", text "IMPLEMENTATION"]

namespace Host

variable (host : Host)

/-- `compile_write_scope` -/
def compileWriteScope (paths : ScopePaths) (baselineAuthorized : Bool)
    (governanceDigest : Text) : Except ScopeFault WriteScope := do
  demand (isCanonicalDigest governanceDigest)
    (.scopeError "write scope requires a canonical governance digest")
  let allow ← host.patterns paths.allow
  let deny ← host.patterns paths.deny
  let testPaths ← host.patterns paths.testPaths
  let productionPaths ← host.patterns paths.productionPaths
  let generatedPaths ← host.patterns paths.generatedPaths
  let referencePaths ← host.boundaryPatterns paths.referencePaths
  let userDirty ← host.boundaryPatterns paths.userDirty
  let nestedRepositories ← host.boundaryPatterns paths.nestedRepositories
  let value : WriteScope :=
    { schema := 1, allow, deny := sortedSet (deny ++ denyFloor), testPaths, productionPaths,
      generatedPaths, referencePaths, userDirty, nestedRepositories, baselineAuthorized,
      governanceDigest, digest := [] }
  .ok { value with digest := host.digest value.body }

/-- `validate_write_scope` -/
def validateWriteScope (scope : WriteScope) : Except ScopeFault Unit := do
  demand (scope.schema = 1) (.scopeError "invalid write-scope schema")
  demand (scope.digest = host.digest scope.body)
    (.scopeError "write-scope integrity digest mismatch")
  demand (isCanonicalDigest scope.governanceDigest)
    (.scopeError "write scope has invalid governance binding")

/-- The part of `write_authorized` that only looks at the normalized target. -/
def targetAuthorized (scope : WriteScope) (phase target : Text) : Bool :=
  let parts := target.splitOn (code '/')
  if parts.head? = some (text ".agents") ∨ parts.getLast? = some (text "agents.md") then false
  else if matchesAny target scope.deny ∨ matchesAny target scope.referencePaths ∨
      matchesAny target scope.userDirty ∨ matchesAny target scope.nestedRepositories then false
  else if matchesAny target scope.allow = false then false
  else if phase = text "TEST_DESIGN" then
    matchesAny target scope.testPaths && !matchesAny target scope.productionPaths
  else
    scope.baselineAuthorized && matchesAny target scope.productionPaths &&
      !matchesAny target scope.testPaths

/-- `write_authorized` -/
def writeAuthorized (scope : WriteScope) (path phase currentGovernanceDigest : Text) :
    Except ScopeFault Bool :=
  match host.validateWriteScope scope with
  | .error (.scopeError _) => .ok false
  | .error fault => .error fault
  | .ok _ =>
      match host.normalizePath false path with
      | .error (.scopeError _) => .ok false
      | .error fault => .error fault
      | .ok target =>
          if phase ∉ phases ∨ currentGovernanceDigest ≠ scope.governanceDigest then .ok false
          else .ok (targetAuthorized scope phase target)

end Host

end CarbonLab.Aegis
