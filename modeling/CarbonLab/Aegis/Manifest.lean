import CarbonLab.Lib.Lines
import CarbonLab.Aegis.DirtyFiles
import CarbonLab.Aegis.PathSpelling

/-!
# The manifest of a distribution

`_safe_relative`, `is_mutable`, `is_forbidden`, `entries`, `render` and `parse` of
`manifest.py`.  The text of a refused path inside a message is left out.
-/

namespace CarbonLab.Aegis

/-- `ManifestError` -/
structure ManifestError where
  message : Text
  deriving DecidableEq, Repr

/-! ## Distribution trees -/

/-- The name of a file in its directory. -/
structure FileName where
  name : Text
  filled : name ≠ []
  noSlash : code '/' ∉ name
  noZero : 0 ∉ name
  notSelf : name ≠ text "."
  notParent : name ≠ text ".."
  deriving DecidableEq

/-- What stands at a path. -/
inductive TreeNode
  | file (content : Bytes)
  | directory
  | symlink
  /-- A pipe, a socket or a device. -/
  | special
  deriving DecidableEq, Repr

/-- The directory `.agents` of a root, and what is below it in the order in which the file
system lists it. -/
structure DistributionTree where
  agents : Option TreeNode
  nodes : List (List FileName × TreeNode)
  below : nodes ≠ [] → agents = some .directory
  named : ∀ node ∈ nodes, node.1 ≠ []
  distinct : (nodes.map (·.1)).Nodup
  parents : ∀ node ∈ nodes, ∀ parent name, node.1 = parent ++ [name] → parent ≠ [] →
    (parent, .directory) ∈ nodes

/-- `path.relative_to(root).as_posix()` -/
def relativeOf (names : List FileName) : Text :=
  joinParts (text ".agents" :: names.map (·.name))

/-! ## Excluded paths -/

namespace Manifest

/-- `MUTABLE_PREFIXES` -/
def mutablePrefixes : List Text :=
  [text ".agents/runtime/", text ".agents/persistent/", text ".agents/local-modules/",
    text ".agents/laws/project/"]

/-- `MUTABLE_EXACT` -/
def mutableExact : List Text := [text ".agents/project.md", text ".agents/MANIFEST.sha256"]

/-- `FORBIDDEN_PARTS` -/
def forbiddenParts : List Text :=
  [text "__pycache__", text ".pytest_cache", text ".mypy_cache", text ".ruff_cache"]

/-- `FORBIDDEN_SUFFIXES` -/
def forbiddenSuffixes : List Text :=
  [text ".pyc", text ".pyo", text ".log", text ".tmp", text ".swp"]

/-- `FORBIDDEN_NAMES` -/
def forbiddenNames : List Text :=
  [text ".coverage", text "coverage.xml", text "subagent-lease.json", text ".state.lock",
    text ".evidence.lock"]

/-- `is_mutable` -/
def isMutable (relative : Text) : Bool :=
  relative ∈ mutableExact || mutablePrefixes.any (startsWith · relative)

/-- `Path(name).suffix`: what stands behind the last dot, with the dot, unless the dot is the
first or the last character. -/
def suffix (name : Text) : Text :=
  let behind := (name.reverse.takeWhile (· ≠ code '.')).reverse
  if behind.length + 1 < name.length ∧ behind ≠ [] then code '.' :: behind else []

/-- `is_forbidden`.  No letter outside ASCII has a lower case that stands in a forbidden
suffix. -/
def isForbidden (relative : Text) : Bool :=
  let parts := pathParts relative
  let name := parts.getLastD []
  parts.any (· ∈ forbiddenParts) || lowerAscii (suffix name) ∈ forbiddenSuffixes ||
    name ∈ forbiddenNames

/-- Does a manifest leave a path out? -/
def isExcluded (relative : Text) : Bool := isMutable relative || isForbidden relative

/-- The line of one file. -/
def formatLine (entry : Text × Text) : Text := entry.2 ++ text "  " ++ entry.1 ++ [lineFeed]

/-- The lines of a mapping from paths to digests. -/
def write (mapping : List (Text × Text)) : Text := mapping.flatMap formatLine

/-! ## Reading -/

/-- `_safe_relative` -/
def safeRelative (value : Text) : Except ManifestError Text :=
  if value = [] ∨ code '\\' ∈ value ∨ 0 ∈ value then
    .error ⟨text "non-canonical manifest path"⟩
  else if value.head? = some (code '/') ∨
      ∃ part ∈ pathParts value, part ∈ [[], text ".", text ".."] then
    .error ⟨text "unsafe manifest path"⟩
  else if (pathParts value).head? ≠ some (text ".agents") then
    .error ⟨text "manifest path is outside .agents distribution"⟩
  else .ok (joinParts (pathParts value))

/-- Does a path match `\S(?:.*\S)?`? -/
def spansLine (path : Text) : Bool :=
  path.head?.any (fun letter => !isSpace letter) &&
    path.getLast?.any (fun letter => !isSpace letter) && lineFeed ∉ path

/-- `re.fullmatch(r"([0-9a-f]{64})  (\S(?:.*\S)?)", line)` -/
def matchLine (line : Text) : Option (Text × Text) :=
  if isCanonicalDigest (line.take 64) ∧ (line.drop 64).take 2 = text "  " ∧
      spansLine (line.drop 66) then
    some (line.take 64, line.drop 66)
  else none

/-- One turn of the loop of `parse`. -/
def parseLine (result : List (Text × Text)) (previous : Option Text) (number : ℕ) (line : Text) :
    Except ManifestError (Text × Text) :=
  match matchLine line with
  | none => .error ⟨text "malformed manifest line " ++ intText number⟩
  | some (digest, rawPath) =>
      if !isCanonicalDigest digest then
        .error ⟨text "invalid SHA-256 digest at line " ++ intText number⟩
      else do
        let relative ← safeRelative rawPath
        if (result.lookup relative).isSome then
          .error ⟨text "duplicate manifest path at line " ++ intText number ++ text ": " ++ relative⟩
        else if previous.any (relative ≤ ·) then
          .error ⟨text "manifest paths are not in strict deterministic order"⟩
        else if isMutable relative || isForbidden relative then
          .error ⟨text "manifest contains excluded/generated path: " ++ relative⟩
        else .ok (relative, digest)

/-- The loop of `parse`; a dictionary keeps the order in which its keys were added. -/
def parseLines (result : List (Text × Text)) (previous : Option Text) (number : ℕ) :
    List Text → Except ManifestError (List (Text × Text))
  | [] => .ok result
  | line :: lines => do
      let entry ← parseLine result previous number line
      parseLines (result ++ [entry]) (some entry.1) (number + 1) lines

/-- `parse` -/
def parse (string : Text) : Except ManifestError (List (Text × Text)) :=
  if string ≠ [] ∧ string.getLast? ≠ some lineFeed then
    .error ⟨text "manifest must end with a newline"⟩
  else do
    let result ← parseLines [] none 1 (lineBodies string)
    if result = [] then .error ⟨text "manifest must not be empty"⟩ else .ok result

end Manifest

/-! ## Writing -/

namespace Host

variable (host : Host)

/-- What `entries` yields for the sorted paths. -/
def yieldEntries : List (Text × TreeNode) → Except ManifestError (List (Text × Text))
  | [] => .ok []
  | (relative, node) :: later =>
      if Manifest.isMutable relative || Manifest.isForbidden relative then yieldEntries later
      else
        match node with
        | .symlink =>
            .error ⟨text "immutable distribution path is a symlink: " ++ relative⟩
        | .file content => do
            let rest ← yieldEntries later
            .ok ((relative, host.sha256 content) :: rest)
        | _ => yieldEntries later

/-- The paths below `.agents` in the order of their absolute paths; `root` is the text of the
root, with a slash at its end. -/
def sortedNodes (root : Text) (tree : DistributionTree) : List (Text × TreeNode) :=
  (tree.nodes.map fun node => (relativeOf node.1, node.2)).insertionSort fun first second =>
    root ++ first.1 ≤ root ++ second.1

/-- `entries` -/
def manifestEntries (root : Text) (tree : DistributionTree) :
    Except ManifestError (List (Text × Text)) :=
  if tree.agents ≠ some .directory then
    .error ⟨text ".agents distribution root is missing or symlinked"⟩
  else host.yieldEntries (sortedNodes root tree)

/-- `render` -/
def renderManifest (root : Text) (tree : DistributionTree) : Except ManifestError Text :=
  Manifest.write <$> host.manifestEntries root tree

end Host

end CarbonLab.Aegis
