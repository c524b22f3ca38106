import CarbonLab.Aegis.ManifestCodec

/-!
# Round trips of manifests

What `render` prints is read back as the entries of its tree exactly when the paths of the tree
fit on lines, and what `parse` accepts is printed again exactly when it is spelled the way
`render` spells it.
-/

namespace CarbonLab.Aegis

open Manifest

/-! ## Entries -/

/-- A common start does not change an order. -/
theorem append_le_append_iff (start : Text) {first second : Text} :
    start ++ first ≤ start ++ second ↔ first ≤ second := by
  induction start with
  | nil => rfl
  | cons letter start ih =>
      rw [← ih, ← not_lt, ← not_lt, List.cons_append, List.cons_append, List.cons_lt_cons_iff]
      simp

/-- The paths of the sorted nodes, in strict order. -/
theorem sortedNodes_ordered (root : Text) (tree : DistributionTree) :
    ((Host.sortedNodes root tree).map (·.1)).Pairwise (· < ·) := by
  have sorted : (Host.sortedNodes root tree).Pairwise fun first second => first.1 ≤ second.1 := by
    have total := @List.pairwise_insertionSort _
      (fun first second : Text × TreeNode => root ++ first.1 ≤ root ++ second.1) _
      ⟨fun first second => le_total _ _⟩ ⟨fun first second third => le_trans⟩
      (tree.nodes.map fun node => (relativeOf node.1, node.2))
    exact total.imp fun ordered => (append_le_append_iff root).mp ordered
  have distinct : ((Host.sortedNodes root tree).map (·.1)).Nodup := by
    unfold Host.sortedNodes
    rw [((List.perm_insertionSort _ _).map _).nodup_iff]
    have names : ((tree.nodes.map fun node => (relativeOf node.1, node.2)).map (·.1)) =
        (tree.nodes.map (·.1)).map relativeOf := by
      rw [List.map_map, List.map_map]
      rfl
    rw [names]
    exact tree.distinct.map relativeOf_injective
  exact ((List.pairwise_map.mpr sorted).and distinct).imp fun both => lt_of_le_of_ne both.1 both.2

namespace Host

variable {host : Host} {root : Text} {tree : DistributionTree} {entries : List (Text × Text)}

variable (host) in
/-- The entry of one path, if it has one. -/
def entryOf (node : Text × TreeNode) : Option (Text × Text) :=
  if isExcluded node.1 then none
  else
    match node.2 with
    | .file content => some (node.1, host.sha256 content)
    | _ => none

theorem yieldEntries_eq {nodes : List (Text × TreeNode)}
    (yielded : host.yieldEntries nodes = .ok entries) : entries = nodes.filterMap host.entryOf := by
  induction nodes generalizing entries with
  | nil =>
      cases yielded
      rfl
  | cons node later ih =>
      obtain ⟨relative, kind⟩ := node
      rw [yieldEntries.eq_def] at yielded
      dsimp only at yielded
      cases excluded : isExcluded relative with
      | true =>
          rw [if_pos (by exact excluded)] at yielded
          rw [List.filterMap_cons_none (by simp [entryOf, excluded])]
          exact ih yielded
      | false =>
          rw [if_neg (by simpa [isExcluded] using excluded)] at yielded
          cases kind with
          | file content =>
              obtain ⟨rest, yieldedRest, returned⟩ := bind_eq_ok.mp yielded
              cases returned
              rw [List.filterMap_cons_some
                (show host.entryOf (relative, .file content) = some (relative, host.sha256 content) by
                  simp [entryOf, excluded]), ih yieldedRest]
          | symlink => cases yielded
          | directory =>
              rw [List.filterMap_cons_none (by simp [entryOf, excluded])]
              exact ih yielded
          | special =>
              rw [List.filterMap_cons_none (by simp [entryOf, excluded])]
              exact ih yielded

/-- The entry of a path names it. -/
theorem entryOf_eq_some {node : Text × TreeNode} {entry : Text × Text} :
    host.entryOf node = some entry ↔ ∃ content, node.2 = .file content ∧
      isExcluded node.1 = false ∧ entry = (node.1, host.sha256 content) := by
  obtain ⟨relative, kind⟩ := node
  unfold entryOf
  cases excluded : isExcluded relative with
  | true => simp
  | false => cases kind <;> simp [eq_comm]

theorem manifestEntries_eq (listed : host.manifestEntries root tree = .ok entries) :
    entries = (sortedNodes root tree).filterMap host.entryOf := by
  unfold manifestEntries at listed
  split at listed
  · cases listed
  · exact yieldEntries_eq listed

/-- The entries are the files that are not left out. -/
theorem mem_manifestEntries (listed : host.manifestEntries root tree = .ok entries)
    {entry : Text × Text} :
    entry ∈ entries ↔ ∃ names content, (names, .file content) ∈ tree.nodes ∧
      isExcluded (relativeOf names) = false ∧ entry = (relativeOf names, host.sha256 content) := by
  rw [manifestEntries_eq listed, List.mem_filterMap]
  have sorted (node : Text × TreeNode) : node ∈ sortedNodes root tree ↔
      ∃ names, (names, node.2) ∈ tree.nodes ∧ relativeOf names = node.1 := by
    unfold sortedNodes
    rw [(List.perm_insertionSort _ _).mem_iff, List.mem_map]
    constructor
    · rintro ⟨⟨names, kind⟩, member, rfl⟩
      exact ⟨names, member, rfl⟩
    · rintro ⟨names, member, named⟩
      exact ⟨(names, node.2), member, Prod.ext named rfl⟩
  constructor
  · rintro ⟨node, member, yields⟩
    obtain ⟨content, isFile, kept, rfl⟩ := entryOf_eq_some.mp yields
    obtain ⟨names, inside, named⟩ := (sorted node).mp member
    exact ⟨names, content, isFile ▸ inside, named ▸ kept, by rw [named]⟩
  · rintro ⟨names, content, inside, kept, rfl⟩
    exact ⟨(relativeOf names, .file content), (sorted _).mpr ⟨names, inside, rfl⟩,
      entryOf_eq_some.mpr ⟨content, rfl, kept, rfl⟩⟩

theorem canonical_sha256 (content : Bytes) : isCanonicalDigest (host.sha256 content) = true := by
  obtain ⟨sized, hex⟩ := host.sha256_hex content
  unfold isCanonicalDigest
  simp only [Bool.and_eq_true, decide_eq_true_eq, List.all_eq_true]
  exact ⟨sized, hex⟩

/-- The entries are in strict order. -/
theorem manifestEntries_ordered (listed : host.manifestEntries root tree = .ok entries) :
    (entries.map (·.1)).Pairwise (· < ·) := by
  rw [manifestEntries_eq listed]
  have pairs := List.pairwise_map.mp (sortedNodes_ordered root tree)
  refine List.pairwise_map.mpr (List.pairwise_filterMap.mpr (pairs.imp ?_))
  intro first second ordered entry yields other otherYields
  obtain ⟨_, _, _, rfl⟩ := entryOf_eq_some.mp yields
  obtain ⟨_, _, _, rfl⟩ := entryOf_eq_some.mp otherYields
  exact ordered

end Host

/-! ## Trees -/

/-- The files of a tree whose paths a manifest can hold: on one line, without backslashes and
without white space at the end. -/
def DistributionTree.Recordable (tree : DistributionTree) : Prop :=
  ∀ names content, (names, .file content) ∈ tree.nodes → isExcluded (relativeOf names) = false →
    OneLine (relativeOf names) ∧ code '\\' ∉ relativeOf names ∧
      ∀ last ∈ (relativeOf names).getLast?, isSpace last = false

/-- Two mappings say the same. -/
def SameMapping (first second : List (Text × Text)) : Prop :=
  ∀ key, first.lookup key = second.lookup key

namespace Manifest

theorem bodyOf_inj {digest digest' path path' : Text} (first : isCanonicalDigest digest = true)
    (second : isCanonicalDigest digest' = true)
    (same : digest ++ text "  " ++ path = digest' ++ text "  " ++ path') : path = path' := by
  have sized := (length_of_digest first).trans (length_of_digest second).symm
  exact (List.append_inj same (by simp [sized])).2

/-- A path that a line can hold is read as itself. -/
theorem reads_relativeOf {names : List FileName} {digest : Text}
    (canonical : isCanonicalDigest digest = true) (kept : isExcluded (relativeOf names) = false)
    (plain : OneLine (relativeOf names)) (slashes : code '\\' ∉ relativeOf names)
    (ends : ∀ last ∈ (relativeOf names).getLast?, isSpace last = false) :
    Reads (bodyOf (relativeOf names, digest)) (relativeOf names, digest) (relativeOf names) := by
  have head := head?_relativeOf names
  refine ⟨rfl, canonical, ?_, ?_, kept⟩
  · have feed : lineFeed ∉ relativeOf names := fun member => by
      have inside := plain _ member
      cases inside
    obtain ⟨last, isLast⟩ : ∃ last, (relativeOf names).getLast? = some last := by
      cases is : (relativeOf names).getLast? with
      | none =>
          rw [List.getLast?_eq_none_iff] at is
          rw [is] at head
          cases head
      | some last => exact ⟨last, rfl⟩
    unfold spansLine
    rw [head, isLast]
    simp [feed, ends last isLast]
    decide
  · refine safeRelative_eq_ok.mpr ⟨?_, slashes, zero_not_mem_relativeOf names, ?_, ?_, ?_⟩
    · rw [pathParts_relativeOf]
      rfl
    · rw [head]
      decide
    · rw [pathParts_relativeOf]
      intro member
      rcases List.mem_cons.mp member with agents | member
      · exact absurd agents (by simp)
      · obtain ⟨name, _, parent⟩ := List.mem_map.mp member
        exact name.notParent parent
    · rw [pathParts_relativeOf]
      rfl

end Manifest

/-! ## From trees to texts and back -/

variable {host : Host} {root string : Text} {tree : DistributionTree}
  {entries final : List (Text × Text)}

theorem write_eq_nil {mapping : List (Text × Text)} : write mapping = [] ↔ mapping = [] := by
  cases mapping with
  | nil => exact iff_of_true rfl rfl
  | cons entry mapping => simp [write, formatLine]

/-- The printed entries of a tree whose paths fit on lines are read as these entries. -/
theorem parse_write (listed : host.manifestEntries root tree = .ok entries)
    (filled : entries ≠ []) (recordable : tree.Recordable) :
    parse (write entries) = .ok entries := by
  have files {entry : Text × Text} (member : entry ∈ entries) :=
    (Host.mem_manifestEntries listed).mp member
  have canonical : ∀ entry ∈ entries, isCanonicalDigest entry.2 = true := by
    intro entry member
    obtain ⟨names, content, _, _, rfl⟩ := files member
    exact Host.canonical_sha256 content
  have plain : ∀ entry ∈ entries, OneLine entry.1 := by
    intro entry member
    obtain ⟨names, content, inside, kept, rfl⟩ := files member
    exact (recordable names content inside kept).1
  refine parse_eq_ok.mpr ⟨getLast?_write entries, filled, ?_, ?_⟩
  · rw [lineBodies_write canonical plain, List.forall₂_map_left_iff, List.forall₂_same]
    intro entry member
    obtain ⟨names, content, inside, kept, rfl⟩ := files member
    obtain ⟨line, slashes, ends⟩ := recordable names content inside kept
    exact ⟨_, reads_relativeOf (Host.canonical_sha256 content) kept line slashes ends⟩
  · exact (Host.manifestEntries_ordered listed).isChain

/-- Only a tree whose paths fit on lines is read back as its entries. -/
theorem recordable_of_parse (listed : host.manifestEntries root tree = .ok entries)
    (parsed : parse (write entries) = .ok final) (same : SameMapping final entries) :
    tree.Recordable := by
  have canonical : ∀ entry ∈ entries, isCanonicalDigest entry.2 = true := by
    intro entry member
    obtain ⟨names, content, _, _, rfl⟩ := (Host.mem_manifestEntries listed).mp member
    exact Host.canonical_sha256 content
  -- Every path of the tree is a path that was read.
  have accepted : ∀ entry ∈ entries, OneLine entry.1 ∧ code '\\' ∉ entry.1 := by
    intro entry member
    have found : (entries.lookup entry.1).isSome = true := by
      rw [List.lookup_isSome_iff]
      exact ⟨entry, member, by simp⟩
    rw [← same entry.1] at found
    obtain ⟨digest, found⟩ := Option.isSome_iff_exists.mp found
    obtain ⟨before, after, split, _⟩ := List.lookup_eq_some_iff.mp found
    exact oneLine_of_parse parsed (entry.1, digest) (by simp [split])
  obtain ⟨_, _, reads, _⟩ := parse_eq_ok.mp parsed
  rw [lineBodies_write canonical fun entry member => (accepted entry member).1] at reads
  intro names content inside kept
  have member : (relativeOf names, host.sha256 content) ∈ entries :=
    (Host.mem_manifestEntries listed).mpr ⟨names, content, inside, kept, rfl⟩
  obtain ⟨line, slashes⟩ := accepted _ member
  refine ⟨line, slashes, ?_⟩
  obtain ⟨read, _, rawPath, read⟩ := exists_of_forall₂ reads (List.mem_map_of_mem member)
  have spelled : relativeOf names = rawPath :=
    bodyOf_inj (Host.canonical_sha256 content) read.digest read.line_eq
  have spans := read.spans
  rw [← spelled] at spans
  unfold spansLine at spans
  simp only [Bool.and_eq_true] at spans
  intro last isLast
  have visible := spans.1.2
  rw [isLast] at visible
  simpa using visible

/-! ## From texts to mappings and back -/

/-- A text that `render` could have printed: no line boundary but the line feed, and paths
without empty and dot components. -/
def Canonical (string : Text) : Prop :=
  (∀ letter ∈ string, isBreak letter = true → letter = lineFeed) ∧
    ∀ line ∈ lineBodies string, ∀ part ∈ (line.drop 66).splitOn (code '/'),
      part ≠ [] ∧ part ≠ text "."

/-- What a line says is printed as the line when its path has no empty and no dot component. -/
theorem bodyOf_eq_iff {line rawPath : Text} {entry : Text × Text} (read : Reads line entry rawPath) :
    bodyOf entry = line ↔
      ∀ part ∈ (line.drop 66).splitOn (code '/'), part ≠ [] ∧ part ≠ text "." := by
  obtain ⟨relative, _, _, _, _, agents⟩ := safeRelative_eq_ok.mp read.safe
  have behind : line.drop 66 = rawPath := by
    rw [read.line_eq]
    exact List.drop_left' (by simp [length_of_digest read.digest, text])
  have filled : rawPath ≠ [] := by
    rintro rfl
    cases agents
  have same : bodyOf entry = line ↔ joinParts (pathParts rawPath) = rawPath := by
    rw [read.line_eq, bodyOf, relative, List.append_cancel_left_eq]
  rw [same, joinParts_pathParts_eq_self, behind, or_iff_right filled]

theorem map_bodyOf_iff {lines : List Text}
    (reads : List.Forall₂ (fun line entry => ∃ rawPath, Reads line entry rawPath) lines final) :
    final.map bodyOf = lines ↔
      ∀ line ∈ lines, ∀ part ∈ (line.drop 66).splitOn (code '/'),
        part ≠ [] ∧ part ≠ text "." := by
  induction reads with
  | nil => simp
  | cons read _ ih =>
      obtain ⟨_, read⟩ := read
      rw [List.map_cons, List.cons.injEq, bodyOf_eq_iff read, ih, List.forall_mem_cons]

/-- An accepted text is printed again exactly when it is canonical. -/
theorem write_parse_iff (parsed : parse string = .ok final) :
    write final = string ↔ Canonical string := by
  obtain ⟨whole, _, reads, _⟩ := parse_eq_ok.mp parsed
  have plain := oneLine_of_parse parsed
  have canonical : ∀ entry ∈ final, isCanonicalDigest entry.2 = true := by
    intro entry member
    obtain ⟨_, _, _, read⟩ := exists_of_forall₂_right reads member
    exact read.digest
  have bodies := map_bodyOf_iff reads
  constructor
  · intro printed
    have lines := lineBodies_write canonical fun entry member => (plain entry member).1
    rw [printed] at lines
    refine ⟨?_, bodies.mp lines.symm⟩
    intro letter member boundary
    rw [← printed, write_eq, List.mem_flatMap] at member
    obtain ⟨body, listed, inside⟩ := member
    obtain ⟨entry, there, rfl⟩ := List.mem_map.mp listed
    rcases List.mem_append.mp inside with inside | feed
    · rw [(oneLine_bodyOf (canonical entry there)).mpr (plain entry there).1 letter inside]
        at boundary
      cases boundary
    · exact List.mem_singleton.mp feed
  · rintro ⟨feeds, parts⟩
    rw [write_eq, bodies.mpr parts]
    exact flatMap_bodies feeds whole

/-- The two directions of the manifest codec. -/
theorem manifest_codec_iff (host : Host) (root : Text) (tree : DistributionTree) (string : Text) :
    (∀ entries, host.renderManifest root tree = .ok string → string ≠ [] →
      host.manifestEntries root tree = .ok entries →
        ((∃ final, parse string = .ok final ∧ SameMapping final entries) ↔ tree.Recordable)) ∧
      ∀ final, parse string = .ok final → (write final = string ↔ Canonical string) := by
  refine ⟨?_, fun final => write_parse_iff⟩
  intro entries rendered present listed
  unfold Host.renderManifest at rendered
  rw [listed] at rendered
  cases rendered
  constructor
  · rintro ⟨final, parsed, same⟩
    exact recordable_of_parse listed parsed same
  · intro recordable
    have filled : entries ≠ [] := fun missing => present (write_eq_nil.mpr missing)
    exact ⟨entries, parse_write listed filled recordable, fun key => rfl⟩

/-- The tree of one file. -/
def oneFile (name : FileName) : DistributionTree where
  agents := some .directory
  nodes := [([name], .file [])]
  below _ := rfl
  named node member := by simp [List.mem_singleton.mp member]
  distinct := by simp
  parents node member parent last := by
    rw [List.mem_singleton.mp member]
    intro split filled
    cases parent with
    | nil => exact absurd rfl filled
    | cons first parent => simp at split

/-- A host whose digests are all zero. -/
def zeroHost : Host := tableHost []

/-- `VERSION` -/
def versionName : FileName where
  name := text "VERSION"
  filled := by simp [text]
  noSlash := by simp [text, code]
  noZero := by simp [text]
  notSelf := by simp
  notParent := by simp

/-- `VERSION` with a space behind it. -/
def spacedName : FileName where
  name := text "VERSION "
  filled := by simp [text]
  noSlash := by simp [text, code]
  noZero := by simp [text]
  notSelf := by simp
  notParent := by simp

/-- The one line of a manifest whose digest is zero. -/
def zeroLine (path : String) : Text :=
  List.replicate 64 (code '0') ++ text "  " ++ text path ++ [lineFeed]

theorem manifest_codec_version :
    zeroHost.renderManifest (text "/") (oneFile versionName) =
        .ok (zeroLine ".agents/VERSION") ∧
      (∃ entries, zeroHost.manifestEntries (text "/") (oneFile versionName) = .ok entries ∧
        ((∃ final, parse (zeroLine ".agents/VERSION") = .ok final ∧ SameMapping final entries) ↔
          (oneFile versionName).Recordable)) ∧
      ∃ final, parse (zeroLine ".agents/VERSION") = .ok final ∧
        (write final = zeroLine ".agents/VERSION" ↔ Canonical (zeroLine ".agents/VERSION")) := by
  have rendered : zeroHost.renderManifest (text "/") (oneFile versionName) =
      .ok (zeroLine ".agents/VERSION") := by decide +kernel
  have listed : zeroHost.manifestEntries (text "/") (oneFile versionName) =
      .ok [(text ".agents/VERSION", List.replicate 64 (code '0'))] := by decide +kernel
  have parsed : parse (zeroLine ".agents/VERSION") =
      .ok [(text ".agents/VERSION", List.replicate 64 (code '0'))] := by decide +kernel
  obtain ⟨prints, reads⟩ :=
    manifest_codec_iff zeroHost (text "/") (oneFile versionName) (zeroLine ".agents/VERSION")
  exact ⟨rendered, ⟨_, listed, prints _ rendered (by simp [zeroLine]) listed⟩,
    ⟨_, parsed, reads _ parsed⟩⟩

/-- A name that ends with a space is printed and not read back, and a path with an empty
component is read and not printed back. -/
theorem manifest_codec_fails :
    (∃ string message, zeroHost.renderManifest (text "/") (oneFile spacedName) = .ok string ∧
      string ≠ [] ∧ parse string = .error message) ∧
      ∃ final, parse (zeroLine ".agents//VERSION") = .ok final ∧
        write final ≠ zeroLine ".agents//VERSION" := by
  constructor
  · refine ⟨zeroLine ".agents/VERSION ", ⟨text "malformed manifest line 1"⟩, ?_, ?_, ?_⟩
    · decide +kernel
    · simp [zeroLine]
    · decide +kernel
  · refine ⟨[(text ".agents/VERSION", List.replicate 64 (code '0'))], ?_, ?_⟩
    · decide +kernel
    · decide +kernel

end CarbonLab.Aegis
