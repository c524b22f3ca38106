import CarbonLab.Lib.Framing
import CarbonLab.Lib.Utf8
import CarbonLab.Aegis.ManifestRoundTrip

/-!
# The content digest of a release

`build_deployment_tree` of `release_source.py` computes it from the source files, and
`_deployment_content_sha256` of `manifest.py` from the deployed ones.  What else the two do is
left out.
-/

namespace CarbonLab.Aegis

open Manifest

/-- What the two functions raise. -/
inductive ContentFault
  | manifestError (message : Text)
  /-- A file cannot be read. -/
  | osError
  | unicodeEncodeError
  deriving DecidableEq, Repr

namespace Content

/-- `str(count).encode("ascii")` -/
def decimal (count : ℕ) : Bytes := encode (intText count)

/-- The frames of files, the paths in UTF-8. -/
def fileFrames (entries : List (Text × Bytes)) : Bytes :=
  frames 0 decimal (entries.map fun entry => (encode entry.1, entry.2))

/-- Can a path be encoded? -/
def Encodable (path : Text) : Prop := ∀ letter ∈ path, Passes false letter

instance (path : Text) : Decidable (Encodable path) := by
  unfold Encodable Passes
  infer_instance

/-- `relative.encode("utf-8") + b"\0" + str(len(payload)).encode("ascii") + b"\0" + payload` -/
def frameOf (relative : Text) (payload : Bytes) : Except ContentFault Bytes :=
  if Encodable relative then .ok (frame 0 decimal (encode relative, payload))
  else .error .unicodeEncodeError

/-! ## `_deployment_content_sha256` -/

/-- The loop over the sorted paths; `files` gives what stands at a path below the root. -/
def updateDeployed (files : Text → Option Bytes) : List Text → Except ContentFault Bytes
  | [] => .ok []
  | path :: rest =>
      let parts := pathParts path
      if path.head? = some (code '/') ∨ parts.head? ≠ some (text ".agents") ∨ parts.length < 2 then
        .error (.manifestError (text "release content path is outside .agents"))
      else
        match files path with
        | none => .error .osError
        | some payload => do
            let front ← frameOf (joinParts (parts.drop 1)) payload
            let later ← updateDeployed files rest
            return front ++ later

/-- `_deployment_content_sha256` -/
def deploymentContentSha256 (sha256 : Bytes → Text) (files : Text → Option Bytes)
    (expected : List (Text × Text)) : Except ContentFault Text :=
  sha256 <$> updateDeployed files ((expected.map (·.1)).insertionSort (· ≤ ·))

/-! ## `build_deployment_tree` -/

/-- The place of a source file below the project. -/
structure SourcePath where
  names : List FileName
  named : names ≠ []
  deriving DecidableEq

/-- `path.relative_to(project).as_posix()` -/
def SourcePath.relative (path : SourcePath) : Text := joinParts (path.names.map (·.name))

/-- The end of `_source_files`: `sorted(set(selected), key=...)` -/
def unique (selected : List SourcePath) : List SourcePath :=
  selected.dedup.insertionSort fun first second => first.relative ≤ second.relative

/-- `entries`: the files with what they hold. -/
def readEntries (files : Text → Option Bytes) :
    List SourcePath → Except ContentFault (List (Text × Bytes))
  | [] => .ok []
  | path :: rest =>
      match files path.relative with
      | none => .error .osError
      | some payload => do
          let later ← readEntries files rest
          return (path.relative, payload) :: later

/-- `b"".join(...)` -/
def joinFrames : List (Text × Bytes) → Except ContentFault Bytes
  | [] => .ok []
  | entry :: rest => do
      let front ← frameOf entry.1 entry.2
      let later ← joinFrames rest
      return front ++ later

/-- `content_sha256` of `build_deployment_tree` -/
def buildContentSha256 (sha256 : Bytes → Text) (files : Text → Option Bytes)
    (selected : List SourcePath) : Except ContentFault Text := do
  let entries ← readEntries files (unique selected)
  let joined ← joinFrames entries
  return sha256 joined

/-! ## Frames of files -/

variable {files : Text → Option Bytes} {path relative : Text} {payload bytes : Bytes}
  {entries : List (Text × Bytes)}

theorem sizeCode_decimal : SizeCode 0 decimal where
  injective := by
    intro first second same
    have ascii (count : ℕ) : ∀ letter ∈ intText count, letter.val < 128 := by
      intro letter member
      have high := (printable_intText count letter member).2
      omega
    have texts := (encode_inj (ascii first) (ascii second)).mp same
    have digits (count : ℕ) : spanDigits (intText count) = (digitsOf count, []) := by
      have spanned := @spanDigits_digitText (digitsOf count) [] (by simp)
      rwa [List.append_nil] at spanned
    have spans := digits first
    rw [texts, digits second] at spans
    have numbers := congrArg numberOf (congrArg Prod.fst spans)
    rw [numberOf_digitsOf, numberOf_digitsOf] at numbers
    exact numbers.symm
  no_separator := by
    intro count member
    have low := ((encode_printable (printable_intText count)).2 0 member).1
    exact absurd low (by decide)

/-- The bytes of a path hold no zero. -/
theorem zero_not_mem_encode (plain : 0 ∉ path) : 0 ∉ encode path := by
  intro member
  obtain ⟨letter, inside, byte⟩ := List.mem_flatMap.mp member
  have other : letter.val ≠ 0 := by
    intro zero
    have is : letter = 0 := Fin.ext zero
    exact plain (is ▸ inside)
  have bound := letter.isLt
  have large {value : ℕ} (positive : 0 < value % 256) : (0 : UInt8) ≠ UInt8.ofNat value := by
    intro same
    have values := congrArg UInt8.toNat same
    rw [UInt8.toNat_ofNat'] at values
    have zero : (0 : UInt8).toNat = 0 := rfl
    omega
  simp only [encodePoint] at byte
  split at byte
  · rw [List.mem_singleton] at byte
    exact large (by omega) byte
  · split at byte
    · simp only [List.mem_cons, List.not_mem_nil, or_false] at byte
      rcases byte with byte | byte
      all_goals exact large (by omega) byte
    · split at byte
      · simp only [List.mem_cons, List.not_mem_nil, or_false] at byte
        rcases byte with byte | byte | byte
        all_goals exact large (by omega) byte
      · simp only [List.mem_cons, List.not_mem_nil, or_false] at byte
        rcases byte with byte | byte | byte | byte
        all_goals exact large (by omega) byte

theorem frameOf_eq_ok :
    frameOf relative payload = .ok bytes ↔
      Encodable relative ∧ bytes = frame 0 decimal (encode relative, payload) := by
  unfold frameOf
  split
  · next encodable => simp [encodable, eq_comm]
  · next refused => simp [refused]

theorem joinFrames_eq_ok :
    joinFrames entries = .ok bytes ↔
      (∀ entry ∈ entries, Encodable entry.1) ∧ bytes = fileFrames entries := by
  induction entries generalizing bytes with
  | nil => simp [joinFrames, fileFrames, frames, eq_comm]
  | cons entry rest ih =>
      rw [joinFrames, List.forall_mem_cons]
      constructor
      · intro joined
        obtain ⟨front, first, joined⟩ := bind_eq_ok.mp joined
        obtain ⟨later, others, joined⟩ := bind_eq_ok.mp joined
        obtain ⟨encodable, rfl⟩ := frameOf_eq_ok.mp first
        obtain ⟨restEncodable, rfl⟩ := ih.mp others
        cases joined
        exact ⟨⟨encodable, restEncodable⟩, rfl⟩
      · rintro ⟨⟨encodable, restEncodable⟩, rfl⟩
        refine bind_eq_ok.mpr ⟨_, frameOf_eq_ok.mpr ⟨encodable, rfl⟩, ?_⟩
        exact bind_eq_ok.mpr ⟨_, ih.mpr ⟨restEncodable, rfl⟩, rfl⟩

/-- The file at a deployed path. -/
structure Deployed (files : Text → Option Bytes) (path : Text) (entry : Text × Bytes) : Prop where
  relative : path.head? ≠ some (code '/')
  parts : ∃ rest, rest ≠ [] ∧ pathParts path = text ".agents" :: rest ∧ entry.1 = joinParts rest
  content : files path = some entry.2

/-- The loop joins the frames of the deployed files. -/
theorem updateDeployed_eq_ok {paths : List Text} :
    updateDeployed files paths = .ok bytes ↔
      ∃ entries, List.Forall₂ (Deployed files) paths entries ∧ joinFrames entries = .ok bytes := by
  induction paths generalizing bytes with
  | nil =>
      constructor
      · intro done
        exact ⟨[], List.Forall₂.nil, done⟩
      · rintro ⟨_, ⟨⟩, done⟩
        exact done
  | cons path rest ih =>
      rw [updateDeployed]
      constructor
      · intro done
        split at done
        · cases done
        · next inside =>
            simp only [not_or, not_not] at inside
            obtain ⟨absolute, agents, long⟩ := inside
            split at done
            · cases done
            · next payload content =>
                obtain ⟨front, first, done⟩ := bind_eq_ok.mp done
                obtain ⟨later, others, done⟩ := bind_eq_ok.mp done
                obtain ⟨entries, deployed, joined⟩ := ih.mp others
                cases done
                refine ⟨(joinParts ((pathParts path).drop 1), payload) :: entries, ?_, ?_⟩
                · refine List.Forall₂.cons ⟨absolute, ?_, content⟩ deployed
                  cases parts : pathParts path with
                  | nil => simp [parts] at agents
                  | cons top below =>
                      rw [parts] at agents long
                      cases agents
                      exact ⟨below, by rintro rfl; simp at long, rfl, rfl⟩
                · exact bind_eq_ok.mpr ⟨front, first, bind_eq_ok.mpr ⟨later, joined, rfl⟩⟩
      · rintro ⟨_, _ | @⟨_, entry, _, entries, deployed, others⟩, joined⟩
        obtain ⟨front, first, joined⟩ := bind_eq_ok.mp joined
        obtain ⟨later, behind, joined⟩ := bind_eq_ok.mp joined
        obtain ⟨below, filled, parts, relative⟩ := deployed.parts
        have positive := List.length_pos_of_ne_nil filled
        simp only [parts, deployed.content]
        rw [if_neg]
        · refine bind_eq_ok.mpr ⟨front, ?_, bind_eq_ok.mpr ⟨later, ih.mpr ⟨entries, others, behind⟩, joined⟩⟩
          rw [← first, relative]
          rfl
        · simp only [not_or, not_not, List.length_cons]
          exact ⟨deployed.relative, rfl, by omega⟩

theorem readEntries_eq_ok {paths : List SourcePath} :
    readEntries files paths = .ok entries ↔
      List.Forall₂ (fun path entry => entry.1 = path.relative ∧ files path.relative = some entry.2)
        paths entries := by
  induction paths generalizing entries with
  | nil =>
      constructor
      · intro done
        cases done
        exact List.Forall₂.nil
      · rintro ⟨⟩
        rfl
  | cons path rest ih =>
      rw [readEntries]
      constructor
      · intro done
        split at done
        · cases done
        · next payload content =>
            obtain ⟨later, others, done⟩ := bind_eq_ok.mp done
            cases done
            exact List.Forall₂.cons ⟨rfl, content⟩ (ih.mp others)
      · rintro (_ | @⟨_, ⟨_, payload⟩, _, later, ⟨rfl, content⟩, others⟩)
        simp only [content]
        exact bind_eq_ok.mpr ⟨later, ih.mpr others, rfl⟩

/-! ## Deployed paths -/

theorem joinParts_cons (first : Text) {rest : List Text} (filled : rest ≠ []) :
    joinParts (first :: rest) = first ++ code '/' :: joinParts rest := by
  cases rest with
  | nil => exact absurd rfl filled
  | cons second rest =>
      rw [joinParts, List.intercalate_cons_cons, List.append_assoc]
      rfl

/-- The path of a deployed file. -/
def deployedPath (relative : Text) : Text := text ".agents" ++ code '/' :: relative

theorem deployedPath_inj {first second : Text} :
    deployedPath first = deployedPath second ↔ first = second := by
  simp [deployedPath]

theorem deployedPath_le {first second : Text} :
    deployedPath first ≤ deployedPath second ↔ first ≤ second := by
  have start (relative : Text) :
      deployedPath relative = (text ".agents" ++ [code '/']) ++ relative := by
    simp [deployedPath]
  rw [start, start, append_le_append_iff]

/-- A path that is spelled as its parts are joined. -/
theorem Deployed.path_eq {entry : Text × Bytes} (deployed : Deployed files path entry)
    (canonical : joinParts (pathParts path) = path) : path = deployedPath entry.1 := by
  obtain ⟨rest, filled, parts, relative⟩ := deployed.parts
  rw [← canonical, parts, joinParts_cons _ filled, ← relative]
  rfl

theorem SourcePath.relativeOf_eq (path : SourcePath) :
    relativeOf path.names = deployedPath path.relative := by
  rw [relativeOf, joinParts_cons]
  · rfl
  · simpa using path.named

theorem deployed_relativeOf {source : SourcePath} {entry : Text × Bytes} :
    Deployed files (relativeOf source.names) entry ↔
      entry.1 = source.relative ∧ files (relativeOf source.names) = some entry.2 := by
  constructor
  · intro deployed
    obtain ⟨rest, _, parts, relative⟩ := deployed.parts
    rw [pathParts_relativeOf] at parts
    cases parts
    exact ⟨relative, deployed.content⟩
  · rintro ⟨relative, content⟩
    refine ⟨?_, ⟨_, ?_, pathParts_relativeOf source.names, relative⟩, content⟩
    · rw [head?_relativeOf]
      decide
    · simpa using source.named

/-- The paths of an accepted manifest. -/
theorem paths_of_parse {manifest : Text} {expected : List (Text × Text)}
    (parsed : parse manifest = .ok expected) :
    (expected.map (·.1)).insertionSort (· ≤ ·) = expected.map (·.1) ∧
      ∀ path ∈ expected.map (·.1), joinParts (pathParts path) = path ∧ 0 ∉ path := by
  obtain ⟨_, _, reads, chain⟩ := parse_eq_ok.mp parsed
  constructor
  · exact (chain.pairwise.imp le_of_lt).insertionSort_eq
  · intro path member
    obtain ⟨entry, inside, rfl⟩ := List.mem_map.mp member
    obtain ⟨line, _, rawPath, read⟩ := exists_of_forall₂_right reads inside
    obtain ⟨relative, _, zero, _⟩ := safeRelative_eq_ok.mp read.safe
    constructor
    · rw [relative, pathParts_joinParts]
      intro part listed
      obtain ⟨filled, plain⟩ := plain_of_mem_pathParts part listed
      have kept := (List.mem_filter.mp listed).2
      simp only [ne_eq, decide_eq_true_eq] at kept
      exact ⟨kept.1, kept.2, plain⟩
    · intro inside
      rcases mem_of_mem_safe read.safe inside with slash | member
      · cases slash
      · exact zero member

/-! ## The digests -/

variable {sha256 : Bytes → Text} {digest : Text} {expected : List (Text × Text)}

theorem deploymentContentSha256_eq_ok :
    deploymentContentSha256 sha256 files expected = .ok digest ↔
      ∃ entries, List.Forall₂ (Deployed files)
          ((expected.map (·.1)).insertionSort (· ≤ ·)) entries ∧
        (∀ entry ∈ entries, Encodable entry.1) ∧ digest = sha256 (fileFrames entries) := by
  rw [deploymentContentSha256]
  constructor
  · intro done
    cases joined : updateDeployed files ((expected.map (·.1)).insertionSort (· ≤ ·)) with
    | error fault =>
        rw [joined] at done
        cases done
    | ok bytes =>
        rw [joined] at done
        cases done
        obtain ⟨entries, deployed, joined⟩ := updateDeployed_eq_ok.mp joined
        obtain ⟨encodable, rfl⟩ := joinFrames_eq_ok.mp joined
        exact ⟨entries, deployed, encodable, rfl⟩
  · rintro ⟨entries, deployed, encodable, rfl⟩
    rw [updateDeployed_eq_ok.mpr ⟨entries, deployed, joinFrames_eq_ok.mpr ⟨encodable, rfl⟩⟩]
    rfl

theorem buildContentSha256_eq_ok {selected : List SourcePath} :
    buildContentSha256 sha256 files selected = .ok digest ↔
      ∃ entries, List.Forall₂
          (fun path entry => entry.1 = path.relative ∧ files path.relative = some entry.2)
          (unique selected) entries ∧
        (∀ entry ∈ entries, Encodable entry.1) ∧ digest = sha256 (fileFrames entries) := by
  rw [buildContentSha256]
  constructor
  · intro done
    obtain ⟨entries, read, done⟩ := bind_eq_ok.mp done
    obtain ⟨joined, frames, done⟩ := bind_eq_ok.mp done
    obtain ⟨encodable, rfl⟩ := joinFrames_eq_ok.mp frames
    cases done
    exact ⟨entries, readEntries_eq_ok.mp read, encodable, rfl⟩
  · rintro ⟨entries, read, encodable, rfl⟩
    refine bind_eq_ok.mpr ⟨entries, readEntries_eq_ok.mpr read, ?_⟩
    exact bind_eq_ok.mpr ⟨_, joinFrames_eq_ok.mpr ⟨encodable, rfl⟩, rfl⟩

/-- Both functions take the files in one order. -/
theorem insertionSort_deployed {selected : List SourcePath} (distinct : (expected.map (·.1)).Nodup)
    (same : ∀ path, path ∈ expected.map (·.1) ↔
      ∃ source ∈ selected, path = relativeOf source.names) :
    (expected.map (·.1)).insertionSort (· ≤ ·) =
      (unique selected).map fun source => relativeOf source.names := by
  have injective : Function.Injective fun source : SourcePath => relativeOf source.names := by
    rintro ⟨names, _⟩ ⟨others, _⟩ is
    cases relativeOf_injective is
    rfl
  have permuted : (unique selected).Perm selected.dedup := List.perm_insertionSort _ _
  have sorted : ((unique selected).map fun source => relativeOf source.names).Pairwise (· ≤ ·) := by
    have total := @List.pairwise_insertionSort _
      (fun first second : SourcePath => first.relative ≤ second.relative) _
      ⟨fun first second => le_total _ _⟩ ⟨fun first second third => le_trans⟩ selected.dedup
    refine List.pairwise_map.mpr (total.imp fun ordered => ?_)
    rw [SourcePath.relativeOf_eq, SourcePath.relativeOf_eq]
    exact deployedPath_le.mpr ordered
  have perm : (expected.map (·.1)).Perm
      ((unique selected).map fun source => relativeOf source.names) := by
    refine (List.perm_ext_iff_of_nodup distinct ?_).mpr fun path => ?_
    · exact (permuted.nodup_iff.mpr (List.nodup_dedup selected)).map injective
    · rw [same, List.mem_map]
      simp only [permuted.mem_iff, List.mem_dedup, eq_comm]
  have both := (List.perm_insertionSort (· ≤ ·) (expected.map (·.1))).trans perm
  exact both.eq_of_pairwise' (List.pairwise_insertionSort _ _) sorted

/-- The entries of a deployment are its paths with what stands there. -/
theorem paths_of_deployed {paths : List Text}
    (canonical : ∀ path ∈ paths, joinParts (pathParts path) = path)
    (deployed : List.Forall₂ (Deployed files) paths entries) :
    paths = entries.map (deployedPath ·.1) ∧
      ∀ entry ∈ entries, files (deployedPath entry.1) = some entry.2 := by
  induction deployed with
  | nil => exact ⟨rfl, by simp⟩
  | @cons path entry paths entries first _ ih =>
      obtain ⟨firstCanonical, restCanonical⟩ := List.forall_mem_cons.mp canonical
      obtain ⟨rfl, contents⟩ := ih restCanonical
      have is := first.path_eq firstCanonical
      refine ⟨by rw [List.map_cons, ← is], List.forall_mem_cons.mpr ⟨?_, contents⟩⟩
      rw [← is]
      exact first.content

/-- Entries are told by their frames. -/
theorem fileFrames_inj {first second : List (Text × Bytes)}
    (plain : ∀ entry ∈ first, 0 ∉ entry.1) (otherPlain : ∀ entry ∈ second, 0 ∉ entry.1)
    (encodable : ∀ entry ∈ first, Encodable entry.1)
    (otherEncodable : ∀ entry ∈ second, Encodable entry.1)
    (same : fileFrames first = fileFrames second) : first = second := by
  have coded {entries : List (Text × Bytes)} (plain : ∀ entry ∈ entries, 0 ∉ entry.1) :
      ∀ entry ∈ entries.map fun entry => (encode entry.1, entry.2), 0 ∉ entry.1 := by
    intro entry member
    obtain ⟨source, inside, rfl⟩ := List.mem_map.mp member
    exact zero_not_mem_encode (plain source inside)
  have decoded {entries : List (Text × Bytes)} (encodable : ∀ entry ∈ entries, Encodable entry.1) :
      (entries.map fun entry => (encode entry.1, entry.2)).map
          (fun entry => (decode false entry.1, entry.2)) =
        entries.map fun entry => (some entry.1, entry.2) := by
    rw [List.map_map]
    apply List.map_congr_left
    intro entry member
    exact Prod.ext (decode_encode_of_passes (encodable entry member)) rfl
  have entries := frames_inj sizeCode_decimal (coded plain) (coded otherPlain) same
  have texts := congrArg (List.map fun entry => (decode false entry.1, entry.2)) entries
  rw [decoded encodable, decoded otherEncodable] at texts
  refine List.map_injective_iff.mpr ?_ texts
  rintro ⟨_, _⟩ ⟨_, _⟩ is
  cases is
  rfl

/-- **The content digest.** Framed files are told apart by their bytes, so with an injective
SHA-256 the digest of a deployment tells its paths and their contents; and the digest that was
computed from the source files is the one computed from the deployed files. -/
theorem content_digest_identifies (injective : Function.Injective sha256) :
    (∀ first second : List (Bytes × Bytes), (∀ entry ∈ first, 0 ∉ entry.1) →
      (∀ entry ∈ second, 0 ∉ entry.1) → frames 0 decimal first = frames 0 decimal second →
      first = second) ∧
    (∀ manifest other expected otherExpected files otherFiles digest,
      parse manifest = .ok expected → parse other = .ok otherExpected →
      deploymentContentSha256 sha256 files expected = .ok digest →
      deploymentContentSha256 sha256 otherFiles otherExpected = .ok digest →
      expected.map (·.1) = otherExpected.map (·.1) ∧
        ∀ path ∈ expected.map (·.1), (files path).isSome ∧ files path = otherFiles path) ∧
    ∀ (selected : List SourcePath) (expected : List (Text × Text)) source deployed,
      (expected.map (·.1)).Nodup →
      (∀ path, path ∈ expected.map (·.1) ↔ ∃ source ∈ selected, path = relativeOf source.names) →
      (∀ path ∈ selected, deployed (relativeOf path.names) = source path.relative) →
      ∀ digest, deploymentContentSha256 sha256 deployed expected = .ok digest ↔
        buildContentSha256 sha256 source selected = .ok digest := by
  refine ⟨fun first second plain otherPlain => frames_inj sizeCode_decimal plain otherPlain, ?_, ?_⟩
  · intro manifest other expected otherExpected files otherFiles digest parsed otherParsed first second
    obtain ⟨sorted, canonical⟩ := paths_of_parse parsed
    obtain ⟨otherSorted, otherCanonical⟩ := paths_of_parse otherParsed
    obtain ⟨entries, deployed, encodable, rfl⟩ := deploymentContentSha256_eq_ok.mp first
    obtain ⟨others, otherDeployed, otherEncodable, same⟩ := deploymentContentSha256_eq_ok.mp second
    rw [sorted] at deployed
    rw [otherSorted] at otherDeployed
    obtain ⟨paths, contents⟩ :=
      paths_of_deployed (fun path member => (canonical path member).1) deployed
    obtain ⟨otherPaths, otherContents⟩ :=
      paths_of_deployed (fun path member => (otherCanonical path member).1) otherDeployed
    have plain {paths : List Text} {entries : List (Text × Bytes)}
        (zero : ∀ path ∈ paths, 0 ∉ path) (is : paths = entries.map (deployedPath ·.1)) :
        ∀ entry ∈ entries, 0 ∉ entry.1 := by
      intro entry member inside
      refine zero (deployedPath entry.1) (is ▸ List.mem_map_of_mem member) ?_
      exact List.mem_append_right _ (List.mem_cons_of_mem _ inside)
    have equal : entries = others :=
      fileFrames_inj (plain (fun path member => (canonical path member).2) paths)
        (plain (fun path member => (otherCanonical path member).2) otherPaths) encodable
        otherEncodable (injective same)
    subst equal
    refine ⟨paths.trans otherPaths.symm, ?_⟩
    intro path member
    rw [paths] at member
    obtain ⟨entry, inside, rfl⟩ := List.mem_map.mp member
    rw [contents entry inside, otherContents entry inside]
    exact ⟨rfl, rfl⟩
  · intro selected expected source deployed distinct listed agree digest
    have members : ∀ path ∈ unique selected, path ∈ selected := by
      intro path member
      exact List.mem_dedup.mp ((List.perm_insertionSort _ _).mem_iff.mp member)
    rw [deploymentContentSha256_eq_ok, buildContentSha256_eq_ok,
      insertionSort_deployed distinct listed]
    apply exists_congr
    intro entries
    rw [List.forall₂_map_left_iff, List.forall₂_iff_zip, List.forall₂_iff_zip]
    apply and_congr_left
    intro _
    apply and_congr_right
    intro _
    constructor
    · intro all path entry member
      obtain ⟨relative, content⟩ := deployed_relativeOf.mp (all member)
      rw [agree path (members path (List.of_mem_zip member).1)] at content
      exact ⟨relative, content⟩
    · intro all path entry member
      obtain ⟨relative, content⟩ := all member
      rw [← agree path (members path (List.of_mem_zip member).1)] at content
      exact deployed_relativeOf.mpr ⟨relative, content⟩

/-- Every byte as a character. -/
def bytePoints (bytes : Bytes) : Text := bytes.map fun byte => Fin.ofNat _ byte.toNat

theorem bytePoints_injective : Function.Injective bytePoints := by
  refine List.map_injective_iff.mpr ?_
  intro first second same
  have firstBound := first.toNat_lt
  have secondBound := second.toNat_lt
  have values := congrArg Fin.val same
  simp only [Fin.val_ofNat] at values
  rw [Nat.mod_eq_of_lt (by omega), Nat.mod_eq_of_lt (by omega)] at values
  exact UInt8.toNat_inj.mp values

/-- The file `VERSION` in the source tree and in the deployed one. -/
theorem content_digest_version :
    ∃ digest,
      deploymentContentSha256 bytePoints (fun _ => some [49]) [(text ".agents/VERSION", [])] =
          .ok digest ∧
        buildContentSha256 bytePoints (fun _ => some [49]) [⟨[versionName], by simp⟩] =
          .ok digest := by
  have built : buildContentSha256 bytePoints (fun _ => some [49])
      [⟨[versionName], by simp⟩] = .ok (bytePoints (fileFrames [(text "VERSION", [49])])) := by
    refine buildContentSha256_eq_ok.mpr ⟨[(text "VERSION", [49])], ?_, ?_, rfl⟩
    · have single : unique [⟨[versionName], by simp⟩] = [⟨[versionName], by simp⟩] := by
        simp [unique]
      rw [single]
      exact List.Forall₂.cons ⟨rfl, rfl⟩ List.Forall₂.nil
    · simp [Encodable, Passes, text]
  have agree := (content_digest_identifies bytePoints_injective).2.2 [⟨[versionName], by simp⟩]
    [(text ".agents/VERSION", [])] (fun _ => some [49]) (fun _ => some [49]) (by simp)
    (by simp [relativeOf, versionName]; rfl) (fun _ _ => rfl)
  exact ⟨_, (agree _).mpr built, built⟩

end Content

end CarbonLab.Aegis
