import CarbonLab.Lib.Inodes
import CarbonLab.Aegis.ConfinedPath

/-!
# Mutations of governed files

`assert_mutation_allowed` of `governance.py`, on POSIX.  The texts of the paths inside a message
are left out.
-/

namespace CarbonLab.Aegis

/-- What `assert_mutation_allowed` raises. -/
inductive GovernanceFault
  | governanceViolation (message : Text)
  /-- An error of `resolve`. -/
  | lookup (fault : LookupFault)
  deriving DecidableEq, Repr

namespace Governance

open LinkTree Confine

/-- The directories that `_instruction_files` does not enter. -/
def excluded : List Text :=
  [text ".git", text ".aegis", text "dist", text "build", text "vendor", text "node_modules",
    text "__pycache__"]

variable (files : InodeTree)

/-- Where `os.lstat` comes. -/
def lstatPlace (path : List Text) : Except LookupFault Location :=
  match path.getLast? with
  | none => .ok []
  | some name => do
      let place ← files.follow linkLimit [] path.dropLast
      if name = [] ∨ name = text "." then .ok place
      else if name = text ".." then .ok place.dropLast
      else .ok (place ++ [name])

/-- `_identity` -/
def identity (path : List Text) : Option Identity :=
  match files.lstat path, lstatPlace files path with
  | .ok _, .ok place => some (files.identity place)
  | _, _ => none

/-- `_relative_casefold` -/
def relativeCasefold (path : PurePath) (root : Location) : Option (List Text) :=
  if path.anchor = .slash ∧ root <+: path.parts then some (path.parts.drop root.length) else none

/-- `directory.rglob("*")` -/
def rglob (directory : Location) : List Location :=
  (files.nodes.map Prod.fst).filter fun place => directory <+: place ∧ place ≠ directory

/-- `_instruction_files`: the walk enters no excluded directory and no link, and a link to a
directory is none of its files. -/
def instructionFiles (root : Location) : List Location :=
  (files.nodes.map Prod.fst).filter fun place =>
    root <+: place ∧ place ≠ root ∧ place.getLast? = some (text "AGENTS.md") ∧
      (∀ name ∈ (place.drop root.length).dropLast, name ∉ excluded) ∧
        files.stat place ≠ .ok .directory

/-- `_governing_file_identities` -/
def governingFileIdentities (root : Location) : List Identity :=
  let agents := root ++ [text ".agents"]
  (if files.stat agents = .ok .directory ∧ isPathRedirect files.toLinkTree agents = false then
      (rglob files agents).filterMap (identity files)
    else []) ++
  (instructionFiles files root).filterMap (identity files)

/-- The loop over the parts of the path below the project. -/
def refuseRedirected (current : Location) : List Text → Except GovernanceFault Unit
  | [] => .ok ()
  | part :: rest =>
      if isPathRedirect files.toLinkTree (current ++ [part]) then
        .error (.governanceViolation (text "AEGIS-I001: redirected mutation path is forbidden"))
      else refuseRedirected (current ++ [part]) rest

/-- One round of the loop of `assert_mutation_allowed` over its targets. -/
def assertTarget (project : Location) (governingIdentities : List Identity) (operation : Text)
    (raw : PurePath) : Except GovernanceFault Unit := do
  if raw.anchor = .relative ∧ text ".." ∈ raw.parts then
    .error (.governanceViolation (text "AEGIS-I001: " ++ operation ++
      text " path uses parent traversal")) else
  let candidate := candidateOf ⟨.slash, project⟩ raw
  match relativeCasefold candidate project with
  | none =>
      .error (.governanceViolation (text "AEGIS-I010: " ++ operation ++
        text " target escapes project root"))
  | some relativeParts =>
      if relativeParts.head? = some (text ".agents") then
        .error (.governanceViolation (text "AEGIS-I001: deployed .agents governance is immutable"))
      else if relativeParts.getLast? = some (text "AGENTS.md") then
        .error (.governanceViolation (text "AEGIS-I001: governing instruction file is immutable"))
      else
      refuseRedirected files project relativeParts
      let resolved ← (absoluteOf files.toLinkTree candidate).mapError .lookup
      if ¬project <+: resolved then
        .error (.governanceViolation
          (text "AEGIS-I001: resolved mutation path escapes project root"))
      else if (resolved.drop project.length).head? = some (text ".agents") then
        .error (.governanceViolation
          (text "AEGIS-I001: resolved target enters deployed governance"))
      else
      match identity files candidate.parts with
      | none => .ok ()
      | some found =>
          if found ∈ governingIdentities then
            .error (.governanceViolation
              (text "AEGIS-I001: hardlinked governing content is immutable"))
          else .ok ()

/-- `assert_mutation_allowed`; `root` is `Path(root).absolute()`. -/
def assertMutationAllowed (root : PurePath) (targets : List PurePath) (operation : Text) :
    Except GovernanceFault Unit := do
  let project ← (files.resolveStrict root.parts).mapError .lookup
  targets.forM (assertTarget files project (governingFileIdentities files project) operation)

variable {files} {root raw : PurePath} {project place directory : Location} {name operation : Text}
  {governingIdentities : List Identity} {targets : List PurePath}

@[simp] theorem mapError_eq_ok {ε ε' α : Type} {result : Except ε α} {fault : ε → ε'} {found : α} :
    result.mapError fault = .ok found ↔ result = .ok found := by
  cases result <;> simp [Except.mapError]

/-! ## Governed files -/

/-- A place below `.agents`, or one of a file with instructions that no excluded directory is
above. -/
def Governed (project place : Location) : Prop :=
  (∃ rest, rest ≠ [] ∧ place = project ++ [text ".agents"] ++ rest) ∨
    ∃ above, (∀ name ∈ above, name ∉ excluded) ∧ place = project ++ above ++ [text "AGENTS.md"]

/-- The identity of an entry of a directory that the system comes to. -/
theorem identity_eq_some {path : List Text} (come : files.follow linkLimit [] path = .ok place)
    (there : files.node (place ++ [name]) ≠ none) :
    identity files (path ++ [name]) = some (files.identity (place ++ [name])) := by
  have entry := files.names place name there
  obtain ⟨node, isNode⟩ := Option.ne_none_iff_exists'.mp there
  have noDot := not_or.mpr ⟨entry.1, entry.2.1⟩
  have isFound : files.lstat (path ++ [name]) = .ok node := by
    unfold LinkTree.lstat
    rw [List.getLast?_concat, List.dropLast_concat]
    dsimp only
    rw [come, ok_bind, if_neg noDot, if_neg entry.2.2,
      if_neg (not_not.mpr (directory_of_node there)), isNode]
  have isPlace : lstatPlace files (path ++ [name]) = .ok (place ++ [name]) := by
    unfold lstatPlace
    rw [List.getLast?_concat, List.dropLast_concat]
    dsimp only
    rw [come, ok_bind, if_neg noDot, if_neg entry.2.2]
  unfold identity
  rw [isFound, isPlace]

theorem follow_directory (isDirectory : files.node place = some .directory) :
    files.follow linkLimit [] place = .ok place := by
  rcases @follow_linkFree files.toLinkTree [] place linkLimit
    (InodeTree.linkFree_of_directory isDirectory) with come | ⟨none, _⟩
  · exact come
  · rw [List.nil_append, isDirectory] at none
    cases none

theorem mem_nodes (there : files.node place ≠ none) (below : place ≠ []) :
    place ∈ files.nodes.map Prod.fst := by
  rw [LinkTree.node, if_neg below] at there
  obtain ⟨node, member⟩ := mem_of_lookup_ne_none there
  exact List.mem_map.mpr ⟨_, member, rfl⟩

/-- The identity of a governed file is one that is refused. -/
theorem mem_governingFileIdentities (governed : Governed project place)
    (isFile : files.node place = some .file) :
    files.identity place ∈ governingFileIdentities files project := by
  have there : files.node place ≠ none := by
    rw [isFile]
    simp
  obtain ⟨above, name, rfl⟩ : ∃ above name, place = above ++ [name] := by
    rcases governed with ⟨rest, filled, rfl⟩ | ⟨above, _, rfl⟩
    · exact ⟨project ++ [text ".agents"] ++ rest.dropLast, rest.getLast filled, by
        rw [List.append_assoc _ rest.dropLast, List.dropLast_append_getLast]⟩
    · exact ⟨_, _, rfl⟩
  have parent := directory_of_node there
  have found := identity_eq_some (follow_directory parent) there
  have listed := mem_nodes there (by simp)
  unfold governingFileIdentities
  rw [List.mem_append]
  rcases governed with ⟨rest, filled, whole⟩ | ⟨between, allowed, whole⟩
  · left
    have agents : files.node (project ++ [text ".agents"]) = some .directory := by
      by_contra other
      rw [whole, node_append_eq_none other filled] at isFile
      cases isFile
    have agentsFree := InodeTree.linkFree_of_directory agents
    obtain ⟨before, entry, noLink⟩ := linkFree_concat.mp agentsFree
    have direct : isPathRedirect files.toLinkTree (project ++ [text ".agents"]) = false := by
      rw [← Bool.not_eq_true, isPathRedirect_iff before entry]
      exact fun ⟨target, isLink⟩ => noLink target isLink
    rw [if_pos ⟨(stat_eq_ok agentsFree).mpr agents, direct⟩]
    refine List.mem_filterMap.mpr ⟨_, List.mem_filter.mpr ⟨listed, decide_eq_true ?_⟩, found⟩
    rw [whole]
    exact ⟨List.prefix_append _ _, by simpa using filled⟩
  · right
    refine List.mem_filterMap.mpr ⟨_, List.mem_filter.mpr ⟨listed, decide_eq_true ?_⟩, found⟩
    refine ⟨?_, ?_, ?_, ?_, ?_⟩
    · rw [whole, List.append_assoc]
      exact List.prefix_append _ _
    · rw [whole, List.append_assoc]
      simp
    · rw [whole, List.getLast?_concat]
    · rw [whole, List.append_assoc, List.drop_left, List.dropLast_concat]
      exact allowed
    · have free : files.LinkFree (above ++ [name]) :=
        linkFree_concat.mpr ⟨InodeTree.linkFree_of_directory parent, files.names _ _ there,
          fun target isLink => by
            rw [isFile] at isLink
            cases isLink⟩
      rw [ne_eq, stat_eq_ok free, isFile]
      simp

/-! ## What the guard lets pass -/

theorem direct_of_refuseRedirected {current rest : List Text}
    (passed : refuseRedirected files current rest = .ok ()) {before : List Text}
    (inside : before ++ [name] <+: rest) :
    isPathRedirect files.toLinkTree (current ++ before ++ [name]) = false := by
  induction rest generalizing current before with
  | nil => exact absurd (List.prefix_nil.mp inside) (by simp)
  | cons part rest ih =>
      rw [refuseRedirected] at passed
      split at passed
      · cases passed
      · next direct =>
          cases before with
          | nil =>
              rw [List.nil_append, List.cons_prefix_cons] at inside
              rw [List.append_nil, inside.1]
              exact Bool.not_eq_true _ ▸ direct
          | cons first before =>
              rw [List.cons_append, List.cons_prefix_cons] at inside
              have later := ih passed inside.2
              rw [inside.1]
              simpa using later

/-- A place that the guard lets a path lead to. -/
structure Admitted (files : InodeTree) (project : Location) (governingIdentities : List Identity)
    (place : Location) : Prop where
  noLink : ∀ target, files.node place ≠ some (.symlink target)
  inside : project <+: place
  outsideAgents : (place.drop project.length).head? ≠ some (text ".agents")
  noInstructions : place ≠ project → place.getLast? ≠ some (text "AGENTS.md")
  apart : files.node place ≠ none → files.identity place ∉ governingIdentities

theorem relativeCasefold_eq_some {path : PurePath} {relativeParts : List Text}
    (relative : relativeCasefold path project = some relativeParts) :
    path.parts = project ++ relativeParts := by
  unfold relativeCasefold at relative
  split at relative
  · next lexical =>
      obtain ⟨rest, split⟩ := lexical.2
      rw [← split, List.drop_left] at relative
      rw [← split, Option.some.inj relative]
  · cases relative

/-- What the system comes to behind a project, when no part of the path is a link. -/
theorem comes_directly (free : files.LinkFree project) {parts : List Text}
    (passed : ∀ before name, before ++ [name] <+: parts →
      isPathRedirect files.toLinkTree (project ++ before ++ [name]) = false)
    (come : files.follow linkLimit [] (project ++ parts) = .ok directory) :
    files.LinkFree directory ∧ files.resolve (project ++ parts) = .ok directory := by
  have start : files.joined false project = .ok (project, true, []) := by
    unfold LinkTree.joined
    exact @joinReal_linkFree _ [] project _ free []
  obtain ⟨joins, clear⟩ := joined_of_direct start free (@resolves_linkFree _ [] project free)
    (fun before name inside target isLink => by
      have direct := passed before name inside
      unfold isPathRedirect at direct
      rw [isLink] at direct
      cases direct) come
  have same := normalize_linkFree clear
  refine ⟨clear, ?_⟩
  rw [← same] at clear
  rw [resolve_of_joined clear joins, same]

/-- What one round of the loop has looked at when it is through. -/
theorem assertTarget_eq_ok
    (allowed : assertTarget files project governingIdentities operation raw = .ok ()) :
    ∃ relativeParts resolved,
      (candidateOf ⟨.slash, project⟩ raw).parts = project ++ relativeParts ∧
        relativeParts.getLast? ≠ some (text "AGENTS.md") ∧
        refuseRedirected files project relativeParts = .ok () ∧
        absoluteOf files.toLinkTree (candidateOf ⟨.slash, project⟩ raw) = .ok resolved ∧
        project <+: resolved ∧ (resolved.drop project.length).head? ≠ some (text ".agents") ∧
        ∀ found, identity files (candidateOf ⟨.slash, project⟩ raw).parts = some found →
          found ∉ governingIdentities := by
  unfold assertTarget at allowed
  split at allowed
  · cases allowed
  · dsimp only at allowed
    split at allowed
    · cases allowed
    · next relativeParts relative =>
        split at allowed
        · cases allowed
        · split at allowed
          · cases allowed
          · next noInstructions =>
              obtain ⟨_, passed, allowed⟩ := bind_eq_ok.mp allowed
              obtain ⟨resolved, isResolved, allowed⟩ := bind_eq_ok.mp allowed
              rw [mapError_eq_ok] at isResolved
              split at allowed
              · cases allowed
              · next inside =>
                  split at allowed
                  · cases allowed
                  · next outsideAgents =>
                      refine ⟨relativeParts, resolved, relativeCasefold_eq_some relative,
                        noInstructions, passed, isResolved, not_not.mp inside, outsideAgents, ?_⟩
                      intro found isFound governs
                      rw [isFound] at allowed
                      dsimp only at allowed
                      rw [if_pos governs] at allowed
                      cases allowed

/-- What one round of the guard lets pass. -/
theorem admitted_of_assertTarget (free : files.LinkFree project)
    (allowed : assertTarget files project governingIdentities operation raw = .ok ())
    (found : files.entryOf (candidateOf ⟨.slash, project⟩ raw).parts = some (directory, name)) :
    Admitted files project governingIdentities (directory ++ [name]) := by
  obtain ⟨parts, resolved, whole, noInstructions, passed, isResolved, inside, outsideAgents,
    apart⟩ := assertTarget_eq_ok allowed
  obtain ⟨isLast, come, entry, isDirectory⟩ := InodeTree.entryOf_eq_some.mp found
  obtain ⟨front, split⟩ := List.getLast?_eq_some_iff.mp isLast
  rw [split, List.dropLast_concat] at come
  rw [absoluteOf_concat split] at isResolved
  rw [split] at apart whole
  have known : files.node (directory ++ [name]) ≠ none →
      files.identity (directory ++ [name]) ∉ governingIdentities :=
    fun there => apart _ (identity_eq_some come there)
  rcases List.eq_nil_or_concat parts with rfl | ⟨parts, last, rfl⟩
  · -- the target is the project itself
    rw [List.append_nil] at whole
    have start : files.LinkFree ([] ++ front) := by
      rw [← whole] at free
      exact free.of_prefix (List.prefix_append _ _)
    have same : directory = front := (follow_sound come).unique (resolves_linkFree start)
    rw [same, whole] at known ⊢
    refine ⟨?_, List.prefix_refl _, ?_, fun other => absurd rfl other, known⟩
    · rw [← whole] at free ⊢
      exact (linkFree_concat.mp free).2.2
    · rw [List.drop_length]
      simp
  · rw [List.concat_eq_append] at whole noInstructions passed
    rw [← List.append_assoc] at whole
    obtain ⟨rfl, same⟩ := List.append_inj' whole rfl
    cases same
    rw [List.getLast?_concat] at noInstructions
    obtain ⟨clear, isPlace⟩ := comes_directly free
      (fun before name inside => direct_of_refuseRedirected passed
        (inside.trans (List.prefix_append _ _))) come
    rw [isPlace] at isResolved
    obtain rfl := Except.ok.inj isResolved
    refine ⟨noLink_of_lstat come entry ?_, inside, outsideAgents, ?_, known⟩
    · intro target isLink
      have direct := direct_of_refuseRedirected passed (List.prefix_refl _)
      unfold isPathRedirect at direct
      rw [isLink] at direct
      cases direct
    · intro _
      rw [List.getLast?_concat]
      exact noInstructions

/-- An admitted place is no governed one, and its file is none that is governed. -/
theorem Admitted.apart_of_governed {other : Location}
    (admitted : Admitted files project (governingFileIdentities files project) place)
    (governed : Governed project other) :
    other ≠ place ∧ (files.node other = some .file → files.node place ≠ none →
      files.identity place ≠ files.identity other) := by
  refine ⟨?_, fun isFile there same =>
    admitted.apart there (same ▸ mem_governingFileIdentities governed isFile)⟩
  rintro rfl
  rcases governed with ⟨rest, filled, rfl⟩ | ⟨above, _, rfl⟩
  · refine admitted.outsideAgents ?_
    rw [List.append_assoc, List.drop_left]
    rfl
  · refine admitted.noInstructions ?_ (by rw [List.getLast?_concat])
    rw [List.append_assoc]
    simp

theorem ok_of_forM {ε α : Type} {check : α → Except ε Unit} {all : List α}
    (passed : all.forM check = .ok ()) : ∀ one ∈ all, check one = .ok () := by
  induction all with
  | nil => exact fun one missing => absurd missing List.not_mem_nil
  | cons first rest ih =>
      obtain ⟨_, here, later⟩ := bind_eq_ok.mp passed
      exact List.forall_mem_cons.mpr ⟨here, ih later⟩

/-- A place with the very file that a path leads to. -/
def HardLink (files : InodeTree) (path : List Text) (place : Location) : Prop :=
  ∃ directory name, files.entryOf path = some (directory, name) ∧
    files.node (directory ++ [name]) = some .file ∧ files.node place = some .file ∧
      files.identity place = files.identity (directory ++ [name])

section

variable {path : List Text} {fresh : Identity} {data : Bytes} {after : InodeTree}
  (aims : ∀ directory name, files.entryOf path = some (directory, name) →
    Admitted files project (governingFileIdentities files project) (directory ++ [name]))
  (unused : files.Unused fresh)

include aims unused

/-- To create or remove a file where the guard lets a path lead to changes nothing that is
governed, and nothing outside of the project. -/
theorem read_of_touches {written : Option Identity}
    (touches : ∃ directory name, files.entryOf path = some (directory, name) ∧
      InodeTree.Touches files after (directory ++ [name]) written)
    (new : written = none ∨ written = some fresh) {other : Location}
    (kept : Governed project other ∨ ¬project <+: other) : after.read other = files.read other := by
  obtain ⟨directory, name, found, touches⟩ := touches
  have admitted := aims directory name found
  refine touches.read ?_ ?_
  · rcases kept with governed | outside
    · exact (admitted.apart_of_governed governed).1
    · exact fun same => outside (same ▸ admitted.inside)
  · intro isFile
    rcases new with rfl | rfl
    · simp
    · have there : files.node other ≠ none := by
        rw [isFile]
        simp
      exact fun same => unused other there (Option.some.inj same).symm

/-- To write into what the guard lets a path lead to changes nothing that is governed, and
outside of the project only what is in the very file. -/
theorem read_of_overwrite (overwritten : files.overwrite path fresh data = some after)
    {other : Location} (kept : Governed project other ∨ ¬project <+: other) :
    after.node other = files.node other ∧
      (Governed project other ∨ ¬HardLink files path other → after.read other = files.read other) := by
  obtain ⟨directory, name, opened, touches⟩ := InodeTree.touches_overwrite overwritten
  obtain ⟨directory', name', found, direct⟩ := InodeTree.openEntry_cases opened
  have admitted := aims directory' name' found
  cases direct admitted.noLink
  have elsewhere : other ≠ directory ++ [name] := by
    rcases kept with governed | outside
    · exact (admitted.apart_of_governed governed).1
    · exact fun same => outside (same ▸ admitted.inside)
  refine ⟨touches.node other elsewhere, fun spared => touches.read elsewhere fun isFile => ?_⟩
  intro same
  have same := Option.some.inj same
  split at same
  · next written =>
      have there : files.node (directory ++ [name]) ≠ none := by
        rw [written]
        simp
      rcases spared with governed | noLink
      · exact (admitted.apart_of_governed governed).2 isFile there same
      · exact noLink ⟨directory, name, found, written, isFile, same.symm⟩
  · have there : files.node other ≠ none := by
      rw [isFile]
      simp
    exact unused other there same.symm

end

/-- Where `assert_mutation_allowed` returns, to overwrite, replace or unlink a target changes
nothing that is governed.  Outside of the project nothing is replaced or unlinked, and only a
file is written that the target is a hard link of. -/
theorem assertMutationAllowed_protects {target : PurePath}
    (allowed : assertMutationAllowed files root targets operation = .ok ())
    (member : target ∈ targets) :
    ∃ project path, files.resolveStrict root.parts = .ok project ∧
      path = (candidateOf ⟨.slash, project⟩ target).parts ∧
      ∀ fresh, files.Unused fresh → ∀ data after,
        (files.overwrite path fresh data = some after →
          (∀ place, Governed project place → after.read place = files.read place) ∧
            ∀ place, ¬project <+: place → after.node place = files.node place ∧
              (¬HardLink files path place → after.read place = files.read place)) ∧
        (files.replace path fresh data = some after ∨ files.unlink path = some after →
          ∀ place, Governed project place ∨ ¬project <+: place →
            after.read place = files.read place) := by
  unfold assertMutationAllowed at allowed
  obtain ⟨project, isProject, allowed⟩ := bind_eq_ok.mp allowed
  rw [mapError_eq_ok] at isProject
  have free := (resolveStrict_sound isProject).1
  have aims (directory : Location) (name : Text) :=
    @admitted_of_assertTarget _ _ _ directory name _ _ free (ok_of_forM allowed target member)
  refine ⟨project, _, isProject, rfl, fun fresh unused data after => ⟨fun overwritten => ?_, ?_⟩⟩
  · refine ⟨fun place governed => ?_, fun place outside => ?_⟩
    · exact (read_of_overwrite aims unused overwritten (.inl governed)).2 (.inl governed)
    · obtain ⟨sameNode, sameRead⟩ := read_of_overwrite aims unused overwritten (.inr outside)
      exact ⟨sameNode, fun noLink => sameRead (.inr noLink)⟩
  · rintro (replaced | unlinked) place kept
    · exact read_of_touches aims unused (InodeTree.touches_replace replaced) (.inr rfl) kept
    · exact read_of_touches aims unused (InodeTree.touches_unlink unlinked) (.inl rfl) kept

/-- A project with rules, and with notes that are linked from outside of it. -/
def linkedNotes : InodeTree :=
  InodeTree.ofTree
    (LinkTree.ofNodes
      [([text "work"], .directory), ([text "work", text ".agents"], .directory),
        ([text "work", text ".agents", text "rules.md"], .file),
        ([text "work", text "notes.md"], .file), ([text "notes.md"], .file)]
      (by decide +kernel))
    (fun place =>
      if place.getLast? = some (text "notes.md") then (1, 2)
      else if place.getLast? = some (text "rules.md") then (1, 1)
      else (0, place.length))
    (fun _ => []) (by decide +kernel)

theorem assertMutationAllowed_protects_linkedNotes :
    ∃ project path,
      linkedNotes.resolveStrict [text "work"] = .ok project ∧
      path = (candidateOf ⟨.slash, project⟩ ⟨.relative, [text "notes.md"]⟩).parts ∧
      ∀ fresh, linkedNotes.Unused fresh → ∀ data after,
        (linkedNotes.overwrite path fresh data = some after →
          (∀ place, Governed project place → after.read place = linkedNotes.read place) ∧
            ∀ place, ¬project <+: place → after.node place = linkedNotes.node place ∧
              (¬HardLink linkedNotes path place → after.read place = linkedNotes.read place)) ∧
        (linkedNotes.replace path fresh data = some after ∨
            linkedNotes.unlink path = some after →
          ∀ place, Governed project place ∨ ¬project <+: place →
            after.read place = linkedNotes.read place) :=
  @assertMutationAllowed_protects linkedNotes ⟨.slash, [text "work"]⟩ (text "write")
    [⟨.relative, [text "notes.md"]⟩] ⟨.relative, [text "notes.md"]⟩ (by decide +kernel)
    (List.mem_singleton.mpr rfl)

/-- To write the notes of the project writes the notes outside of it. -/
theorem linkedNotes_outside :
    assertMutationAllowed linkedNotes ⟨.slash, [text "work"]⟩ [⟨.relative, [text "notes.md"]⟩]
        (text "write") = .ok () ∧
      ∃ after, linkedNotes.overwrite [text "work", text "notes.md"] (1, 3) [0] = some after ∧
        ¬[text "work"] <+: [text "notes.md"] ∧
          linkedNotes.read [text "notes.md"] = some (.file, []) ∧
            after.read [text "notes.md"] = some (.file, [0]) := by
  refine ⟨by decide +kernel, ?_⟩
  obtain ⟨after, isAfter⟩ : ∃ after,
      linkedNotes.overwrite [text "work", text "notes.md"] (1, 3) [0] = some after :=
    Option.isSome_iff_exists.mp (by decide +kernel)
  have read : (linkedNotes.overwrite [text "work", text "notes.md"] (1, 3) [0]).map
      (fun files => files.read [text "notes.md"]) = some (some (.file, [0])) := by decide +kernel
  rw [isAfter] at read
  exact ⟨after, isAfter, by decide, by decide +kernel, Option.some.inj read⟩

end Governance

end CarbonLab.Aegis
