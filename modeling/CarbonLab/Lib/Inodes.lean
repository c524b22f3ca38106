import CarbonLab.Lib.Bytes
import CarbonLab.Lib.LinkPaths
import Mathlib.Logic.Function.Basic

/-!
# Hard links

A tree of links whose files have an identity, which several places may share, and contents.
What it is to write, replace or remove what a path leads to, and what each of these touches.
-/

namespace CarbonLab

/-- `(st_dev, st_ino)` -/
abbrev Identity := ℕ × ℕ

/-- A tree whose nodes have identities and whose files have contents. -/
structure InodeTree extends LinkTree where
  identity : Location → Identity
  contents : Identity → Bytes
  names : ∀ place name, toLinkTree.node (place ++ [name]) ≠ none → IsEntry name

namespace LinkTree

theorem lookup_filter_bne {α β : Type} [BEq α] [LawfulBEq α] (key other : α)
    (entries : List (α × β)) :
    List.lookup other (entries.filter (·.1 != key)) =
      if other == key then none else entries.lookup other := by
  induction entries with
  | nil => simp
  | cons pair rest ih =>
      rw [List.filter_cons, List.lookup_cons]
      by_cases here : pair.1 = key
      · rw [if_neg (by simpa using here), ih]
        by_cases same : other = key
        · rw [if_pos (beq_iff_eq.mpr same), if_pos (beq_iff_eq.mpr same)]
        · rw [beq_false_of_ne same, beq_false_of_ne (here ▸ same)]
      · rw [if_pos (by simpa using here), List.lookup_cons, ih]
        by_cases same : other = pair.1
        · have apart : other ≠ key := same ▸ here
          rw [beq_false_of_ne apart, beq_iff_eq.mpr same]
          rfl
        · rw [beq_false_of_ne same]

/-- The tree with a file at a place of a directory. -/
def putFile (tree : LinkTree) (directory : Location) (name : Text)
    (inside : tree.node directory = some .directory)
    (leaf : tree.node (directory ++ [name]) ≠ some .directory) : LinkTree where
  nodes := (directory ++ [name], .file) :: tree.nodes
  parents := by
    intro place entry present
    have kept (above : Location) (is : tree.node above = some .directory) : above = [] ∨
        List.lookup above ((directory ++ [name], LinkNode.file) :: tree.nodes) =
          some .directory := by
      by_cases top : above = []
      · exact Or.inl top
      · have other : (above == directory ++ [name]) = false :=
          beq_false_of_ne fun same => leaf (same ▸ is)
        rw [List.lookup_cons, other]
        rw [node, if_neg top] at is
        exact Or.inr is
    rw [List.lookup_cons] at present
    split at present
    · next same =>
        have above := List.append_inj_left' (beq_iff_eq.mp same) rfl
        rw [above]
        exact kept directory inside
    · refine kept place ?_
      unfold node
      rcases tree.parents place entry present with top | there
      · rw [if_pos top]
      · rw [there]
        split <;> rfl

/-- The tree without what is no directory. -/
def remove (tree : LinkTree) (place : Location) (leaf : tree.node place ≠ some .directory) :
    LinkTree where
  nodes := tree.nodes.filter (·.1 != place)
  parents := by
    intro above entry present
    rw [lookup_filter_bne] at present
    split at present
    · exact absurd rfl present
    · rcases tree.parents above entry present with top | there
      · exact Or.inl top
      · by_cases top : above = []
        · exact Or.inl top
        · have other : above ≠ place := by
            intro same
            refine leaf ?_
            rw [← same, node, if_neg top, there]
          rw [lookup_filter_bne, beq_false_of_ne other, there]
          exact Or.inr rfl

section

variable {tree : LinkTree} {directory place other : Location} {name : Text}

theorem node_putFile {inside : tree.node directory = some .directory}
    {leaf : tree.node (directory ++ [name]) ≠ some .directory} :
    (tree.putFile directory name inside leaf).node other =
      if other = directory ++ [name] then some .file else tree.node other := by
  unfold node putFile
  by_cases top : other = []
  · rw [if_pos top, if_pos top, if_neg (by rw [top]; simp)]
  · rw [if_neg top, if_neg top, List.lookup_cons]
    by_cases same : other = directory ++ [name]
    · rw [if_pos same, beq_iff_eq.mpr same]
    · rw [if_neg same, beq_false_of_ne same]

theorem node_remove {leaf : tree.node place ≠ some .directory} :
    (tree.remove place leaf).node other = if other = place then none else tree.node other := by
  unfold node remove
  by_cases top : other = []
  · have apart : other ≠ place := by
      intro same
      refine leaf ?_
      rw [← same, node, if_pos top]
    rw [if_pos top, if_pos top, if_neg apart]
  · rw [if_neg top, if_neg top, lookup_filter_bne]
    simp only [beq_iff_eq]

end

/-- The directory that the system looks for the last name of a path in, and this name. -/
def entryOf (tree : LinkTree) (path : List Text) : Option (Location × Text) :=
  match path.getLast?, tree.follow linkLimit [] path.dropLast with
  | some name, .ok directory =>
      if IsEntry name ∧ tree.node directory = some .directory then some (directory, name) else none
  | _, _ => none

/-- Where `open` of a path comes that may create a file; `jump` goes on where a link leads. -/
def openWith (tree : LinkTree) (jump : List Text → Option (Location × Text)) (path : List Text) :
    Option (Location × Text) := do
  let (directory, name) ← tree.entryOf path
  match tree.node (directory ++ [name]) with
  | some (.symlink target) => jump (linkBase directory target ++ linkNames target)
  | _ => some (directory, name)

/-- `open` with at most so many links at the end of the path. -/
def openEntry (tree : LinkTree) : ℕ → List Text → Option (Location × Text)
  | 0 => tree.openWith fun _ => none
  | links + 1 => tree.openWith (openEntry tree links)

end LinkTree

namespace InodeTree

variable (files : InodeTree)

/-- What stands at a place, with what is in it. -/
def read (place : Location) : Option (LinkNode × Bytes) :=
  match files.node place with
  | some .file => some (.file, files.contents (files.identity place))
  | some node => some (node, [])
  | none => none

/-- A new file at a place of a directory. -/
def create (directory : Location) (name : Text) (fresh : Identity) (data : Bytes) :
    Option InodeTree :=
  if fits : IsEntry name ∧ files.node directory = some .directory ∧
      files.node (directory ++ [name]) ≠ some .directory then
    some
      { toLinkTree := files.putFile directory name fits.2.1 fits.2.2
        identity := Function.update files.identity (directory ++ [name]) fresh
        contents := Function.update files.contents fresh data
        names := by
          intro place entry there
          rw [LinkTree.node_putFile] at there
          split at there
          · next same =>
              rw [List.singleton_inj.mp (List.append_inj' same rfl).2]
              exact fits.1
          · exact files.names place entry there }
  else none

/-- The files of a tree whose nodes have names. -/
def ofTree (tree : LinkTree) (identity : Location → Identity) (contents : Identity → Bytes)
    (named : ∀ pair ∈ tree.nodes, ∀ name ∈ pair.1.getLast?, IsEntry name) : InodeTree where
  toLinkTree := tree
  identity := identity
  contents := contents
  names place name there := by
    rw [LinkTree.node, if_neg (by simp)] at there
    obtain ⟨node, member⟩ := LinkTree.mem_of_lookup_ne_none there
    exact named _ member name List.getLast?_concat

/-- `open(path, "wb").write(data)`: a file that is there keeps its identity. -/
def overwrite (path : List Text) (fresh : Identity) (data : Bytes) : Option InodeTree := do
  let (directory, name) ← files.openEntry LinkTree.linkLimit path
  match files.node (directory ++ [name]) with
  | some .file =>
      some
        { files with
          contents := Function.update files.contents (files.identity (directory ++ [name])) data }
  | some _ => none
  | none => files.create directory name fresh data

/-- `os.replace(temporary, path)` of a new file with this data. -/
def replace (path : List Text) (fresh : Identity) (data : Bytes) : Option InodeTree := do
  let (directory, name) ← files.entryOf path
  files.create directory name fresh data

/-- `os.unlink(path)` -/
def unlink (path : List Text) : Option InodeTree := do
  let (directory, name) ← files.entryOf path
  if there : files.node (directory ++ [name]) ≠ none ∧
      files.node (directory ++ [name]) ≠ some .directory then
    some
      { toLinkTree := files.remove (directory ++ [name]) there.2
        identity := files.identity
        contents := files.contents
        names := by
          intro place entry present
          rw [LinkTree.node_remove] at present
          split at present
          · exact absurd rfl present
          · exact files.names place entry present }
  else none

/-! ## What a change touches -/

/-- No node has this identity. -/
def Unused (files : InodeTree) (fresh : Identity) : Prop :=
  ∀ place, files.node place ≠ none → files.identity place ≠ fresh

/-- Only what stands at one place is another, and only what is in one file. -/
structure Touches (before after : InodeTree) (place : Location) (written : Option Identity) :
    Prop where
  node : ∀ other, other ≠ place → after.node other = before.node other
  identity : ∀ other, other ≠ place → after.identity other = before.identity other
  contents : ∀ other, written ≠ some other → after.contents other = before.contents other

variable {files} {after : InodeTree} {place other directory : Location} {name : Text}
  {path : List Text} {fresh : Identity} {written : Option Identity} {data : Bytes}

/-- What stands elsewhere, and is not what was written, is read as before. -/
theorem Touches.read (touches : Touches files after place written) (elsewhere : other ≠ place)
    (apart : files.node other = some .file → written ≠ some (files.identity other)) :
    after.read other = files.read other := by
  unfold InodeTree.read
  rw [touches.node other elsewhere, touches.identity other elsewhere]
  cases there : files.node other with
  | none => rfl
  | some node =>
      cases node with
      | file => simp only [touches.contents _ (apart there)]
      | directory => rfl
      | symlink target => rfl

theorem touches_create (created : files.create directory name fresh data = some after) :
    Touches files after (directory ++ [name]) (some fresh) := by
  unfold create at created
  split at created
  · next fits =>
    obtain rfl := Option.some.inj created
    refine ⟨fun other elsewhere => ?_, fun other elsewhere => ?_, fun other apart => ?_⟩
    · exact (@LinkTree.node_putFile _ _ other _ fits.2.1 fits.2.2).trans (if_neg elsewhere)
    · exact Function.update_of_ne elsewhere _ _
    · exact Function.update_of_ne (fun same => apart (congrArg some same.symm)) _ _
  · cases created

/-- What it is to write what a path leads to. -/
theorem touches_overwrite (overwritten : files.overwrite path fresh data = some after) :
    ∃ directory name, files.openEntry LinkTree.linkLimit path = some (directory, name) ∧
      Touches files after (directory ++ [name])
        (some (if files.node (directory ++ [name]) = some .file
          then files.identity (directory ++ [name]) else fresh)) := by
  unfold overwrite at overwritten
  obtain ⟨⟨directory, name⟩, opened, overwritten⟩ := Option.bind_eq_some_iff.mp overwritten
  refine ⟨directory, name, opened, ?_⟩
  dsimp only at overwritten
  split at overwritten
  · next isFile =>
      obtain rfl := Option.some.inj overwritten
      rw [if_pos isFile]
      refine ⟨fun _ _ => rfl, fun _ _ => rfl, fun other apart => ?_⟩
      exact Function.update_of_ne (fun same => apart (congrArg some same.symm)) _ _
  · cases overwritten
  · next absent =>
      rw [if_neg (by rw [absent]; simp)]
      exact touches_create overwritten

theorem touches_replace (replaced : files.replace path fresh data = some after) :
    ∃ directory name, files.entryOf path = some (directory, name) ∧
      Touches files after (directory ++ [name]) (some fresh) := by
  unfold replace at replaced
  obtain ⟨⟨directory, name⟩, found, replaced⟩ := Option.bind_eq_some_iff.mp replaced
  exact ⟨directory, name, found, touches_create replaced⟩

theorem touches_unlink (unlinked : files.unlink path = some after) :
    ∃ directory name, files.entryOf path = some (directory, name) ∧
      Touches files after (directory ++ [name]) none := by
  unfold unlink at unlinked
  obtain ⟨⟨directory, name⟩, found, unlinked⟩ := Option.bind_eq_some_iff.mp unlinked
  refine ⟨directory, name, found, ?_⟩
  dsimp only at unlinked
  split at unlinked
  · next there =>
    obtain rfl := Option.some.inj unlinked
    refine ⟨fun other elsewhere => ?_, fun _ _ => rfl, fun _ _ => rfl⟩
    exact (@LinkTree.node_remove _ _ other there.2).trans (if_neg elsewhere)
  · cases unlinked

/-! ## Where a path leads -/

/-- What is a directory stands behind no link. -/
theorem linkFree_of_directory (isDirectory : files.node place = some .directory) :
    files.LinkFree place := by
  induction place using List.reverseRecOn with
  | nil => exact LinkTree.linkFree_nil
  | append_singleton front last ih =>
      have there : files.node (front ++ [last]) ≠ none := by
        rw [isDirectory]
        simp
      refine LinkTree.linkFree_concat.mpr
        ⟨ih (LinkTree.directory_of_node there), files.names front last there, ?_⟩
      intro target isLink
      rw [isDirectory] at isLink
      cases isLink

theorem entryOf_eq_some : files.entryOf path = some (directory, name) ↔
    path.getLast? = some name ∧ files.follow LinkTree.linkLimit [] path.dropLast = .ok directory ∧
      IsEntry name ∧ files.node directory = some .directory := by
  unfold LinkTree.entryOf
  split
  · next last found isLast isFound =>
      rw [isLast, isFound, Option.some.injEq, Except.ok.injEq]
      constructor
      · intro same
        split at same
        · next fits =>
            cases same
            exact ⟨rfl, rfl, fits⟩
        · cases same
      · intro ⟨sameName, samePlace, fits⟩
        subst sameName samePlace
        rw [if_pos fits]
  · next missing =>
      refine iff_of_false (by simp) ?_
      intro ⟨isLast, isFound, _⟩
      exact missing _ _ isLast isFound

/-- What is opened stands in some directory, and what is no link is opened itself. -/
theorem openEntry_cases {links : ℕ} {opened : Location × Text}
    (found : files.openEntry links path = some opened) :
    ∃ directory name, files.entryOf path = some (directory, name) ∧
      ((∀ target, files.node (directory ++ [name]) ≠ some (.symlink target)) →
        opened = (directory, name)) := by
  obtain ⟨jump, found⟩ : ∃ jump, files.openWith jump path = some opened := by
    cases links with
    | zero => exact ⟨_, found⟩
    | succ links => exact ⟨_, found⟩
  unfold LinkTree.openWith at found
  obtain ⟨⟨directory, name⟩, isEntry, found⟩ := Option.bind_eq_some_iff.mp found
  refine ⟨directory, name, isEntry, fun noLink => ?_⟩
  dsimp only at found
  split at found
  · next isLink => exact absurd isLink (noLink _)
  · exact (Option.some.inj found).symm

end InodeTree

end CarbonLab
