import CarbonLab.Lib.JsonToken
import CarbonLab.Lib.Reads

/-!
# Symbolic links

A tree of directories, files and symbolic links; how the system follows a path in it, what
`os.path.realpath` makes of one, and which places both of them mean.
-/

namespace CarbonLab

/-- A place below the root directory. -/
abbrev Location := List Text

/-- What stands at a place. -/
inductive LinkNode
  | directory
  | file
  | symlink (target : Text)
  deriving DecidableEq, Repr

/-- What is below the root directory. -/
structure LinkTree where
  nodes : List (Location × LinkNode)
  parents : ∀ place name, nodes.lookup (place ++ [name]) ≠ none →
    place = [] ∨ nodes.lookup place = some .directory

/-- The error of a path that is looked up. -/
inductive LookupFault
  | notFound
  | notDirectory
  /-- Too many symbolic links. -/
  | loop
  deriving DecidableEq, Repr

/-- The names of a path, with empty ones and dots. -/
def linkNames (target : Text) : List Text := target.splitOn (code '/')

/-- Where a link target starts that stands in this directory. -/
def linkBase (directory : Location) (target : Text) : Location :=
  if target.head? = some (code '/') then [] else directory

/-- A name that is an entry of a directory. -/
def IsEntry (name : Text) : Prop := name ≠ [] ∧ name ≠ text "." ∧ name ≠ text ".."

instance (name : Text) : Decidable (IsEntry name) := by
  unfold IsEntry
  infer_instance

namespace LinkTree

theorem mem_of_lookup_ne_none {α β : Type} [BEq α] [LawfulBEq α] {key : α} {entries : List (α × β)}
    (there : entries.lookup key ≠ none) : ∃ value, (key, value) ∈ entries := by
  by_contra absent
  refine there (List.lookup_eq_none_iff.mpr fun pair member => bne_iff_ne.mpr ?_)
  rintro rfl
  exact absent ⟨pair.2, member⟩

/-- The tree of nodes that each stand in a directory. -/
def ofNodes (nodes : List (Location × LinkNode))
    (rooted : ∀ pair ∈ nodes,
      pair.1.dropLast = [] ∨ nodes.lookup pair.1.dropLast = some .directory) : LinkTree where
  nodes := nodes
  parents place name there := by
    obtain ⟨node, member⟩ := mem_of_lookup_ne_none there
    have above := rooted _ member
    rwa [List.dropLast_concat] at above

variable (tree : LinkTree)

/-- What stands at a place. -/
def node (place : Location) : Option LinkNode :=
  if place = [] then some .directory else tree.nodes.lookup place

/-! ## The system -/

/-- Follow names from a directory; `jump` goes on where a link leads. -/
def followWith (jump : Location → List Text → Except LookupFault Location) :
    Location → List Text → Except LookupFault Location
  | place, [] => .ok place
  | place, name :: rest =>
      if tree.node place ≠ some .directory then .error .notDirectory
      else if name = [] ∨ name = text "." then followWith jump place rest
      else if name = text ".." then followWith jump place.dropLast rest
      else
        match tree.node (place ++ [name]) with
        | none => .error .notFound
        | some (.symlink target) => jump (linkBase place target) (linkNames target ++ rest)
        | some _ => followWith jump (place ++ [name]) rest

/-- Follow names with at most so many links on the way. -/
def follow : ℕ → Location → List Text → Except LookupFault Location
  | 0 => tree.followWith fun _ _ => .error .loop
  | links + 1 => tree.followWith (follow links)

/-- How many links the system follows on one path. -/
def linkLimit : ℕ := 40

/-- `os.lstat(path)`: the last name is not followed. -/
def lstat (path : List Text) : Except LookupFault LinkNode :=
  match path.getLast? with
  | none => .ok .directory
  | some name => do
      let place ← tree.follow linkLimit [] path.dropLast
      let found :=
        if name = [] ∨ name = text "." then tree.node place
        else if name = text ".." then tree.node place.dropLast
        else tree.node (place ++ [name])
      if tree.node place ≠ some .directory then .error .notDirectory
      else
        match found with
        | some node => .ok node
        | none => .error .notFound

/-- `os.stat(path)`, up to what it returns. -/
def stat (path : List Text) : Except LookupFault LinkNode := do
  let place ← tree.follow linkLimit [] path
  match tree.node place with
  | some node => .ok node
  | none => .error .notFound

/-! ## realpath -/

/-- The links that were met: being resolved, or resolved to a place. -/
abbrev Seen := List (Location × Option Location)

/-- What `_joinrealpath` returns: a path, whether all links were resolved, and the links that
were met. -/
abbrev Joined := List Text × Bool × Seen

/-- `_joinrealpath`; `resolve` resolves the target of a link. -/
def joinRealWith (strict : Bool)
    (resolve : Seen → Location → List Text → Except LookupFault Joined) :
    Seen → Location → List Text → Except LookupFault Joined
  | seen, path, [] => .ok (path, true, seen)
  | seen, path, name :: rest =>
      if name = [] ∨ name = text "." then joinRealWith strict resolve seen path rest
      else if name = text ".." then joinRealWith strict resolve seen path.dropLast rest
      else
        match tree.lstat (path ++ [name]) with
        | .error fault =>
            if strict then .error fault
            else joinRealWith strict resolve seen (path ++ [name]) rest
        | .ok (.symlink target) =>
            match seen.lookup (path ++ [name]) with
            | some (some cached) => joinRealWith strict resolve seen cached rest
            | some none =>
                if strict then .error .loop else .ok (path ++ [name] ++ rest, false, seen)
            | none => do
                let (reached, resolved, met) ←
                  resolve ((path ++ [name], none) :: seen) (linkBase path target) (linkNames target)
                if resolved then
                  joinRealWith strict resolve ((path ++ [name], some reached) :: met) reached rest
                else .ok (reached ++ rest, false, met)
        | .ok _ => joinRealWith strict resolve seen (path ++ [name]) rest

/-- `_joinrealpath` with at most so many links inside each other. -/
def joinReal (strict : Bool) : ℕ → Seen → Location → List Text → Except LookupFault Joined
  | 0 => tree.joinRealWith strict fun _ _ _ => .error .loop
  | depth + 1 => tree.joinRealWith strict (joinReal strict depth)

/-- `os.path.normpath` of the names of an absolute path. -/
def normalize : List Text → Location :=
  List.foldl
    (fun place name =>
      if name = [] ∨ name = text "." then place
      else if name = text ".." then place.dropLast
      else place ++ [name])
    []

/-- `_joinrealpath` of an absolute path.  No link is resolved inside itself, so that no more
links than there are stand inside each other. -/
def joined (strict : Bool) (path : List Text) : Except LookupFault Joined :=
  tree.joinReal strict tree.nodes.length [] [] path

/-- `Path.resolve(strict=True)` of an absolute path. -/
def resolveStrict (path : List Text) : Except LookupFault Location :=
  (fun result => normalize result.1) <$> tree.joined true path

/-- `Path.resolve(strict=False)` of an absolute path, which raises where the system finds a loop
at what `realpath` returns. -/
def resolve (path : List Text) : Except LookupFault Location := do
  let (names, _, _) ← tree.joined false path
  if tree.stat (normalize names) = .error .loop then .error .loop else .ok (normalize names)

end LinkTree

end CarbonLab
