import CarbonLab.Lib.RealPath
import CarbonLab.Aegis.WriteScope

/-!
# Confined paths

`is_path_redirect` and `confined_path` of `security.py`, on POSIX.  The texts of the paths inside
a message are left out.
-/

namespace CarbonLab.Aegis

/-- What stands before the parts of a path. -/
inductive PathAnchor
  | relative
  | slash
  /-- Two slashes, which POSIX keeps apart from one. -/
  | doubleSlash
  deriving DecidableEq, Repr

/-- A `Path`. -/
structure PurePath where
  anchor : PathAnchor
  parts : List Text
  deriving DecidableEq, Repr

/-- `Path(value)` -/
def PurePath.ofText (value : Text) : PurePath where
  anchor :=
    match value.takeWhile (· = code '/') with
    | [] => .relative
    | [_, _] => .doubleSlash
    | _ => .slash
  parts := pathParts value

/-- What `confined_path` raises. -/
inductive ConfineFault
  | securityError (message : Text)
  /-- An error of `resolve`. -/
  | lookup (fault : LookupFault)
  deriving DecidableEq, Repr

/-- An error of the system. -/
def ofLookup {α : Type} : Except LookupFault α → Except ConfineFault α
  | .ok value => .ok value
  | .error fault => .error (.lookup fault)

namespace Confine

open LinkTree

variable (tree : LinkTree)

/-- `is_path_redirect` -/
def isPathRedirect (path : List Text) : Bool :=
  match tree.lstat path with
  | .ok (.symlink _) => true
  | _ => false

/-- The loop over the parts of the path as it is spelled. -/
def refuseRedirects (current : List Text) : List Text → Except ConfineFault Unit
  | [] => .ok ()
  | part :: rest =>
      if isPathRedirect tree (current ++ [part]) then
        .error (.securityError (text "redirected control path is not allowed"))
      else refuseRedirects (current ++ [part]) rest

/-- The loop over the parts below the resolved root. -/
def refuseBelow (rejectSymlinks : Bool) (current : Location) :
    List Text → Except ConfineFault Unit
  | [] => .ok ()
  | part :: rest =>
      if part ∈ [[], text ".", text ".."] then
        .error (.securityError (text "non-canonical path component"))
      else if rejectSymlinks = true ∧ isPathRedirect tree (current ++ [part]) = true then
        .error (.securityError (text "redirected control path is not allowed"))
      else refuseBelow rejectSymlinks (current ++ [part]) rest

/-- The path that `confined_path` looks at first. -/
def candidateOf (suppliedRoot value : PurePath) : PurePath :=
  if value.anchor = .relative then ⟨suppliedRoot.anchor, suppliedRoot.parts ++ value.parts⟩
  else value

/-- `candidate.parent.resolve(strict=False) / candidate.name` -/
def absoluteOf (candidate : PurePath) : Except LookupFault Location :=
  match candidate.parts.getLast? with
  | none => tree.resolve []
  | some name => (· ++ [name]) <$> tree.resolve candidate.parts.dropLast

/-- The second half of `confined_path`: the checks of the path below the resolved root. -/
def confineBelow (root absolute : Location) (mustExist rejectSymlinks allowRoot : Bool) :
    Except ConfineFault Location := do
  if ¬root <+: absolute then .error (.securityError (text "path escapes root")) else
  let rel := absolute.drop root.length
  if allowRoot = false ∧ rel = [] then
    .error (.securityError (text "root itself is not a valid confined child path")) else
  refuseBelow tree rejectSymlinks root rel
  let there := match tree.stat absolute with
    | .ok _ => true
    | .error _ => false
  if mustExist = true ∧ there = false then
    .error (.securityError (text "required path does not exist")) else
  if there then
    let resolved ← ofLookup (tree.resolveStrict absolute)
    if root <+: resolved then .ok absolute
    else .error (.securityError (text "resolved path escapes root"))
  else .ok absolute

/-- `confined_path`; `suppliedRoot` is `Path(root).absolute()`. -/
def confinedPath (suppliedRoot value : PurePath) (mustExist rejectSymlinks allowRoot : Bool) :
    Except ConfineFault Location := do
  let root ← ofLookup (tree.resolveStrict suppliedRoot.parts)
  if text ".." ∈ value.parts then
    .error (.securityError (text "parent traversal is not allowed")) else
  let candidate := candidateOf suppliedRoot value
  if rejectSymlinks = true ∧ candidate.anchor = suppliedRoot.anchor ∧
      suppliedRoot.parts <+: candidate.parts then
    refuseRedirects tree suppliedRoot.parts (candidate.parts.drop suppliedRoot.parts.length)
  let absolute ← ofLookup (absoluteOf tree candidate)
  confineBelow tree root absolute mustExist rejectSymlinks allowRoot

variable {tree : LinkTree} {suppliedRoot value other : PurePath} {root place path : Location}
  {rest : List Text} {name : Text} {mustExist rejectSymlinks allowRoot : Bool}

@[simp] theorem ofLookup_eq_ok {α : Type} {result : Except LookupFault α} {found : α} :
    ofLookup result = .ok found ↔ result = .ok found := by
  cases result <;> simp [ofLookup]

/-! ## Links -/

/-- Behind a place without links, a redirect is a link. -/
theorem isPathRedirect_iff (free : tree.LinkFree place) (entry : IsEntry name) :
    isPathRedirect tree (place ++ [name]) = true ↔
      ∃ target, tree.node (place ++ [name]) = some (.symlink target) := by
  unfold isPathRedirect
  constructor
  · intro redirect
    split at redirect
    · next target found => exact ⟨target, (lstat_eq_ok free entry).mp found⟩
    · cases redirect
  · rintro ⟨target, isLink⟩
    rw [(lstat_eq_ok free entry).mpr isLink]

/-- The parts that the second loop lets pass are entries and no links. -/
theorem linkFree_of_refuseBelow (free : tree.LinkFree place)
    (passed : refuseBelow tree true place rest = .ok ()) :
    tree.LinkFree (place ++ rest) ∧ ∀ part ∈ rest, IsEntry part := by
  induction rest generalizing place with
  | nil =>
      rw [List.append_nil]
      exact ⟨free, fun part missing => absurd missing List.not_mem_nil⟩
  | cons part rest ih =>
      rw [refuseBelow] at passed
      split at passed
      · cases passed
      · next canonical =>
          have entry : IsEntry part := by simpa [IsEntry] using canonical
          split at passed
          · cases passed
          · next direct =>
              have noLink : ∀ target, tree.node (place ++ [part]) ≠ some (.symlink target) :=
                fun target isLink => direct ⟨rfl, (isPathRedirect_iff free entry).mpr ⟨target, isLink⟩⟩
              obtain ⟨whole, entries⟩ := ih (linkFree_concat.mpr ⟨free, entry, noLink⟩) passed
              refine ⟨?_, List.forall_mem_cons.mpr ⟨entry, entries⟩⟩
              rwa [List.append_assoc] at whole

/-- A path that means a place without links is spelled without redirects behind it. -/
theorem refuseRedirects_of_linkFree {current : List Text} (means : tree.Resolves [] current place)
    (free : tree.LinkFree (place ++ rest)) : refuseRedirects tree current rest = .ok () := by
  induction rest generalizing current place with
  | nil => rfl
  | cons part rest ih =>
      have split : place ++ part :: rest = (place ++ [part]) ++ rest := by simp
      rw [split] at free
      have start : tree.LinkFree (place ++ [part]) := free.of_prefix (List.prefix_append _ _)
      obtain ⟨before, entry, noLink⟩ := linkFree_concat.mp start
      have direct : ¬isPathRedirect tree (current ++ [part]) = true := by
        intro redirect
        unfold isPathRedirect LinkTree.lstat at redirect
        rw [List.getLast?_concat, List.dropLast_concat] at redirect
        dsimp only at redirect
        cases come : tree.follow linkLimit [] current with
        | error fault =>
            rw [come] at redirect
            cases redirect
        | ok found =>
            rw [come, ok_bind, (follow_sound come).unique means,
              if_neg (not_or.mpr ⟨entry.1, entry.2.1⟩), if_neg entry.2.2] at redirect
            by_cases directory : tree.node place = some .directory
            · rw [if_neg (not_not.mpr directory)] at redirect
              cases isNode : tree.node (place ++ [part]) with
              | none =>
                  rw [isNode] at redirect
                  cases redirect
              | some node =>
                  rw [isNode] at redirect
                  cases node with
                  | symlink target => exact noLink target isNode
                  | directory => cases redirect
                  | file => cases redirect
            · rw [if_pos directory] at redirect
              cases redirect
      rw [refuseRedirects, if_neg direct]
      exact ih (means.append (resolves_linkFree start)) free

/-! ## What is returned -/

/-- What the second half of `confined_path` returns. -/
theorem confineBelow_eq_ok (free : tree.LinkFree root)
    (returned : confineBelow tree root place mustExist true false = .ok path) :
    path = place ∧ ∃ rel, place = root ++ rel ∧ rel ≠ [] ∧ tree.LinkFree (root ++ rel) ∧
      ∀ part ∈ rel, IsEntry part := by
  unfold confineBelow at returned
  split at returned
  · cases returned
  · next inside =>
      obtain ⟨rel, rfl⟩ := not_not.mp inside
      dsimp only at returned
      rw [List.drop_left] at returned
      split at returned
      · cases returned
      · next filled =>
          obtain ⟨_, passed, returned⟩ := bind_eq_ok.mp returned
          obtain ⟨whole, entries⟩ := linkFree_of_refuseBelow free passed
          refine ⟨?_, rel, rfl, fun empty => filled ⟨rfl, empty⟩, whole, entries⟩
          cases present : tree.stat (root ++ rel) with
          | error fault =>
              rw [present] at returned
              cases mustExist with
              | true => cases returned
              | false => exact (Except.ok.inj returned).symm
          | ok node =>
              rw [present] at returned
              dsimp only at returned
              rw [if_neg (by simp), if_pos rfl] at returned
              obtain ⟨resolved, _, returned⟩ := bind_eq_ok.mp returned
              split at returned
              · exact (Except.ok.inj returned).symm
              · cases returned

/-- What `confined_path` looks up before it checks the path below the root. -/
theorem confinedPath_eq_ok
    (returned : confinedPath tree suppliedRoot value mustExist true false = .ok path) :
    ∃ root, tree.resolveStrict suppliedRoot.parts = .ok root ∧ text ".." ∉ value.parts ∧
      absoluteOf tree (candidateOf suppliedRoot value) = .ok path ∧
      confineBelow tree root path mustExist true false = .ok path := by
  unfold confinedPath at returned
  obtain ⟨root, isRoot, returned⟩ := bind_eq_ok.mp returned
  rw [ofLookup_eq_ok] at isRoot
  split at returned
  · cases returned
  · next noParent =>
      dsimp only at returned
      have later : (ofLookup (absoluteOf tree (candidateOf suppliedRoot value)) >>=
          fun absolute => confineBelow tree root absolute mustExist true false) = .ok path := by
        split at returned
        · exact (bind_eq_ok.mp returned).choose_spec.2
        · exact returned
      obtain ⟨absolute, isAbsolute, below⟩ := bind_eq_ok.mp later
      rw [ofLookup_eq_ok] at isAbsolute
      obtain ⟨free, _⟩ := resolveStrict_sound isRoot
      have same := (confineBelow_eq_ok free below).1
      subst same
      exact ⟨root, isRoot, noParent, isAbsolute, below⟩

/-- A value whose spelling has no redirects and whose path is confined is accepted. -/
theorem confinedPath_of_parts (isRoot : tree.resolveStrict suppliedRoot.parts = .ok root)
    (noParent : text ".." ∉ value.parts)
    (spelled : ∀ rest, (candidateOf suppliedRoot value).parts = suppliedRoot.parts ++ rest →
      refuseRedirects tree suppliedRoot.parts rest = .ok ())
    (isAbsolute : absoluteOf tree (candidateOf suppliedRoot value) = .ok path)
    (below : confineBelow tree root path mustExist true false = .ok path) :
    confinedPath tree suppliedRoot value mustExist true false = .ok path := by
  unfold confinedPath
  rw [isRoot]
  simp only [ofLookup, ok_bind]
  rw [if_neg noParent, isAbsolute]
  dsimp only
  split
  · next lexical =>
      obtain ⟨rest, split⟩ := lexical.2.2
      rw [← split, List.drop_left, spelled rest split.symm]
      exact below
  · exact below

/-- The path of a candidate, when its last name is no link. -/
theorem absoluteOf_concat {candidate : PurePath} {parent : List Text}
    (split : candidate.parts = parent ++ [name]) :
    absoluteOf tree candidate = (· ++ [name]) <$> tree.resolve parent := by
  unfold absoluteOf
  rw [split, List.getLast?_concat, List.dropLast_concat]

/-- What confines a path. -/
structure Confined (tree : LinkTree) (suppliedRoot value : PurePath) (mustExist : Bool)
    (path root : Location) (rel : List Text) : Prop where
  /-- The path is the resolved root and parts below it. -/
  isRoot : tree.resolveStrict suppliedRoot.parts = .ok root
  below : path = root ++ rel
  filled : rel ≠ []
  canonical : ∀ part ∈ rel, part ≠ [] ∧ part ≠ text "." ∧ part ≠ text ".."
  /-- Nothing on the way is a symbolic link. -/
  direct : ∀ before, before ≠ [] → before <+: rel →
    ∀ target, tree.node (root ++ before) ≠ some (.symlink target)
  /-- To resolve the path leaves it inside the root. -/
  inside : tree.resolve path = .ok path
  /-- The path is what the spelled path is resolved to. -/
  resolved : tree.resolve (candidateOf suppliedRoot value).parts = .ok path
  /-- Its absolute spelling gives the same path, -/
  absolute : confinedPath tree suppliedRoot ⟨.slash, path⟩ mustExist true false = .ok path
  /-- and so does its spelling below the root. -/
  relative : confinedPath tree suppliedRoot ⟨.relative, rel⟩ mustExist true false = .ok path

/-- A path that `confined_path` returns is confined, and every other spelling of the same place
that it takes gives the same path. -/
theorem confinedPath_confines
    (returned : confinedPath tree suppliedRoot value mustExist true false = .ok path) :
    (∃ root rel, Confined tree suppliedRoot value mustExist path root rel) ∧
      ∀ other path', confinedPath tree suppliedRoot other mustExist true false = .ok path' →
        tree.resolve (candidateOf suppliedRoot other).parts =
          tree.resolve (candidateOf suppliedRoot value).parts → path' = path := by
  have resolves {value : PurePath} {path : Location}
      (returned : confinedPath tree suppliedRoot value mustExist true false = .ok path) :
      tree.resolve (candidateOf suppliedRoot value).parts = .ok path := by
    obtain ⟨root, isRoot, _, isAbsolute, below⟩ := confinedPath_eq_ok returned
    obtain ⟨_, rel, rfl, filled, free, _⟩ :=
      confineBelow_eq_ok (resolveStrict_sound isRoot).1 below
    rcases List.eq_nil_or_concat (candidateOf suppliedRoot value).parts with
      empty | ⟨parent, name, split⟩
    · unfold absoluteOf at isAbsolute
      rw [empty] at isAbsolute ⊢
      exact isAbsolute
    · rw [List.concat_eq_append] at split
      rw [absoluteOf_concat split] at isAbsolute
      rw [split]
      cases there : tree.resolve parent with
      | error fault =>
          rw [there] at isAbsolute
          cases isAbsolute
      | ok place =>
          rw [there] at isAbsolute
          have same : place ++ [name] = root ++ rel := Except.ok.inj isAbsolute
          rw [← same] at free ⊢
          exact resolve_concat there free
  refine ⟨?_, ?_⟩
  · obtain ⟨root, isRoot, _, isAbsolute, below⟩ := confinedPath_eq_ok returned
    obtain ⟨rootFree, means, met, joined⟩ := resolveStrict_sound isRoot
    obtain ⟨_, rel, rfl, filled, free, entries⟩ := confineBelow_eq_ok rootFree below
    obtain ⟨parent, name, rfl⟩ : ∃ parent name, rel = parent ++ [name] :=
      ⟨rel.dropLast, rel.getLast filled, (List.dropLast_append_getLast filled).symm⟩
    have parentFree : tree.LinkFree (root ++ parent) := by
      rw [← List.append_assoc] at free
      exact free.of_prefix (List.prefix_append _ _)
    refine ⟨root, parent ++ [name], ⟨isRoot, rfl, filled, entries, ?_, resolve_linkFree free,
      resolves returned, ?_, ?_⟩⟩
    · intro before present inside
      obtain ⟨start, last, rfl⟩ : ∃ start last, before = start ++ [last] :=
        ⟨before.dropLast, before.getLast present, (List.dropLast_append_getLast present).symm⟩
      rw [← List.append_assoc]
      refine (free (root ++ start) last ?_).2
      rw [List.append_assoc]
      exact (List.prefix_append_right_inj root).mpr inside
    · refine confinedPath_of_parts isRoot ?_ ?_ ?_ below
      · intro climbs
        obtain ⟨start, behind, split⟩ := List.append_of_mem climbs
        refine (free start (text "..") ?_).1.2.2 rfl
        dsimp only at split
        rw [split]
        simp
      · intro rest split
        have whole : root ++ (parent ++ [name]) = suppliedRoot.parts ++ rest := split
        rw [whole] at free
        have start := resolves_linkFree (show tree.LinkFree ([] ++ suppliedRoot.parts) from
          free.of_prefix (List.prefix_append _ _))
        exact refuseRedirects_of_linkFree start free
      · have split : (candidateOf suppliedRoot ⟨.slash, root ++ (parent ++ [name])⟩).parts =
            (root ++ parent) ++ [name] := (List.append_assoc _ _ _).symm
        rw [absoluteOf_concat split, resolve_linkFree parentFree]
        exact congrArg Except.ok (List.append_assoc _ _ _)
    · refine confinedPath_of_parts isRoot ?_ ?_ ?_ below
      · exact fun climbs => (entries _ climbs).2.2 rfl
      · intro rest split
        have same : parent ++ [name] = rest := List.append_cancel_left split
        rw [← same]
        exact refuseRedirects_of_linkFree means free
      · have split : (candidateOf suppliedRoot ⟨.relative, parent ++ [name]⟩).parts =
            (suppliedRoot.parts ++ parent) ++ [name] := (List.append_assoc _ _ _).symm
        rw [absoluteOf_concat split, resolve_append joined parentFree]
        exact congrArg Except.ok (List.append_assoc _ _ _)
  · intro other path' accepted same
    rw [resolves accepted, resolves returned] at same
    exact Except.ok.inj same

/-- A project that is reached through a link. -/
def linkedProject : LinkTree :=
  LinkTree.ofNodes
    [([text "home"], .directory), ([text "home", text "work"], .directory),
      ([text "home", text "work", text "app.py"], .file),
      ([text "project"], .symlink (text "home/work"))]
    (by decide +kernel)

/-- A file below a root that is itself reached through a link. -/
theorem confinedPath_linkedProject :
    ∃ root rel, Confined linkedProject ⟨.slash, [text "project"]⟩ ⟨.relative, [text "app.py"]⟩ true
      [text "home", text "work", text "app.py"] root rel :=
  (confinedPath_confines (by decide +kernel)).1

end Confine

end CarbonLab.Aegis
