import CarbonLab.Lib.Links
import Mathlib.Data.List.Induction

/-!
# Places that paths mean

What the system and `realpath` find for a path is the place that it means.  A place without
links on the way is what its own path means.
-/

namespace CarbonLab

namespace LinkTree

variable {tree : LinkTree} {place other : Location} {name : Text} {names rest : List Text}

/-! ## Places without links -/

/-- No place on the way, and not the place itself, is a symbolic link. -/
def LinkFree (tree : LinkTree) (place : Location) : Prop :=
  ∀ before name, before ++ [name] <+: place →
    IsEntry name ∧ ∀ target, tree.node (before ++ [name]) ≠ some (.symlink target)

theorem linkFree_nil : tree.LinkFree [] := by
  intro before name inside
  have empty := List.prefix_nil.mp inside
  simp at empty

theorem LinkFree.of_prefix (free : tree.LinkFree place) (inside : other <+: place) :
    tree.LinkFree other := fun before name start => free before name (start.trans inside)

theorem linkFree_concat : tree.LinkFree (place ++ [name]) ↔ tree.LinkFree place ∧ IsEntry name ∧
    ∀ target, tree.node (place ++ [name]) ≠ some (.symlink target) := by
  constructor
  · intro free
    exact ⟨free.of_prefix (List.prefix_append _ _), free place name (List.prefix_refl _)⟩
  · rintro ⟨free, last⟩ before entry inside
    rcases List.prefix_concat_iff.mp inside with whole | start
    · obtain ⟨rfl, same⟩ := List.append_inj' whole rfl
      cases same
      exact last
    · exact free before entry start

theorem LinkFree.dropLast (free : tree.LinkFree place) : tree.LinkFree place.dropLast :=
  free.of_prefix (List.dropLast_prefix place)

theorem LinkFree.linkBase (free : tree.LinkFree place) (target : Text) :
    tree.LinkFree (linkBase place target) := by
  unfold CarbonLab.linkBase
  split
  · exact linkFree_nil
  · exact free

/-- What exists stands in a directory. -/
theorem directory_of_node (there : tree.node (place ++ [name]) ≠ none) :
    tree.node place = some .directory := by
  unfold node at there ⊢
  rw [if_neg (by simp)] at there
  rcases tree.parents place name there with rfl | inside
  · rfl
  · split
    · rfl
    · exact inside

/-- Nothing is below what is no directory. -/
theorem node_append_eq_none (other : tree.node place ≠ some .directory) (filled : names ≠ []) :
    tree.node (place ++ names) = none := by
  induction names using List.reverseRecOn with
  | nil => exact absurd rfl filled
  | append_singleton names name ih =>
      by_contra there
      rw [← List.append_assoc] at there
      have above := directory_of_node there
      by_cases empty : names = []
      · rw [empty, List.append_nil] at above
        exact other above
      · rw [ih empty] at above
        cases above

/-! ## The system on places without links -/

/-- The system comes to a place without links, or there is none. -/
theorem followWith_linkFree
    {jump : Location → List Text → Except LookupFault Location}
    (free : tree.LinkFree (place ++ names)) :
    tree.followWith jump place names = .ok (place ++ names) ∨
      tree.node (place ++ names) = none ∧
        ∃ fault, fault ≠ .loop ∧ tree.followWith jump place names = .error fault := by
  induction names generalizing place with
  | nil =>
      rw [List.append_nil]
      exact Or.inl rfl
  | cons name rest ih =>
      have split : place ++ name :: rest = (place ++ [name]) ++ rest := by simp
      obtain ⟨entry, noLink⟩ := free place name (by rw [split]; exact List.prefix_append _ _)
      rw [followWith]
      by_cases directory : tree.node place ≠ some .directory
      · rw [if_pos directory]
        exact Or.inr ⟨node_append_eq_none directory (List.cons_ne_nil _ _), _, by simp, rfl⟩
      · rw [if_neg directory, if_neg (not_or.mpr ⟨entry.1, entry.2.1⟩), if_neg entry.2.2, split]
        rw [split] at free
        cases found : tree.node (place ++ [name]) with
        | none =>
            refine Or.inr ⟨?_, .notFound, by simp, rfl⟩
            cases rest with
            | nil => rwa [List.append_nil]
            | cons second rest =>
                exact node_append_eq_none (by rw [found]; simp) (List.cons_ne_nil _ _)
        | some node =>
            cases node with
            | symlink target => exact absurd found (noLink target)
            | directory => exact ih free
            | file => exact ih free

theorem follow_linkFree (links : ℕ) (free : tree.LinkFree (place ++ names)) :
    tree.follow links place names = .ok (place ++ names) ∨
      tree.node (place ++ names) = none ∧
        ∃ fault, fault ≠ .loop ∧ tree.follow links place names = .error fault := by
  cases links with
  | zero => exact followWith_linkFree free
  | succ links => exact followWith_linkFree free

/-- What `lstat` says of the entry of a place without links. -/
theorem lstat_eq_ok (free : tree.LinkFree place) (entry : IsEntry name) {found : LinkNode} :
    tree.lstat (place ++ [name]) = .ok found ↔ tree.node (place ++ [name]) = some found := by
  have last : (place ++ [name]).getLast? = some name := by simp
  have before : (place ++ [name]).dropLast = place := List.dropLast_concat
  unfold lstat
  rw [last, before]
  dsimp only
  rcases @follow_linkFree tree [] place linkLimit free with come | ⟨missing, fault, _, lost⟩
  · rw [come, ok_bind, List.nil_append, if_neg (not_or.mpr ⟨entry.1, entry.2.1⟩), if_neg entry.2.2]
    by_cases directory : tree.node place = some .directory
    · rw [if_neg (not_not.mpr directory)]
      cases tree.node (place ++ [name]) <;> simp
    · rw [if_pos directory]
      refine iff_of_false (fun same => by cases same) ?_
      rw [node_append_eq_none directory (by simp)]
      simp
  · rw [lost]
    refine iff_of_false (fun same => by cases same) ?_
    rw [List.nil_append] at missing
    rw [node_append_eq_none (by rw [missing]; simp) (by simp)]
    simp

/-- What the system finds at a place without links. -/
theorem stat_eq_ok (free : tree.LinkFree place) {found : LinkNode} :
    tree.stat place = .ok found ↔ tree.node place = some found := by
  unfold stat
  rcases @follow_linkFree tree [] place linkLimit free with come | ⟨missing, fault, _, lost⟩
  · rw [come, ok_bind, List.nil_append]
    cases tree.node place <;> simp
  · rw [lost]
    refine iff_of_false (fun same => by cases same) ?_
    rw [List.nil_append] at missing
    rw [missing]
    simp

/-- The system finds no loop at a place without links. -/
theorem stat_ne_loop (free : tree.LinkFree place) : tree.stat place ≠ .error .loop := by
  unfold stat
  rcases @follow_linkFree tree [] place linkLimit free with come | ⟨_, fault, other, lost⟩
  · rw [come, ok_bind]
    split <;> simp
  · rw [lost]
    exact fun same => other (Except.error.inj same)

/-! ## Meaning -/

/-- The place that names mean from a place. -/
inductive Resolves (tree : LinkTree) : Location → List Text → Location → Prop
  | nil {place : Location} : Resolves tree place [] place
  | stay {place found : Location} {name : Text} {rest : List Text}
      (dot : name = [] ∨ name = text ".") (later : Resolves tree place rest found) :
      Resolves tree place (name :: rest) found
  | up {place found : Location} {rest : List Text}
      (later : Resolves tree place.dropLast rest found) :
      Resolves tree place (text ".." :: rest) found
  | enter {place found : Location} {name : Text} {rest : List Text} (entry : IsEntry name)
      (noLink : ∀ target, tree.node (place ++ [name]) ≠ some (.symlink target))
      (later : Resolves tree (place ++ [name]) rest found) :
      Resolves tree place (name :: rest) found
  | link {place found : Location} {name target : Text} {rest : List Text} (entry : IsEntry name)
      (isLink : tree.node (place ++ [name]) = some (.symlink target))
      (later : Resolves tree (linkBase place target) (linkNames target ++ rest) found) :
      Resolves tree place (name :: rest) found

theorem parent_not_dot : ¬(text ".." = [] ∨ text ".." = text ".") := by decide

/-- Names mean one place. -/
theorem Resolves.unique {first second : Location} (left : Resolves tree place names first)
    (right : Resolves tree place names second) : first = second := by
  induction left with
  | nil =>
      cases right
      rfl
  | stay dot _ ih =>
      cases right with
      | stay _ later => exact ih later
      | up => exact absurd dot parent_not_dot
      | enter entry => exact absurd dot (not_or.mpr ⟨entry.1, entry.2.1⟩)
      | link entry => exact absurd dot (not_or.mpr ⟨entry.1, entry.2.1⟩)
  | up _ ih =>
      cases right with
      | stay dot => exact absurd dot parent_not_dot
      | up later => exact ih later
      | enter entry => exact absurd rfl entry.2.2
      | link entry => exact absurd rfl entry.2.2
  | enter entry noLink _ ih =>
      cases right with
      | stay dot => exact absurd dot (not_or.mpr ⟨entry.1, entry.2.1⟩)
      | up => exact absurd rfl entry.2.2
      | enter _ _ later => exact ih later
      | link _ isLink => exact absurd isLink (noLink _)
  | link entry isLink _ ih =>
      cases right with
      | stay dot => exact absurd dot (not_or.mpr ⟨entry.1, entry.2.1⟩)
      | up => exact absurd rfl entry.2.2
      | enter _ noLink => exact absurd isLink (noLink _)
      | link _ isLink' later =>
          rw [isLink] at isLink'
          cases isLink'
          exact ih later

/-- Names that are put behind each other. -/
theorem Resolves.append {middle found : Location} (first : Resolves tree place names middle)
    (second : Resolves tree middle rest found) : Resolves tree place (names ++ rest) found := by
  induction first with
  | nil => exact second
  | stay dot _ ih => exact .stay dot (ih second)
  | up _ ih => exact .up (ih second)
  | enter entry noLink _ ih => exact .enter entry noLink (ih second)
  | link entry isLink _ ih =>
      have joined := ih second
      rw [List.append_assoc] at joined
      exact .link entry isLink joined

/-- A place without links is what its names mean. -/
theorem resolves_linkFree (free : tree.LinkFree (place ++ names)) :
    Resolves tree place names (place ++ names) := by
  induction names generalizing place with
  | nil =>
      rw [List.append_nil]
      exact .nil
  | cons name rest ih =>
      have split : place ++ name :: rest = (place ++ [name]) ++ rest := by simp
      rw [split] at free ⊢
      obtain ⟨entry, noLink⟩ := free place name (List.prefix_append _ _)
      exact .enter entry noLink (ih free)

theorem followWith_sound {jump : Location → List Text → Except LookupFault Location}
    (sound : ∀ place names found, jump place names = .ok found → Resolves tree place names found)
    {found : Location} (come : tree.followWith jump place names = .ok found) :
    Resolves tree place names found := by
  induction names generalizing place with
  | nil =>
      cases come
      exact .nil
  | cons name rest ih =>
      rw [followWith] at come
      split at come
      · cases come
      · split at come
        · next dot => exact .stay dot (ih come)
        · next noDot =>
            split at come
            · next parent =>
                subst parent
                exact .up (ih come)
            · next noParent =>
                have entry : IsEntry name :=
                  ⟨fun empty => noDot (Or.inl empty), fun dot => noDot (Or.inr dot), noParent⟩
                split at come
                · cases come
                · next target isLink => exact .link entry isLink (sound _ _ _ come)
                · next noLink isNode =>
                    refine .enter entry ?_ (ih come)
                    intro target isLink
                    rw [isNode] at isLink
                    exact noLink target (Option.some.inj isLink)

/-- The system comes to the place that the names mean. -/
theorem follow_sound {links : ℕ} {found : Location}
    (come : tree.follow links place names = .ok found) : Resolves tree place names found := by
  induction links generalizing place names found with
  | zero => exact followWith_sound (fun _ _ _ impossible => by cases impossible) come
  | succ links ih => exact followWith_sound (fun _ _ _ jumped => ih jumped) come

theorem followWith_of_append {jump : Location → List Text → Except LookupFault Location}
    (start : ∀ place names rest found, jump place (names ++ rest) = .ok found →
      ∃ middle, jump place names = .ok middle) {found : Location}
    (come : tree.followWith jump place (names ++ rest) = .ok found) :
    ∃ middle, tree.followWith jump place names = .ok middle := by
  induction names generalizing place with
  | nil => exact ⟨place, rfl⟩
  | cons name names ih =>
      rw [List.cons_append, followWith] at come
      rw [followWith]
      split at come
      · cases come
      · next inside =>
          rw [if_neg inside]
          split at come
          · next dot =>
              rw [if_pos dot]
              exact ih come
          · next noDot =>
              rw [if_neg noDot]
              split at come
              · next parent =>
                  rw [if_pos parent]
                  exact ih come
              · next noParent =>
                  rw [if_neg noParent]
                  split at come
                  · cases come
                  · rw [← List.append_assoc] at come
                    exact start _ _ _ _ come
                  · exact ih come

/-- The system comes through the front of a path. -/
theorem follow_of_append {links : ℕ} {found : Location}
    (come : tree.follow links place (names ++ rest) = .ok found) :
    ∃ middle, tree.follow links place names = .ok middle := by
  induction links generalizing place names rest found with
  | zero => exact followWith_of_append (fun _ _ _ _ impossible => by cases impossible) come
  | succ links ih => exact followWith_of_append (fun _ _ _ _ jumped => ih jumped) come

/-- What `lstat` says is no link is none. -/
theorem noLink_of_lstat {path : List Text} (come : tree.follow linkLimit [] path = .ok place)
    (entry : IsEntry name)
    (direct : ∀ target, tree.lstat (path ++ [name]) ≠ .ok (.symlink target)) (target : Text) :
    tree.node (place ++ [name]) ≠ some (.symlink target) := by
  intro isLink
  refine direct target ?_
  have directory : tree.node place = some .directory := by
    by_contra other
    rw [node_append_eq_none other (by simp)] at isLink
    cases isLink
  unfold lstat
  rw [List.getLast?_concat, List.dropLast_concat]
  dsimp only
  rw [come, ok_bind, if_neg (not_or.mpr ⟨entry.1, entry.2.1⟩), if_neg entry.2.2,
    if_neg (not_not.mpr directory), isLink]

end LinkTree

end CarbonLab
