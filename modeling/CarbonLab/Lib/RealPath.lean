import CarbonLab.Lib.LinkPaths

/-!
# Real paths

`realpath` comes to the place that a path means, without links on the way, and leaves a place
without links as it is.
-/

namespace CarbonLab

namespace LinkTree

variable {tree : LinkTree} {strict : Bool} {seen met : Seen} {place : Location}
  {names rest reached : List Text} {name : Text} {resolved : Bool}
  {resolve : Seen → Location → List Text → Except LookupFault Joined}

/-! ## One name more -/

theorem joinRealWith_dot (dot : name = [] ∨ name = text ".") (seen : Seen) (place : Location)
    (rest : List Text) :
    tree.joinRealWith strict resolve seen place (name :: rest) =
      tree.joinRealWith strict resolve seen place rest := by
  rw [joinRealWith, if_pos dot]

theorem joinRealWith_parent (seen : Seen) (place : Location) (rest : List Text) :
    tree.joinRealWith strict resolve seen place (text ".." :: rest) =
      tree.joinRealWith strict resolve seen place.dropLast rest := by
  rw [joinRealWith, if_neg parent_not_dot, if_pos rfl]

/-- What a name is: nothing, the parent, or an entry. -/
theorem name_cases (name : Text) :
    (name = [] ∨ name = text ".") ∨ name = text ".." ∨ IsEntry name := by
  unfold IsEntry
  tauto

/-- An entry that is no link is entered, unless it is missing where it must not be. -/
theorem joinRealWith_enter (free : tree.LinkFree place) (entry : IsEntry name)
    (noLink : ∀ target, tree.node (place ++ [name]) ≠ some (.symlink target))
    (seen : Seen) (rest : List Text) :
    tree.joinRealWith strict resolve seen place (name :: rest) =
        tree.joinRealWith strict resolve seen (place ++ [name]) rest ∨
      strict = true ∧ ∃ fault, tree.joinRealWith strict resolve seen place (name :: rest) =
        .error fault := by
  rw [joinRealWith, if_neg (not_or.mpr ⟨entry.1, entry.2.1⟩), if_neg entry.2.2]
  cases found : tree.lstat (place ++ [name]) with
  | error fault =>
      cases strict with
      | false => exact Or.inl rfl
      | true => exact Or.inr ⟨rfl, fault, rfl⟩
  | ok node =>
      cases node with
      | symlink target => exact absurd ((lstat_eq_ok free entry).mp found) (noLink target)
      | directory => exact Or.inl rfl
      | file => exact Or.inl rfl

/-- A link is taken from the links that were met, or resolved. -/
theorem joinRealWith_link (free : tree.LinkFree place) (entry : IsEntry name) {target : Text}
    (isLink : tree.node (place ++ [name]) = some (.symlink target)) (seen : Seen)
    (rest : List Text) :
    tree.joinRealWith strict resolve seen place (name :: rest) =
      match seen.lookup (place ++ [name]) with
      | some (some cached) => tree.joinRealWith strict resolve seen cached rest
      | some none => if strict then .error .loop else .ok (place ++ [name] ++ rest, false, seen)
      | none =>
          (resolve ((place ++ [name], none) :: seen) (linkBase place target) (linkNames target) >>=
            fun (reached, resolved, met) =>
              if resolved then
                tree.joinRealWith strict resolve ((place ++ [name], some reached) :: met) reached rest
              else .ok (reached ++ rest, false, met)) := by
  have found := (lstat_eq_ok free entry).mpr isLink
  apply Eq.trans
  · rw [joinRealWith, if_neg (not_or.mpr ⟨entry.1, entry.2.1⟩), if_neg entry.2.2, found]
  · rfl

/-! ## Places without links -/

/-- Names that meet no link are put behind the path, unless a missing one must not be. -/
theorem joinRealWith_linkFree (free : tree.LinkFree (place ++ names)) (seen : Seen) :
    tree.joinRealWith false resolve seen place names = .ok (place ++ names, true, seen) := by
  induction names generalizing place with
  | nil =>
      rw [List.append_nil]
      rfl
  | cons name rest ih =>
      have split : place ++ name :: rest = (place ++ [name]) ++ rest := by simp
      rw [split] at free ⊢
      obtain ⟨entry, noLink⟩ := free place name (List.prefix_append _ _)
      have before : tree.LinkFree place :=
        free.of_prefix ((List.prefix_append _ _).trans (List.prefix_append _ _))
      rcases @joinRealWith_enter tree false place name resolve before entry noLink seen rest with
        next | ⟨impossible, _⟩
      · rw [next]
        exact ih free
      · cases impossible

/-! ## What realpath finds -/

/-- What is known of the links that were met. -/
def SeenSound (tree : LinkTree) (seen : Seen) : Prop :=
  ∀ place name found, seen.lookup (place ++ [name]) = some (some found) →
    tree.LinkFree found ∧ ∀ target, tree.node (place ++ [name]) = some (.symlink target) →
      Resolves tree (linkBase place target) (linkNames target) found

/-- What a resolver of link targets must do. -/
def Sound (tree : LinkTree) (resolve : Seen → Location → List Text → Except LookupFault Joined) :
    Prop :=
  ∀ seen place names reached resolved met, SeenSound tree seen → tree.LinkFree place →
    resolve seen place names = .ok (reached, resolved, met) →
      SeenSound tree met ∧ (resolved = true →
        tree.LinkFree reached ∧ Resolves tree place names reached)

theorem seenSound_nil : SeenSound tree [] := by
  intro place name found missing
  cases missing

theorem SeenSound.cons_none (sound : SeenSound tree seen) (place : Location) :
    SeenSound tree ((place, none) :: seen) := by
  intro other name found inside
  rw [List.lookup_cons] at inside
  split at inside
  · cases inside
  · exact sound other name found inside

theorem SeenSound.cons_some (sound : SeenSound tree seen) {target : Text} {found : Location}
    (free : tree.LinkFree found) (isLink : tree.node (place ++ [name]) = some (.symlink target))
    (means : Resolves tree (linkBase place target) (linkNames target) found) :
    SeenSound tree ((place ++ [name], some found) :: seen) := by
  intro other entry reached inside
  rw [List.lookup_cons] at inside
  split at inside
  · next same =>
      cases inside
      obtain ⟨rfl, last⟩ := List.append_inj' (eq_of_beq same) rfl
      cases last
      refine ⟨free, ?_⟩
      intro target' isLink'
      rw [isLink] at isLink'
      cases isLink'
      exact means
  · exact sound other entry reached inside

/-- One level of links keeps what is known of the links that were met. -/
theorem sound_joinRealWith (sound : Sound tree resolve) :
    Sound tree (tree.joinRealWith strict resolve) := by
  intro seen place names
  induction names generalizing seen place with
  | nil =>
      intro reached resolved met known free came
      cases came
      exact ⟨known, fun _ => ⟨free, .nil⟩⟩
  | cons name rest ih =>
      intro reached resolved met known free came
      rcases name_cases name with dot | rfl | entry
      · rw [joinRealWith_dot dot] at came
        obtain ⟨later, means⟩ := ih _ _ _ _ _ known free came
        exact ⟨later, fun all => ⟨(means all).1, .stay dot (means all).2⟩⟩
      · rw [joinRealWith_parent] at came
        obtain ⟨later, means⟩ := ih _ _ _ _ _ known free.dropLast came
        exact ⟨later, fun all => ⟨(means all).1, .up (means all).2⟩⟩
      · by_cases noLink : ∀ target, tree.node (place ++ [name]) ≠ some (.symlink target)
        · rcases @joinRealWith_enter tree strict place name resolve free entry noLink seen rest with
            next | ⟨_, fault, refused⟩
          · rw [next] at came
            obtain ⟨later, means⟩ :=
              ih _ _ _ _ _ known (linkFree_concat.mpr ⟨free, entry, noLink⟩) came
            exact ⟨later, fun all => ⟨(means all).1, .enter entry noLink (means all).2⟩⟩
          · rw [refused] at came
            cases came
        · push Not at noLink
          obtain ⟨target, isLink⟩ := noLink
          rw [joinRealWith_link free entry isLink] at came
          split at came
          · next cached isCached =>
              obtain ⟨cachedFree, cachedMeans⟩ := known place name cached isCached
              obtain ⟨later, means⟩ := ih _ _ _ _ _ known cachedFree came
              refine ⟨later, fun all => ⟨(means all).1, .link entry isLink ?_⟩⟩
              exact (cachedMeans target isLink).append (means all).2
          · split at came
            · cases came
            · cases came
              exact ⟨known, fun all => by cases all⟩
          · obtain ⟨⟨there, done, found⟩, inner, came⟩ := bind_eq_ok.mp came
            obtain ⟨foundKnown, thereMeans⟩ :=
              sound _ _ _ _ _ _ (known.cons_none _) (free.linkBase target) inner
            dsimp only at came
            split at came
            · next all =>
                obtain ⟨thereFree, thereMeans⟩ := thereMeans all
                obtain ⟨later, means⟩ :=
                  ih _ _ _ _ _ (foundKnown.cons_some thereFree isLink thereMeans) thereFree came
                refine ⟨later, fun all => ⟨(means all).1, .link entry isLink ?_⟩⟩
                exact thereMeans.append (means all).2
            · cases came
              exact ⟨foundKnown, fun all => by cases all⟩

/-- Every level of links does. -/
theorem sound_joinReal (strict : Bool) (depth : ℕ) : Sound tree (tree.joinReal strict depth) := by
  induction depth with
  | zero =>
      refine sound_joinRealWith ?_
      intro seen place names reached resolved met _ _ impossible
      cases impossible
  | succ depth ih => exact sound_joinRealWith ih

/-! ## Strict and other paths -/

/-- What is found where nothing may be missing is found without this rule too. -/
def Agrees (strictly freely : Seen → Location → List Text → Except LookupFault Joined) : Prop :=
  ∀ seen place names result, strictly seen place names = .ok result →
    result.2.1 = true ∧ freely seen place names = .ok result

theorem agrees_joinRealWith
    {freely : Seen → Location → List Text → Except LookupFault Joined} (agrees : Agrees resolve freely) :
    Agrees (tree.joinRealWith true resolve) (tree.joinRealWith false freely) := by
  intro seen place names result
  induction names generalizing seen place with
  | nil =>
      intro came
      cases came
      exact ⟨rfl, rfl⟩
  | cons name rest ih =>
      intro came
      rcases name_cases name with dot | rfl | entry
      · rw [joinRealWith_dot dot] at came ⊢
        exact ih _ _ came
      · rw [joinRealWith_parent] at came ⊢
        exact ih _ _ came
      · rw [joinRealWith, if_neg (not_or.mpr ⟨entry.1, entry.2.1⟩), if_neg entry.2.2] at came ⊢
        cases found : tree.lstat (place ++ [name]) with
        | error fault =>
            rw [found] at came
            cases came
        | ok node =>
            rw [found] at came
            cases node with
            | directory => exact ih _ _ came
            | file => exact ih _ _ came
            | symlink target =>
                dsimp only at came ⊢
                cases inside : seen.lookup (place ++ [name]) with
                | none =>
                    rw [inside] at came
                    obtain ⟨⟨there, done, found⟩, inner, came⟩ := bind_eq_ok.mp came
                    obtain ⟨all, same⟩ := agrees _ _ _ _ inner
                    cases all
                    dsimp only
                    rw [same, ok_bind]
                    exact ih _ _ came
                | some cached =>
                    rw [inside] at came
                    cases cached with
                    | none => cases came
                    | some cached => exact ih _ _ came

theorem agrees_joinReal (depth : ℕ) :
    Agrees (tree.joinReal true depth) (tree.joinReal false depth) := by
  induction depth with
  | zero =>
      refine agrees_joinRealWith ?_
      intro seen place names result impossible
      cases impossible
  | succ depth ih => exact agrees_joinRealWith ih

/-! ## Names behind each other -/

/-- Go on with further names, unless a loop was met. -/
def goOn (more : Seen → Location → List Text → Except LookupFault Joined) (rest : List Text) :
    Joined → Except LookupFault Joined
  | (reached, true, met) => more met reached rest
  | (reached, false, met) => .ok (reached ++ rest, false, met)

theorem joinRealWith_append (seen : Seen) (place : Location) (names rest : List Text) :
    tree.joinRealWith strict resolve seen place (names ++ rest) =
      tree.joinRealWith strict resolve seen place names >>=
        goOn (tree.joinRealWith strict resolve) rest := by
  induction names generalizing seen place with
  | nil => rfl
  | cons name names ih =>
      rw [List.cons_append]
      rcases name_cases name with dot | rfl | entry
      · rw [joinRealWith_dot dot, joinRealWith_dot dot]
        exact ih seen place
      · rw [joinRealWith_parent, joinRealWith_parent]
        exact ih seen place.dropLast
      · rw [joinRealWith, joinRealWith, if_neg (not_or.mpr ⟨entry.1, entry.2.1⟩),
          if_neg (not_or.mpr ⟨entry.1, entry.2.1⟩), if_neg entry.2.2, if_neg entry.2.2]
        cases tree.lstat (place ++ [name]) with
        | error fault =>
            cases strict with
            | true => rfl
            | false => exact ih seen (place ++ [name])
        | ok node =>
            cases node with
            | directory => exact ih seen (place ++ [name])
            | file => exact ih seen (place ++ [name])
            | symlink target =>
                dsimp only
                cases seen.lookup (place ++ [name]) with
                | some cached =>
                    cases cached with
                    | some cached => exact ih seen cached
                    | none =>
                        cases strict with
                        | true => rfl
                        | false => simp [goOn]
                | none =>
                    dsimp only
                    cases resolve ((place ++ [name], none) :: seen) (linkBase place target)
                      (linkNames target) with
                    | error fault => rfl
                    | ok found =>
                        obtain ⟨there, resolved, met⟩ := found
                        cases resolved with
                        | true => exact ih ((place ++ [name], some there) :: met) there
                        | false => simp [goOn]

/-- `realpath` of names behind each other. -/
theorem joined_append (strict : Bool) (path rest : List Text) :
    tree.joined strict (path ++ rest) =
      tree.joined strict path >>= goOn (tree.joinReal strict tree.nodes.length) rest := by
  unfold joined
  cases tree.nodes.length with
  | zero => exact joinRealWith_append [] [] path rest
  | succ depth => exact joinRealWith_append [] [] path rest

theorem joinReal_linkFree (depth : ℕ) (free : tree.LinkFree (place ++ names)) (seen : Seen) :
    tree.joinReal false depth seen place names = .ok (place ++ names, true, seen) := by
  cases depth with
  | zero => exact joinRealWith_linkFree free seen
  | succ depth => exact joinRealWith_linkFree free seen

/-- One more name that is no link. -/
theorem joined_concat {path : List Text}
    (came : tree.joined false path = .ok (place, true, met)) (free : tree.LinkFree place)
    (noLink : IsEntry name → ∀ target, tree.node (place ++ [name]) ≠ some (.symlink target)) :
    ∃ next, tree.joined false (path ++ [name]) = .ok (next, true, met) ∧ tree.LinkFree next ∧
      Resolves tree place [name] next := by
  rw [joined_append, came, ok_bind, goOn]
  obtain dot | parent | entry := name_cases name
  · refine ⟨place, ?_, free, .stay dot .nil⟩
    cases tree.nodes.length <;> exact joinRealWith_dot dot met place []
  · subst parent
    refine ⟨place.dropLast, ?_, free.dropLast, .up .nil⟩
    cases tree.nodes.length <;> exact joinRealWith_parent met place []
  · have next : tree.LinkFree (place ++ [name]) :=
      linkFree_concat.mpr ⟨free, entry, noLink entry⟩
    exact ⟨place ++ [name], joinReal_linkFree _ next met, next, .enter entry (noLink entry) .nil⟩

/-- Names behind a path of which none is a link. -/
theorem joined_of_direct {path : List Text} {found : Location}
    (came : tree.joined false path = .ok (place, true, met)) (free : tree.LinkFree place)
    (means : Resolves tree [] path place)
    (direct : ∀ before name, before ++ [name] <+: names →
      ∀ target, tree.lstat (path ++ before ++ [name]) ≠ .ok (.symlink target))
    (come : tree.follow linkLimit [] (path ++ names) = .ok found) :
    tree.joined false (path ++ names) = .ok (found, true, met) ∧ tree.LinkFree found := by
  induction names using List.reverseRecOn generalizing found with
  | nil =>
      rw [List.append_nil] at come ⊢
      rw [(follow_sound come).unique means]
      exact ⟨came, free⟩
  | append_singleton names name ih =>
      rw [← List.append_assoc] at come ⊢
      obtain ⟨middle, start⟩ := follow_of_append come
      obtain ⟨joins, clear⟩ :=
        ih (fun before name inside => direct before name (inside.trans (List.prefix_append _ _))) start
      obtain ⟨next, further, free, step⟩ := joined_concat joins clear fun entry =>
        noLink_of_lstat start entry (direct names name (List.prefix_refl _))
      have same : found = next := (follow_sound come).unique ((follow_sound start).append step)
      rw [same]
      exact ⟨further, free⟩

/-! ## resolve -/

theorem normalize_concat (entry : IsEntry name) (path : List Text) :
    normalize (path ++ [name]) = normalize path ++ [name] := by
  unfold normalize
  rw [List.foldl_append, List.foldl_cons, List.foldl_nil,
    if_neg (not_or.mpr ⟨entry.1, entry.2.1⟩), if_neg entry.2.2]

theorem normalize_linkFree (free : tree.LinkFree place) : normalize place = place := by
  induction place using List.reverseRecOn with
  | nil => rfl
  | append_singleton place name ih =>
      obtain ⟨before, entry, _⟩ := linkFree_concat.mp free
      rw [normalize_concat entry, ih before]

/-- What is resolved strictly has no links on the way, is what the path means, and is found
without the strict rule too. -/
theorem resolveStrict_sound {path : List Text} {root : Location}
    (found : tree.resolveStrict path = .ok root) :
    tree.LinkFree root ∧ Resolves tree [] path root ∧
      ∃ met, tree.joined false path = .ok (root, true, met) := by
  unfold resolveStrict at found
  obtain ⟨⟨names, resolved, met⟩, came, rfl⟩ : ∃ result, tree.joined true path = .ok result ∧
      normalize result.1 = root := by
    cases came : tree.joined true path with
    | error fault =>
        rw [came] at found
        cases found
    | ok result =>
        rw [came] at found
        exact ⟨result, rfl, Except.ok.inj found⟩
  obtain ⟨all, same⟩ := agrees_joinReal _ _ _ _ _ came
  cases all
  obtain ⟨_, means⟩ := sound_joinReal true _ _ _ _ _ _ _ seenSound_nil linkFree_nil came
  obtain ⟨free, means⟩ := means rfl
  rw [normalize_linkFree free]
  exact ⟨free, means, met, same⟩

theorem resolve_of_joined {path : List Text} (free : tree.LinkFree (normalize reached))
    (came : tree.joined false path = .ok (reached, resolved, met)) :
    tree.resolve path = .ok (normalize reached) := by
  unfold resolve
  rw [came, ok_bind]
  dsimp only
  rw [if_neg (stat_ne_loop free)]

/-- Names that meet no link behind a path that was resolved. -/
theorem resolve_append {path : List Text}
    (came : tree.joined false path = .ok (place, true, met))
    (free : tree.LinkFree (place ++ names)) : tree.resolve (path ++ names) = .ok (place ++ names) := by
  have whole : tree.joined false (path ++ names) = .ok (place ++ names, true, met) := by
    rw [joined_append, came, ok_bind, goOn]
    exact joinReal_linkFree _ free met
  have same := normalize_linkFree free
  rw [resolve_of_joined (by rwa [same]) whole, same]

/-- A place without links is resolved to itself. -/
theorem resolve_linkFree (free : tree.LinkFree place) : tree.resolve place = .ok place := by
  have start : tree.joined false [] = .ok ([], true, []) := joinReal_linkFree _ linkFree_nil []
  have whole := @resolve_append tree [] [] place [] start (by rwa [List.nil_append])
  rwa [List.nil_append] at whole

/-- One more name that is no link behind a path, also behind one with a loop. -/
theorem resolve_concat {path : List Text} (before : tree.resolve path = .ok place)
    (free : tree.LinkFree (place ++ [name])) :
    tree.resolve (path ++ [name]) = .ok (place ++ [name]) := by
  obtain ⟨_, entry, _⟩ := linkFree_concat.mp free
  unfold resolve at before
  obtain ⟨⟨names, resolved, met⟩, came, before⟩ := bind_eq_ok.mp before
  have there : normalize names = place := by
    dsimp only at before
    split at before
    · cases before
    · exact Except.ok.inj before
  have behind : normalize (names ++ [name]) = place ++ [name] := by
    rw [normalize_concat entry, there]
  cases resolved with
  | true =>
      obtain ⟨_, means⟩ := sound_joinReal false _ _ _ _ _ _ _ seenSound_nil linkFree_nil came
      have same := normalize_linkFree (means rfl).1
      rw [there] at same
      rw [same] at free ⊢
      exact resolve_append came free
  | false =>
      have whole : tree.joined false (path ++ [name]) = .ok (names ++ [name], false, met) := by
        rw [joined_append, came, ok_bind, goOn]
      rw [resolve_of_joined (by rwa [behind]) whole, behind]

end LinkTree

end CarbonLab
