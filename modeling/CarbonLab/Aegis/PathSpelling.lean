import CarbonLab.Aegis.WriteScope

/-!
# Spellings of a path

Paths with the same parts are read as the same path, as long as no white space stands at
their ends.
-/

namespace CarbonLab.Aegis

/-! ## Parts -/

/-- Induction over the parts of a path. -/
theorem slashInduct {motive : Text → Prop}
    (single : ∀ part : Text, code '/' ∉ part → motive part)
    (slash : ∀ part rest : Text, code '/' ∉ part → motive rest →
      motive (part ++ code '/' :: rest)) (string : Text) : motive string := by
  by_cases plain : code '/' ∈ string
  · have length := List.length_dropWhile_le (· ≠ code '/') string
    cases behind : string.dropWhile (· ≠ code '/') with
    | nil =>
        rw [List.dropWhile_eq_nil_iff] at behind
        simpa using behind _ plain
    | cons first rest =>
        have isSlash : first = code '/' := by
          have stops := @List.head?_dropWhile_not _ (· ≠ code '/') string
          rw [behind] at stops
          simpa using stops
        have shorter : rest.length < string.length := by
          rw [behind, List.length_cons] at length
          omega
        have parted := @List.takeWhile_append_dropWhile _ (· ≠ code '/') string
        rw [behind, isSlash] at parted
        rw [← parted]
        apply slash
        · intro member
          simpa using List.mem_takeWhile_imp member
        · exact slashInduct single slash rest
  · exact single string plain
termination_by string.length

theorem pathParts_append_slash (first rest : Text) :
    pathParts (first ++ code '/' :: rest) = pathParts first ++ pathParts rest := by
  unfold pathParts
  rw [List.splitOn_eq_splitOnP, List.splitOnP_append_cons _ _ (by simp), List.filter_append]
  rfl

/-- A text without slashes is at most one part. -/
theorem pathParts_of_plain {part : Text} (plain : code '/' ∉ part) :
    pathParts part = if part = [] ∨ part = text "." then [] else [part] := by
  have whole : part.splitOn (code '/') = [part] := by
    apply List.splitOnP_eq_singleton
    intro letter member
    rw [beq_eq_false_iff_ne]
    exact fun same => plain (same ▸ member)
  unfold pathParts
  rw [whole, List.filter_cons, List.filter_nil]
  by_cases named : part = [] ∨ part = text "."
  · rw [if_pos named, if_neg (by simpa [or_iff_not_imp_left] using named)]
  · rw [if_neg named, if_pos (by simpa using named)]

/-- Parts are not empty and hold no slash. -/
theorem plain_of_mem_pathParts {string : Text} :
    ∀ part ∈ pathParts string, part ≠ [] ∧ code '/' ∉ part := by
  induction string using slashInduct with
  | single part plain =>
      rw [pathParts_of_plain plain]
      split
      · simp
      · rename_i named
        simpa using ⟨fun empty => named (Or.inl empty), plain⟩
  | slash part rest plain ih =>
      rw [pathParts_append_slash, pathParts_of_plain plain, List.forall_mem_append]
      refine ⟨?_, ih⟩
      split
      · simp
      · rename_i named
        simpa using ⟨fun empty => named (Or.inl empty), plain⟩

/-- The parts of a path with its backslashes turned are found part by part. -/
theorem pathParts_forwardSlashes (string : Text) :
    pathParts (forwardSlashes string) =
      (pathParts string).flatMap fun part => pathParts (forwardSlashes part) := by
  have plainParts (part : Text) (plain : code '/' ∉ part) :
      (pathParts part).flatMap (fun part => pathParts (forwardSlashes part)) =
        pathParts (forwardSlashes part) := by
    rw [pathParts_of_plain plain]
    split
    · rename_i named
      rcases named with rfl | rfl <;> rfl
    · exact List.flatMap_singleton _ _
  induction string using slashInduct with
  | single part plain => rw [plainParts part plain]
  | slash part rest plain ih =>
      have turned : forwardSlashes (part ++ code '/' :: rest) =
          forwardSlashes part ++ code '/' :: forwardSlashes rest := by
        unfold forwardSlashes
        rw [List.map_append, List.map_cons, if_neg (by decide)]
      rw [turned, pathParts_append_slash, pathParts_append_slash, List.flatMap_append, ih,
        plainParts part plain]

@[simp] theorem forwardSlashes_forwardSlashes (string : Text) :
    forwardSlashes (forwardSlashes string) = forwardSlashes string := by
  unfold forwardSlashes
  rw [List.map_map]
  apply List.map_congr_left
  intro letter _
  simp only [Function.comp_apply]
  split <;> simp_all

@[simp] theorem pathParts_dropDots (string : Text) :
    pathParts (dropDots string) = pathParts string := by
  induction string using dropDots.induct with
  | case1 first second rest dots ih =>
      obtain ⟨rfl, rfl⟩ := dots
      rw [dropDots, if_pos ⟨rfl, rfl⟩, ih]
      exact (pathParts_append_slash (text ".") rest).symm
  | case2 first second rest other => rw [dropDots, if_neg other]
  | case3 short simple => rw [dropDots.eq_2 short simple]

/-! ## Joined parts -/

theorem stripSlashes_of_getLast? {string : Text} (ends : string.getLast? ≠ some (code '/')) :
    stripSlashes string = string := by
  have unchanged : string.reverse.dropWhile (· = code '/') = string.reverse := by
    rw [← List.head?_reverse] at ends
    cases reversed : string.reverse with
    | nil => rfl
    | cons last others =>
        rw [reversed, List.head?_cons, ne_eq, Option.some.injEq] at ends
        rw [List.dropWhile_cons_of_neg (by simpa using ends)]
  rw [stripSlashes, unchanged, List.reverse_reverse]

theorem getLast?_joinParts {parts : List Text}
    (plain : ∀ part ∈ parts, part ≠ [] ∧ code '/' ∉ part) :
    (joinParts parts).getLast? ≠ some (code '/') := by
  induction parts with
  | nil => simp [joinParts]
  | cons first rest ih =>
      obtain ⟨⟨nonempty, noSlash⟩, restPlain⟩ := List.forall_mem_cons.mp plain
      cases rest with
      | nil =>
          rw [joinParts, List.intercalate_singleton]
          exact fun last => noSlash (List.mem_of_getLast? last)
      | cons second others =>
          have joined : joinParts (first :: second :: others) =
              first ++ code '/' :: joinParts (second :: others) := by
            rw [joinParts, List.intercalate_cons_cons, List.append_assoc]
            rfl
          have behind : joinParts (second :: others) ≠ [] := by
            have named := (restPlain second List.mem_cons_self).1
            cases second with
            | nil => exact absurd rfl named
            | cons letter letters => cases others <;> simp [joinParts, List.intercalate_cons_cons]
          rw [joined, List.getLast?_append_cons]
          cases next : joinParts (second :: others) with
          | nil => exact absurd next behind
          | cons letter letters =>
              rw [List.getLast?_cons_cons, ← next]
              exact ih restPlain

theorem mem_of_mem_joinParts {parts : List Text} {letter : CodePoint}
    (member : letter ∈ joinParts parts) :
    letter = code '/' ∨ ∃ part ∈ parts, letter ∈ part := by
  induction parts with
  | nil => cases member
  | cons first rest ih =>
      cases rest with
      | nil =>
          rw [joinParts, List.intercalate_singleton] at member
          exact Or.inr ⟨first, List.mem_cons_self, member⟩
      | cons second others =>
          rw [joinParts, List.intercalate_cons_cons, List.mem_append, List.mem_append,
            List.mem_singleton] at member
          rcases member with (inside | slash) | behind
          · exact Or.inr ⟨first, List.mem_cons_self, inside⟩
          · exact Or.inl slash
          · rcases ih behind with slash | ⟨part, listed, inside⟩
            · exact Or.inl slash
            · exact Or.inr ⟨part, List.mem_cons_of_mem _ listed, inside⟩

theorem mem_of_mem_pathParts {string part : Text} {letter : CodePoint}
    (listed : part ∈ pathParts string) (inside : letter ∈ part) : letter ∈ string := by
  have whole (other : Text) (plain : code '/' ∉ other) (listed : part ∈ pathParts other) :
      letter ∈ other := by
    rw [pathParts_of_plain plain] at listed
    split at listed
    · cases listed
    · rwa [← List.mem_singleton.mp listed]
  induction string using slashInduct with
  | single other plain => exact whole other plain listed
  | slash other rest plain ih =>
      rw [pathParts_append_slash, List.mem_append] at listed
      rw [List.mem_append, List.mem_cons]
      rcases listed with listed | listed
      · exact Or.inl (whole other plain listed)
      · exact Or.inr (Or.inr (ih listed))

theorem hasMarker_joinParts {string : Text} (plain : hasMarker string = false) :
    hasMarker (joinParts (pathParts string)) = false := by
  unfold hasMarker at plain ⊢
  rw [List.any_eq_false] at plain ⊢
  intro letter member
  rcases mem_of_mem_joinParts member with rfl | ⟨part, listed, inside⟩
  · decide
  · exact plain letter (mem_of_mem_pathParts listed inside)

/-! ## White space at the ends -/

/-- No white space stands at the ends of a path, seen by its parts. -/
structure Trimmed (parts : List Text) : Prop where
  front : ∀ part ∈ parts.head?, ∀ letter ∈ part.head?, isSpace letter = false
  back : ∀ part ∈ parts.getLast?, ∀ letter ∈ part.getLast?, isSpace letter = false

/-- The first character of a relative path. -/
theorem head?_of_relative {string : Text} {letter : CodePoint}
    (first : string.head? = some letter) (relative : letter ≠ code '/') :
    letter = code '.' ∨
      ∃ part, (pathParts string).head? = some part ∧ part.head? = some letter := by
  induction string using slashInduct with
  | single part plain =>
      rw [pathParts_of_plain plain]
      split
      · rename_i named
        rcases named with rfl | rfl
        · cases first
        · cases first
          exact Or.inl rfl
      · exact Or.inr ⟨part, rfl, first⟩
  | slash part rest plain ih =>
      rw [pathParts_append_slash, pathParts_of_plain plain]
      split
      · rename_i named
        rcases named with rfl | rfl
        · cases first
          exact absurd rfl relative
        · cases first
          exact Or.inl rfl
      · rename_i named
        refine Or.inr ⟨part, rfl, ?_⟩
        cases part with
        | nil => exact absurd (Or.inl rfl) named
        | cons _ _ => exact first

/-- The last character of a path. -/
theorem getLast?_of_path {string : Text} {letter : CodePoint}
    (last : string.getLast? = some letter) :
    letter = code '/' ∨ letter = code '.' ∨
      ∃ part, (pathParts string).getLast? = some part ∧ part.getLast? = some letter := by
  induction string using slashInduct with
  | single part plain =>
      rw [pathParts_of_plain plain]
      split
      · rename_i named
        rcases named with rfl | rfl
        · cases last
        · cases last
          exact Or.inr (Or.inl rfl)
      · exact Or.inr (Or.inr ⟨part, rfl, last⟩)
  | slash part rest plain ih =>
      rw [List.getLast?_append_cons] at last
      cases rest with
      | nil =>
          cases last
          exact Or.inl rfl
      | cons first others =>
          rw [List.getLast?_cons_cons] at last
          rcases ih last with slash | dot | ⟨found, inside, ends⟩
          · exact Or.inl slash
          · exact Or.inr (Or.inl dot)
          · refine Or.inr (Or.inr ⟨found, ?_, ends⟩)
            rw [pathParts_append_slash, List.getLast?_append, inside]
            rfl

/-- No white space stands at the ends of a relative path. -/
theorem ends_of_trimmed {string : Text} (relative : string.head? ≠ some (code '/'))
    (trimmed : Trimmed (pathParts string)) :
    (∀ letter ∈ string.head?, isSpace letter = false) ∧
      ∀ letter ∈ string.getLast?, isSpace letter = false := by
  constructor
  · intro letter first
    rcases head?_of_relative first (fun slash => relative (slash ▸ first)) with
      rfl | ⟨part, inside, starts⟩
    · rfl
    · exact trimmed.front part inside letter starts
  · intro letter last
    rcases getLast?_of_path last with rfl | rfl | ⟨part, inside, ends⟩
    · rfl
    · rfl
    · exact trimmed.back part inside letter ends

theorem strip_forwardSlashes_of_ends {string : Text}
    (front : ∀ letter ∈ string.head?, isSpace letter = false)
    (back : ∀ letter ∈ string.getLast?, isSpace letter = false) :
    strip (forwardSlashes string) = forwardSlashes string := by
  unfold forwardSlashes
  apply strip_of_ends
  · intro letter first
    rw [List.head?_map, Option.mem_map] at first
    obtain ⟨old, inside, rfl⟩ := first
    split
    · rfl
    · exact front old inside
  · intro letter last
    rw [List.getLast?_map, Option.mem_map] at last
    obtain ⟨old, inside, rfl⟩ := last
    split
    · rfl
    · exact back old inside

/-- What `_normalize` makes of a path without white space at its ends depends on its parts
alone. -/
theorem posixPath_cases (pattern : Bool) {string : Text} (stripped : strip string = string) :
    (∃ message, posixPath pattern string = .error (.scopeError message)) ∨
      (pathParts (forwardSlashes string) = [] ∧ posixPath pattern string = .error .indexError) ∨
      (pathParts (forwardSlashes string) ≠ [] ∧
        posixPath pattern string = .ok (joinParts (pathParts (forwardSlashes string))) ∧
        (pattern = true ∨ hasMarker (dropDots (forwardSlashes string)) = false)) := by
  unfold posixPath demand
  rw [stripped]
  simp only [pathParts_dropDots]
  by_cases nonempty : string ≠ []
  · rw [if_pos nonempty, ok_bind]
    by_cases relative : (dropDots (forwardSlashes string)).head? ≠ some (code '/')
    · rw [if_pos relative, ok_bind]
      cases parts : pathParts (forwardSlashes string) with
      | nil => exact Or.inr (Or.inl ⟨rfl, rfl⟩)
      | cons first rest =>
          simp only
          by_cases safe : code ':' ∉ first ∧ text ".." ∉ first :: rest
          · rw [if_pos safe, ok_bind]
            by_cases plain : pattern = true ∨ hasMarker (dropDots (forwardSlashes string)) = false
            · rw [if_pos plain, ok_bind]
              exact Or.inr (Or.inr ⟨by simp, rfl, plain⟩)
            · rw [if_neg plain]
              exact Or.inl ⟨_, rfl⟩
          · rw [if_neg safe]
            exact Or.inl ⟨_, rfl⟩
    · rw [if_neg relative]
      exact Or.inl ⟨_, rfl⟩
  · rw [if_neg nonempty]
    exact Or.inl ⟨_, rfl⟩

end CarbonLab.Aegis
