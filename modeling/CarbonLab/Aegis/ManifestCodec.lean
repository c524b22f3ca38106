import CarbonLab.Aegis.Manifest

/-!
# Manifests that are read back

`parse` of what `render` prints, and the printed form of what `parse` accepts.
-/

namespace CarbonLab.Aegis

/-! ## Paths of a tree -/

/-- The parts of joined parts. -/
theorem pathParts_joinParts {parts : List Text}
    (plain : ∀ part ∈ parts, part ≠ [] ∧ part ≠ text "." ∧ code '/' ∉ part) :
    pathParts (joinParts parts) = parts := by
  cases parts with
  | nil => rfl
  | cons first rest =>
      unfold pathParts joinParts
      rw [List.splitOn_intercalate _ (fun part member => (plain part member).2.2)
        (List.cons_ne_nil _ _), List.filter_eq_self]
      intro part member
      simpa using ⟨(plain part member).1, (plain part member).2.1⟩

/-- Parts that are not left out are joined to the path they come from. -/
theorem joinParts_pathParts_eq_self {path : Text} :
    joinParts (pathParts path) = path ↔
      path = [] ∨ ∀ part ∈ path.splitOn (code '/'), part ≠ [] ∧ part ≠ text "." := by
  constructor
  · intro same
    by_cases empty : pathParts path = []
    · rw [empty] at same
      exact Or.inl same.symm
    · refine Or.inr ?_
      rw [← same]
      unfold joinParts
      rw [List.splitOn_intercalate _ (fun part member => (plain_of_mem_pathParts part member).2) empty]
      intro part member
      simpa using (List.mem_filter.mp member).2
  · rintro (rfl | plain)
    · rfl
    · unfold pathParts joinParts
      rw [List.filter_eq_self.mpr fun part member => by simpa using plain part member,
        List.intercalate_splitOn]

/-- The parts of a path below `.agents`. -/
theorem plain_relativeOf (names : List FileName) :
    ∀ part ∈ text ".agents" :: names.map (·.name),
      part ≠ [] ∧ part ≠ text "." ∧ code '/' ∉ part := by
  intro part member
  rcases List.mem_cons.mp member with rfl | member
  · exact ⟨by simp [text], by simp, by simp [text, code]⟩
  · obtain ⟨name, _, rfl⟩ := List.mem_map.mp member
    exact ⟨name.filled, name.notSelf, name.noSlash⟩

theorem pathParts_relativeOf (names : List FileName) :
    pathParts (relativeOf names) = text ".agents" :: names.map (·.name) :=
  pathParts_joinParts (plain_relativeOf names)

/-- Different places have different paths. -/
theorem relativeOf_injective : Function.Injective relativeOf := by
  intro first second same
  have parts := congrArg pathParts same
  rw [pathParts_relativeOf, pathParts_relativeOf, List.cons.injEq] at parts
  refine List.map_injective_iff.mpr ?_ parts.2
  rintro ⟨_, _, _, _, _, _⟩ ⟨_, _, _, _, _, _⟩ rfl
  rfl

theorem head?_relativeOf (names : List FileName) :
    (relativeOf names).head? = some (code '.') := by
  unfold relativeOf joinParts
  cases names with
  | nil => rfl
  | cons name names =>
      rw [List.map_cons, List.intercalate_cons_cons]
      rfl

theorem zero_not_mem_relativeOf (names : List FileName) : 0 ∉ relativeOf names := by
  intro member
  rcases mem_of_mem_joinParts member with slash | ⟨part, listed, inside⟩
  · cases slash
  · rcases List.mem_cons.mp listed with rfl | listed
    · simp [text] at inside
    · obtain ⟨name, _, rfl⟩ := List.mem_map.mp listed
      exact name.noZero inside

namespace Manifest

/-! ## Lines -/

/-- What a line of an accepted manifest says. -/
structure Reads (line : Text) (entry : Text × Text) (rawPath : Text) : Prop where
  line_eq : line = entry.2 ++ text "  " ++ rawPath
  digest : isCanonicalDigest entry.2 = true
  spans : spansLine rawPath = true
  safe : safeRelative rawPath = .ok entry.1
  kept : isExcluded entry.1 = false

theorem length_of_digest {digest : Text} (canonical : isCanonicalDigest digest = true) :
    digest.length = 64 := by
  unfold isCanonicalDigest at canonical
  simp only [Bool.and_eq_true, decide_eq_true_eq] at canonical
  exact canonical.1

theorem matchLine_eq_some {line digest rawPath : Text} :
    matchLine line = some (digest, rawPath) ↔
      line = digest ++ text "  " ++ rawPath ∧ isCanonicalDigest digest = true ∧
        spansLine rawPath = true := by
  unfold matchLine
  constructor
  · intro matched
    split at matched
    · next parts =>
        cases matched
        refine ⟨?_, parts.1, parts.2.2⟩
        rw [← parts.2.1, List.append_assoc]
        have rest : (line.drop 64).take 2 ++ line.drop 66 = line.drop 64 := by
          rw [show line.drop 66 = (line.drop 64).drop 2 by rw [List.drop_drop],
            List.take_append_drop]
        rw [rest, List.take_append_drop]
    · cases matched
  · rintro ⟨rfl, canonical, spans⟩
    have sized := length_of_digest canonical
    have front : (digest ++ text "  " ++ rawPath).take 64 = digest := by
      rw [List.append_assoc, ← sized, List.take_left']
      rfl
    have back : (digest ++ text "  " ++ rawPath).drop 64 = text "  " ++ rawPath := by
      rw [List.append_assoc, ← sized, List.drop_left']
      rfl
    have path : (digest ++ text "  " ++ rawPath).drop 66 = rawPath := by
      rw [show (66 : ℕ) = 64 + 2 from rfl, ← List.drop_drop, back]
      rfl
    rw [front, back, path, if_pos ⟨canonical, rfl, spans⟩]

/-- One turn of the loop adds what its line says, behind the path before it. -/
theorem parseLine_eq_ok {result : List (Text × Text)} {previous : Option Text} {number : ℕ}
    {line : Text} {entry : Text × Text}
    (below : ∀ other ∈ result, ∃ last ∈ previous, other.1 ≤ last) :
    parseLine result previous number line = .ok entry ↔
      (∃ rawPath, Reads line entry rawPath) ∧ ∀ last ∈ previous, last < entry.1 := by
  unfold parseLine
  constructor
  · intro parsed
    split at parsed
    · cases parsed
    · next digest rawPath matched =>
        obtain ⟨spelled, canonical, spans⟩ := matchLine_eq_some.mp matched
        split at parsed
        · cases parsed
        · obtain ⟨relative, safe, parsed⟩ := bind_eq_ok.mp parsed
          split at parsed
          · cases parsed
          · split at parsed
            · cases parsed
            · next ordered =>
                split at parsed
                · cases parsed
                · next kept =>
                    cases parsed
                    refine ⟨⟨rawPath, spelled, canonical, spans, safe, by simpa [isExcluded] using kept⟩, ?_⟩
                    rintro last rfl
                    simpa using ordered
  · rintro ⟨⟨rawPath, spelled, canonical, spans, safe, kept⟩, ordered⟩
    obtain ⟨relative, digest⟩ := entry
    have matched : matchLine line = some (digest, rawPath) :=
      matchLine_eq_some.mpr ⟨spelled, canonical, spans⟩
    have fresh : ¬(result.lookup relative).isSome = true := by
      intro there
      obtain ⟨old, found⟩ := Option.isSome_iff_exists.mp there
      obtain ⟨before, after, split, _⟩ := List.lookup_eq_some_iff.mp found
      obtain ⟨last, isLast, lower⟩ := below (relative, old) (by simp [split])
      exact absurd (ordered last isLast) (not_lt.mpr lower)
    have behind : ¬previous.any (relative ≤ ·) = true := by
      cases previous with
      | none => simp
      | some last => simpa using ordered last rfl
    have known : ¬(!isCanonicalDigest digest) = true := by simpa using canonical
    have included : ¬(isMutable relative || isForbidden relative) = true := by
      simpa [isExcluded] using kept
    rw [matched]
    simp only [known, safe, ok_bind, fresh, behind, included, Bool.false_eq_true, ↓reduceIte]

/-- The loop reads its lines one by one, in strict order. -/
theorem parseLines_eq_ok {lines : List Text} {result final : List (Text × Text)}
    {previous : Option Text} {number : ℕ}
    (below : ∀ other ∈ result, ∃ last ∈ previous, other.1 ≤ last) :
    parseLines result previous number lines = .ok final ↔
      ∃ entries, final = result ++ entries ∧
        List.Forall₂ (fun line entry => ∃ rawPath, Reads line entry rawPath) lines entries ∧
        (previous.toList ++ entries.map (·.1)).IsChain (· < ·) := by
  induction lines generalizing result previous number with
  | nil =>
      rw [parseLines]
      constructor
      · intro parsed
        cases parsed
        refine ⟨[], by simp, List.Forall₂.nil, ?_⟩
        cases previous <;> simp
      · rintro ⟨entries, rfl, read, _⟩
        cases read
        rw [List.append_nil]
  | cons line lines ih =>
      rw [parseLines, bind_eq_ok]
      have after (entry : Text × Text) (behind : ∀ last ∈ previous, last < entry.1) :
          ∀ other ∈ result ++ [entry], ∃ last ∈ some entry.1, other.1 ≤ last := by
        intro other member
        refine ⟨entry.1, rfl, ?_⟩
        rcases List.mem_append.mp member with old | new
        · obtain ⟨last, isLast, lower⟩ := below other old
          exact lower.trans (behind last isLast).le
        · rw [List.mem_singleton.mp new]
      have chained (entry : Text × Text) (entries : List (Text × Text)) :
          (previous.toList ++ (entry :: entries).map (·.1)).IsChain (· < ·) ↔
            (∀ last ∈ previous, last < entry.1) ∧
              ((some entry.1).toList ++ entries.map (·.1)).IsChain (· < ·) := by
        cases previous <;> simp
      constructor
      · rintro ⟨entry, turn, parsed⟩
        obtain ⟨read, behind⟩ := (parseLine_eq_ok below).mp turn
        obtain ⟨entries, rfl, reads, chain⟩ := (ih (after entry behind)).mp parsed
        refine ⟨entry :: entries, by simp, List.Forall₂.cons read reads, ?_⟩
        exact (chained entry entries).mpr ⟨behind, chain⟩
      · rintro ⟨_, rfl, _ | ⟨read, reads⟩, chain⟩
        next entry entries =>
        obtain ⟨behind, chain⟩ := (chained entry entries).mp chain
        refine ⟨entry, (parseLine_eq_ok below).mpr ⟨read, behind⟩, ?_⟩
        exact (ih (after entry behind)).mpr ⟨entries, by simp, reads, chain⟩

/-- What `parse` accepts. -/
theorem parse_eq_ok {string : Text} {final : List (Text × Text)} :
    parse string = .ok final ↔
      (string = [] ∨ string.getLast? = some lineFeed) ∧ final ≠ [] ∧
        List.Forall₂ (fun line entry => ∃ rawPath, Reads line entry rawPath)
          (lineBodies string) final ∧
        (final.map (·.1)).IsChain (· < ·) := by
  unfold parse
  by_cases whole : string = [] ∨ string.getLast? = some lineFeed
  · rw [if_neg (by simpa [or_iff_not_imp_left] using whole), bind_eq_ok]
    have loop := @parseLines_eq_ok (lineBodies string) [] final none 1
      fun other missing => absurd missing List.not_mem_nil
    constructor
    · rintro ⟨result, parsed, returned⟩
      split at returned
      · cases returned
      · next filled =>
          cases returned
          obtain ⟨entries, rfl, reads, chain⟩ := loop.mp parsed
          exact ⟨whole, filled, reads, chain⟩
    · rintro ⟨_, filled, reads, chain⟩
      exact ⟨final, loop.mpr ⟨final, rfl, reads, chain⟩, by rw [if_neg filled]⟩
  · rw [if_pos (by simpa [or_iff_not_imp_left] using whole)]
    exact iff_of_false (fun parsed => by cases parsed) fun parsed => whole parsed.1

/-! ## Printed mappings -/

/-- The line of an entry, without the line feed. -/
def bodyOf (entry : Text × Text) : Text := entry.2 ++ text "  " ++ entry.1

theorem write_eq (mapping : List (Text × Text)) :
    write mapping = (mapping.map bodyOf).flatMap (· ++ [lineFeed]) := by
  unfold write
  rw [List.flatMap_map]
  rfl

/-- No line boundary stands in a text. -/
def OneLine (string : Text) : Prop := ∀ letter ∈ string, isBreak letter = false

theorem oneLine_bodyOf {entry : Text × Text} (canonical : isCanonicalDigest entry.2 = true) :
    OneLine (bodyOf entry) ↔ OneLine entry.1 := by
  have digest : OneLine entry.2 := by
    intro letter member
    unfold isCanonicalDigest at canonical
    simp only [Bool.and_eq_true, List.all_eq_true, decide_eq_true_eq] at canonical
    have plain : ∀ digit ∈ text "0123456789abcdef", isBreak digit = false := by
      simp [text, isBreak]
    exact plain letter (canonical.2 letter member)
  have spaces : OneLine (text "  ") := by
    simp [OneLine, text, isBreak]
  unfold bodyOf OneLine at *
  simp only [List.forall_mem_append]
  exact ⟨fun plain => plain.2, fun plain => ⟨⟨digest, spaces⟩, plain⟩⟩

/-- The lines of a printed mapping whose paths hold no line boundary. -/
theorem lineBodies_write {mapping : List (Text × Text)}
    (canonical : ∀ entry ∈ mapping, isCanonicalDigest entry.2 = true)
    (plain : ∀ entry ∈ mapping, OneLine entry.1) :
    lineBodies (write mapping) = mapping.map bodyOf := by
  unfold lineBodies
  rw [write_eq, splitLines_lines Newline.feed, List.map_map]
  · exact List.map_id _
  · intro body member
    obtain ⟨entry, inside, rfl⟩ := List.mem_map.mp member
    exact (oneLine_bodyOf (canonical entry inside)).mpr (plain entry inside)

/-- A printed mapping ends with a line feed. -/
theorem getLast?_write (mapping : List (Text × Text)) :
    write mapping = [] ∨ (write mapping).getLast? = some lineFeed := by
  rcases List.eq_nil_or_concat mapping with rfl | ⟨before, last, rfl⟩
  · exact Or.inl rfl
  · refine Or.inr ?_
    unfold write formatLine
    rw [List.concat_eq_append, List.flatMap_append, List.flatMap_singleton, ← List.append_assoc,
      List.getLast?_append, List.getLast?_singleton, Option.some_or]

/-! ## Accepted paths -/

/-- What `_safe_relative` makes of a path that it takes. -/
theorem safeRelative_eq_ok {value relative : Text} :
    safeRelative value = .ok relative ↔
      relative = joinParts (pathParts value) ∧ code '\\' ∉ value ∧ 0 ∉ value ∧
        value.head? ≠ some (code '/') ∧ text ".." ∉ pathParts value ∧
        (pathParts value).head? = some (text ".agents") := by
  have parts : (∃ part ∈ pathParts value, part ∈ [[], text ".", text ".."]) ↔
      text ".." ∈ pathParts value := by
    constructor
    · rintro ⟨part, member, listed⟩
      have kept := (List.mem_filter.mp member).2
      simp only [ne_eq, decide_eq_true_eq] at kept
      simp only [List.mem_cons, List.not_mem_nil, or_false] at listed
      rcases listed with rfl | rfl | rfl
      · exact absurd rfl kept.1
      · exact absurd rfl kept.2
      · exact member
    · exact fun member => ⟨_, member, by simp⟩
  unfold safeRelative
  simp only [parts]
  constructor
  · intro returned
    split at returned
    · cases returned
    · next canonical =>
        split at returned
        · cases returned
        · next inside =>
            split at returned
            · cases returned
            · next agents =>
                simp only [not_or] at canonical inside
                exact ⟨(Except.ok.inj returned).symm, canonical.2.1, canonical.2.2, inside.1,
                  inside.2, not_not.mp agents⟩
  · rintro ⟨rfl, slashes, zero, relative, parents, agents⟩
    have filled : value ≠ [] := by
      rintro rfl
      cases agents
    rw [if_neg (by simp [filled, slashes, zero]), if_neg (by simp [relative, parents]),
      if_neg (not_not.mpr agents)]

/-- An accepted path holds what its spelling holds. -/
theorem mem_of_mem_safe {value relative : Text} (safe : safeRelative value = .ok relative)
    {letter : CodePoint} (member : letter ∈ relative) : letter = code '/' ∨ letter ∈ value := by
  obtain ⟨rfl, _⟩ := safeRelative_eq_ok.mp safe
  rcases mem_of_mem_joinParts member with slash | ⟨part, listed, inside⟩
  · exact Or.inl slash
  · exact Or.inr (mem_of_mem_pathParts listed inside)

/-- An accepted path holds no line boundary and no backslash. -/
theorem oneLine_of_reads {line : Text} {entry : Text × Text} {rawPath : Text}
    (reads : Reads line entry rawPath) (plain : OneLine line) :
    OneLine entry.1 ∧ code '\\' ∉ entry.1 := by
  obtain ⟨_, slashes, _⟩ := safeRelative_eq_ok.mp reads.safe
  constructor
  · intro letter member
    rcases mem_of_mem_safe reads.safe member with rfl | member
    · rfl
    · refine plain letter ?_
      rw [reads.line_eq]
      exact List.mem_append_right _ member
  · intro member
    rcases mem_of_mem_safe reads.safe member with slash | member
    · cases slash
    · exact slashes member

/-- The paths of an accepted manifest hold no line boundary and no backslash. -/
theorem oneLine_of_parse {string : Text} {final : List (Text × Text)}
    (parsed : parse string = .ok final) :
    ∀ entry ∈ final, OneLine entry.1 ∧ code '\\' ∉ entry.1 := by
  obtain ⟨_, _, reads, _⟩ := parse_eq_ok.mp parsed
  intro entry member
  obtain ⟨line, inside, rawPath, read⟩ := exists_of_forall₂_right reads member
  unfold lineBodies at inside
  obtain ⟨whole, listed, rfl⟩ := List.mem_map.mp inside
  exact oneLine_of_reads read (body_plain listed)

end Manifest

end CarbonLab.Aegis
