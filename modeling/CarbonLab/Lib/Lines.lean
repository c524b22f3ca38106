import CarbonLab.Lib.Json

/-!
# Lines of strings

`str.splitlines()`: a line ends with a line feed, a carriage return, both of them, or one of the
other line boundaries of Unicode.
-/

namespace CarbonLab

/-- A line feed. -/
def lineFeed : CodePoint := 10

/-- A carriage return. -/
def carriageReturn : CodePoint := 13

/-- The line boundaries of Python strings. -/
def isBreak (letter : CodePoint) : Bool :=
  let value := letter.val
  (10 ≤ value && value ≤ 13) || (28 ≤ value && value ≤ 30) || value = 0x85 || value = 0x2028 ||
    value = 0x2029

/-- A line and what ends it. -/
structure Line where
  body : Text
  ending : Text
  deriving DecidableEq, Repr

namespace Line

/-- The line as `splitlines(keepends=True)` returns it. -/
def kept (line : Line) : Text := line.body ++ line.ending

/-- One more letter before the first line. -/
def consLetter (letter : CodePoint) : List Line → List Line
  | [] => [⟨[letter], []⟩]
  | line :: lines => ⟨letter :: line.body, line.ending⟩ :: lines

end Line

/-- `string.splitlines()` with what ends each line. -/
def splitLines : Text → List Line
  | [] => []
  | letter :: rest =>
      if letter = carriageReturn ∧ rest.head? = some lineFeed then
        -- The first line of the rest is the line feed alone.
        ⟨[], [carriageReturn, lineFeed]⟩ :: (splitLines rest).tail
      else if isBreak letter then ⟨[], [letter]⟩ :: splitLines rest
      else Line.consLetter letter (splitLines rest)

/-- `string.splitlines()` -/
def lineBodies (string : Text) : List Text := (splitLines string).map (·.body)

variable {string rest body : Text} {letter : CodePoint} {line : Line}

theorem isBreak_lineFeed : isBreak lineFeed = true := rfl

/-! ## One letter more -/

/-- A boundary that no line feed joins ends a line of its own. -/
theorem splitLines_break (ends : isBreak letter = true)
    (alone : letter = carriageReturn → rest.head? ≠ some lineFeed) :
    splitLines (letter :: rest) = ⟨[], [letter]⟩ :: splitLines rest := by
  have single : ¬(letter = carriageReturn ∧ rest.head? = some lineFeed) :=
    fun both => alone both.1 both.2
  rw [splitLines, if_neg single, if_pos ends]

theorem splitLines_feed (rest : Text) :
    splitLines (lineFeed :: rest) = ⟨[], [lineFeed]⟩ :: splitLines rest :=
  splitLines_break isBreak_lineFeed fun same => absurd same (by decide)

theorem splitLines_crlf (rest : Text) :
    splitLines (carriageReturn :: lineFeed :: rest) =
      ⟨[], [carriageReturn, lineFeed]⟩ :: splitLines rest := by
  rw [splitLines, if_pos ⟨rfl, rfl⟩, splitLines_feed, List.tail_cons]

theorem splitLines_inside (inside : isBreak letter = false) (rest : Text) :
    splitLines (letter :: rest) = Line.consLetter letter (splitLines rest) := by
  have single : ¬(letter = carriageReturn ∧ rest.head? = some lineFeed) := by
    rintro ⟨rfl, _⟩
    exact absurd inside (by decide)
  rw [splitLines, if_neg single, if_neg (by simp [inside])]

/-- The three ways in which a string goes on. -/
theorem letter_cases (letter : CodePoint) (rest : Text) :
    (∃ later, letter = carriageReturn ∧ rest = lineFeed :: later) ∨
      (isBreak letter = true ∧ (letter = carriageReturn → rest.head? ≠ some lineFeed)) ∨
      isBreak letter = false := by
  cases ends : isBreak letter with
  | false => exact Or.inr (Or.inr rfl)
  | true =>
      by_cases both : letter = carriageReturn ∧ rest.head? = some lineFeed
      · obtain ⟨later, joined⟩ := List.head?_eq_some_iff.mp both.2
        exact Or.inl ⟨later, both.1, joined⟩
      · exact Or.inr (Or.inl ⟨rfl, fun return_ feed => both ⟨return_, feed⟩⟩)

/-! ## What the lines are -/

theorem splitLines_ne_nil (filled : string ≠ []) : splitLines string ≠ [] := by
  cases string with
  | nil => exact absurd rfl filled
  | cons letter rest =>
      rcases letter_cases letter rest with ⟨later, rfl, rfl⟩ | ⟨ends, alone⟩ | inside
      · simp [splitLines_crlf]
      · simp [splitLines_break ends alone]
      · rw [splitLines_inside inside]
        cases splitLines rest <;> simp [Line.consLetter]

/-- The lines with their ends are the string. -/
theorem flatMap_kept (string : Text) : (splitLines string).flatMap Line.kept = string := by
  induction string with
  | nil => rfl
  | cons letter rest ih =>
      rcases letter_cases letter rest with ⟨later, rfl, rfl⟩ | ⟨ends, alone⟩ | inside
      · rw [splitLines_feed, List.flatMap_cons] at ih
        rw [splitLines_crlf, List.flatMap_cons]
        exact congrArg (carriageReturn :: ·) ih
      · rw [splitLines_break ends alone, List.flatMap_cons, ih]
        rfl
      · rw [splitLines_inside inside]
        cases is : splitLines rest with
        | nil =>
            rw [is] at ih
            rw [← ih]
            rfl
        | cons line lines =>
            rw [is] at ih
            rw [Line.consLetter, List.flatMap_cons, ← ih]
            rfl

/-- No boundary stands inside a line. -/
theorem body_plain (member : line ∈ splitLines string) :
    ∀ letter ∈ line.body, isBreak letter = false := by
  induction string generalizing line with
  | nil => exact absurd member List.not_mem_nil
  | cons letter rest ih =>
      rcases letter_cases letter rest with ⟨later, rfl, rfl⟩ | ⟨ends, alone⟩ | inside
      · rw [splitLines_crlf] at member
        rw [splitLines_feed] at ih
        rcases List.mem_cons.mp member with rfl | later
        · exact fun letter there => absurd there List.not_mem_nil
        · exact ih (List.mem_cons_of_mem _ later)
      · rw [splitLines_break ends alone] at member
        rcases List.mem_cons.mp member with rfl | later
        · exact fun letter there => absurd there List.not_mem_nil
        · exact ih later
      · rw [splitLines_inside inside] at member
        cases is : splitLines rest with
        | nil =>
            rw [is] at member
            rw [List.mem_singleton.mp member]
            intro other there
            rwa [List.mem_singleton.mp there]
        | cons head lines =>
            rw [is] at member ih
            rcases List.mem_cons.mp member with rfl | later
            · intro other there
              rcases List.mem_cons.mp there with rfl | there
              · exact inside
              · exact ih List.mem_cons_self other there
            · exact ih (List.mem_cons_of_mem _ later)

/-! ## Strings that are put together -/

/-- The end of the first string ends a line of both. -/
def Breaks (string rest : Text) : Prop :=
  ∀ last ∈ string.getLast?, isBreak last = true ∧
    (last = carriageReturn → rest.head? ≠ some lineFeed)

theorem breaks_nil (rest : Text) : Breaks [] rest := fun _ missing => absurd missing (by simp)

theorem Breaks.tail {later : Text} (breaks : Breaks (letter :: later) rest) :
    Breaks later rest := by
  cases later with
  | nil => exact breaks_nil rest
  | cons second later => exact fun last member => breaks last (by rwa [List.getLast?_cons_cons])

theorem breaks_append_feed (string rest : Text) : Breaks (string ++ [lineFeed]) rest := by
  intro last member
  rw [List.getLast?_append, List.getLast?_singleton, Option.some_or, Option.mem_some_iff] at member
  rw [← member]
  exact ⟨rfl, fun same => absurd same (by decide)⟩

/-- The lines of two strings of whole lines. -/
theorem splitLines_append (breaks : Breaks string rest) :
    splitLines (string ++ rest) = splitLines string ++ splitLines rest := by
  induction string with
  | nil => rfl
  | cons letter later ih =>
      have next := ih breaks.tail
      rcases letter_cases letter later with ⟨last, rfl, rfl⟩ | ⟨ends, alone⟩ | inside
      · rw [List.cons_append, splitLines_feed, splitLines_feed, List.cons_append,
          List.cons.injEq] at next
        rw [List.cons_append, List.cons_append, splitLines_crlf, splitLines_crlf, next.2]
        rfl
      · have joined : letter = carriageReturn → (later ++ rest).head? ≠ some lineFeed := by
          intro return_
          cases later with
          | nil => exact (breaks letter rfl).2 return_
          | cons second later => exact alone return_
        rw [List.cons_append, splitLines_break ends joined, splitLines_break ends alone, next]
        rfl
      · rw [List.cons_append, splitLines_inside inside, splitLines_inside inside, next]
        cases later with
        | nil =>
            have boundary := (breaks letter rfl).1
            rw [inside] at boundary
            cases boundary
        | cons second later =>
            cases is : splitLines (second :: later) with
            | nil => exact absurd is (splitLines_ne_nil (List.cons_ne_nil _ _))
            | cons line lines => rfl

/-- A line without boundaries, before the boundary that ends it. -/
theorem splitLines_body (plain : ∀ letter ∈ body, isBreak letter = false) {ending : Text}
    (ends : splitLines ending = [⟨[], ending⟩]) : splitLines (body ++ ending) = [⟨body, ending⟩] := by
  induction body with
  | nil => exact ends
  | cons letter body ih =>
      rw [List.cons_append, splitLines_inside (plain letter List.mem_cons_self),
        ih fun other member => plain other (List.mem_cons_of_mem _ member)]
      rfl

/-- The two ways to end a line that a text file uses. -/
inductive Newline : Text → Prop
  | feed : Newline [lineFeed]
  | returnFeed : Newline [carriageReturn, lineFeed]

theorem Newline.splitLines_eq {newline : Text} (ends : Newline newline) :
    splitLines newline = [⟨[], newline⟩] := by
  cases ends with
  | feed => rfl
  | returnFeed => rfl

theorem Newline.breaks {newline : Text} (ends : Newline newline) (string rest : Text) :
    Breaks (string ++ newline) rest := by
  cases ends with
  | feed => exact breaks_append_feed string rest
  | returnFeed =>
      rw [show string ++ [carriageReturn, lineFeed] = (string ++ [carriageReturn]) ++ [lineFeed] by
        simp]
      exact breaks_append_feed _ rest

/-- Lines with ends are read back. -/
theorem splitLines_lines {bodies : List Text} {newline : Text} (ends : Newline newline)
    (plain : ∀ body ∈ bodies, ∀ letter ∈ body, isBreak letter = false) :
    splitLines (bodies.flatMap (· ++ newline)) = bodies.map (⟨·, newline⟩) := by
  induction bodies with
  | nil => rfl
  | cons body bodies ih =>
      rw [List.flatMap_cons, splitLines_append (ends.breaks body _),
        splitLines_body (plain body List.mem_cons_self) ends.splitLines_eq,
        ih fun other member => plain other (List.mem_cons_of_mem _ member)]
      rfl

/-- A newline behind a last line that it does not stand behind alone: it ends this line, also
with the carriage return that is there already. -/
theorem splitLines_extend {newline : Text} (ends : Newline newline) (filled : string ≠ [])
    (joins : ¬Breaks string newline) :
    ∃ before last, splitLines string = before ++ [last] ∧
      splitLines (string ++ newline) = before ++ [⟨last.body, last.ending ++ newline⟩] ∧
        (last.ending = [] ∨ last.ending = [carriageReturn]) := by
  induction string with
  | nil => exact absurd rfl filled
  | cons letter rest ih =>
      cases rest with
      | nil =>
          by_cases boundary : isBreak letter = true
          · have joined : letter = carriageReturn ∧ newline.head? = Option.some lineFeed := by
              by_contra alone
              refine joins fun last isLast => ?_
              rw [List.getLast?_singleton, Option.mem_some_iff] at isLast
              rw [← isLast]
              exact ⟨boundary, fun return_ feed => alone ⟨return_, feed⟩⟩
            obtain ⟨rfl, feed⟩ := joined
            cases ends with
            | feed => exact ⟨[], ⟨[], [carriageReturn]⟩, rfl, rfl, Or.inr rfl⟩
            | returnFeed => exact absurd feed (by decide)
          · rw [Bool.not_eq_true] at boundary
            refine ⟨[], ⟨[letter], []⟩, splitLines_inside boundary [], ?_, Or.inl rfl⟩
            rw [List.singleton_append, splitLines_inside boundary, ends.splitLines_eq]
            rfl
      | cons second rest =>
          have later : ¬Breaks (second :: rest) newline := by
            intro breaks
            exact joins fun last isLast => breaks last (by rwa [List.getLast?_cons_cons] at isLast)
          obtain ⟨before, last, lines, extended, ending⟩ := ih (List.cons_ne_nil _ _) later
          rw [List.cons_append] at extended
          rcases letter_cases letter (second :: rest) with
            ⟨tail, rfl, split⟩ | ⟨boundary, alone⟩ | inside
          · obtain ⟨rfl, rfl⟩ := List.cons.inj split
            rw [splitLines_feed] at lines extended
            cases before with
            | nil =>
                rw [List.nil_append, List.cons.injEq] at lines
                rw [← lines.1] at ending
                rcases ending with none | single
                · cases none
                · exact absurd single (by decide)
            | cons first before =>
                rw [List.cons_append, List.cons.injEq] at lines extended
                refine ⟨⟨[], [carriageReturn, lineFeed]⟩ :: before, last, ?_, ?_, ending⟩
                · rw [splitLines_crlf, lines.2]
                  rfl
                · rw [List.cons_append, List.cons_append, splitLines_crlf, extended.2]
                  rfl
          · refine ⟨⟨[], [letter]⟩ :: before, last, ?_, ?_, ending⟩
            · rw [splitLines_break boundary alone, lines]
              rfl
            · rw [List.cons_append, List.cons_append, splitLines_break boundary (by exact alone),
                extended]
              rfl
          · cases before with
            | nil =>
                refine ⟨[], ⟨letter :: last.body, last.ending⟩, ?_, ?_, ending⟩
                · rw [splitLines_inside inside, lines]
                  rfl
                · rw [List.cons_append, splitLines_inside inside, List.cons_append, extended]
                  rfl
            | cons first before =>
                refine ⟨⟨letter :: first.body, first.ending⟩ :: before, last, ?_, ?_, ending⟩
                · rw [splitLines_inside inside, lines]
                  rfl
                · rw [List.cons_append, splitLines_inside inside, List.cons_append, extended]
                  rfl

/-- A string whose one boundary is the line feed, and that ends with it, is its lines. -/
theorem flatMap_bodies (feeds : ∀ letter ∈ string, isBreak letter = true → letter = lineFeed)
    (ends : string = [] ∨ string.getLast? = some lineFeed) :
    (lineBodies string).flatMap (· ++ [lineFeed]) = string := by
  unfold lineBodies
  induction string with
  | nil => rfl
  | cons letter rest ih =>
      have last : rest = [] ∨ rest.getLast? = some lineFeed := by
        cases rest with
        | nil => exact Or.inl rfl
        | cons second rest => exact Or.inr (by simpa using ends)
      have next := ih (fun other member => feeds other (List.mem_cons_of_mem _ member)) last
      cases boundary : isBreak letter with
      | true =>
          rw [feeds letter List.mem_cons_self boundary, splitLines_feed, List.map_cons,
            List.flatMap_cons, next]
          rfl
      | false =>
          rw [splitLines_inside boundary]
          cases is : splitLines rest with
          | nil =>
              cases rest with
              | nil =>
                  have feed : letter = lineFeed := by simpa using ends
                  rw [feed] at boundary
                  cases boundary
              | cons second rest => exact absurd is (splitLines_ne_nil (List.cons_ne_nil _ _))
          | cons line lines =>
              rw [is, List.map_cons, List.flatMap_cons] at next
              rw [Line.consLetter, List.map_cons, List.flatMap_cons, ← next]
              rfl

end CarbonLab
