import CarbonLab.Lib.JsonToken

/-!
# File name patterns

Python's `fnmatch.fnmatchcase`: `*` stands for any text, `?` for any character and
`[...]` for one character of a set.  None of them treats `/` in its own way.
-/

namespace CarbonLab

/-- A member of a character set. -/
inductive SetItem
  | one (letter : CodePoint)
  | range (first last : CodePoint)
  deriving DecidableEq, Repr

namespace SetItem

/-- Is a character in a member of a set? -/
def accepts (letter : CodePoint) : SetItem → Bool
  | .one other => letter = other
  | .range first last => first ≤ letter && letter ≤ last

/-- The members that are written between brackets; a range that ends before it starts has
no characters. -/
def scan : Text → List SetItem
  | first :: second :: last :: rest =>
      if second = code '-' then
        if first ≤ last then .range first last :: scan rest else scan rest
      else .one first :: scan (second :: last :: rest)
  | letters => letters.map .one

end SetItem

/-- A part of a pattern. -/
inductive GlobPart
  /-- `*` -/
  | star
  /-- `?` -/
  | any
  | letter (value : CodePoint)
  | set (negated : Bool) (items : List SetItem)
  deriving DecidableEq, Repr

/-- The parts of a pattern. -/
abbrev Glob := List GlobPart

namespace Glob

/-- The set between two brackets.  A `!` in front negates it, also when it only stands in
front because the ranges before it were empty. -/
def bracket (content : Text) : GlobPart :=
  let items :=
    match content with
    | [] => []
    | first :: rest =>
        if first = code '!' then SetItem.one first :: SetItem.scan rest
        else SetItem.scan (first :: rest)
  match items with
  | .one first :: rest => if first = code '!' then .set true rest else .set false items
  | .range first last :: rest =>
      if first = code '!' then .set true (.one (code '-') :: .one last :: rest)
      else .set false items
  | [] => .set false []

/-- Cut at the first `]` that is not the first character of the set. -/
def closing (pattern : Text) : Option (Text × Text) :=
  let mark := if pattern.head? = some (code '!') then 1 else 0
  let skipped := if (pattern.drop mark).head? = some (code ']') then mark + 1 else mark
  let inside := (pattern.drop skipped).takeWhile (· ≠ code ']')
  match (pattern.drop skipped).dropWhile (· ≠ code ']') with
  | [] => none
  | _ :: rest => some (pattern.take skipped ++ inside, rest)

/-- The parts of a pattern; `fuel` is its length. -/
def parts : (fuel : ℕ) → Text → Glob
  | 0, _ | _, [] => []
  | fuel + 1, first :: rest =>
      if first = code '*' then .star :: parts fuel rest
      else if first = code '?' then .any :: parts fuel rest
      else if first = code '[' then
        match closing rest with
        | none => .letter first :: parts fuel rest
        | some (content, behind) => bracket content :: parts fuel behind
      else .letter first :: parts fuel rest

/-- `*` in front of what `next` accepts. -/
def skip (next : Text → Bool) : Text → Bool
  | [] => next []
  | first :: rest => next (first :: rest) || skip next rest

/-- Does a whole text match? -/
def accepts : Glob → Text → Bool
  | [], string => string.isEmpty
  | .star :: glob, string => skip (accepts glob) string
  | .any :: glob, _ :: rest => accepts glob rest
  | .letter value :: glob, first :: rest => first = value && accepts glob rest
  | .set negated items :: glob, first :: rest =>
      (items.any (SetItem.accepts first)).xor negated && accepts glob rest
  | _ :: _, [] => false

end Glob

/-- `any(marker in string for marker in ("*", "?", "["))` -/
def hasMarker (string : Text) : Bool :=
  string.any fun letter => letter = code '*' || letter = code '?' || letter = code '['

/-- `fnmatch.fnmatchcase(string, pattern)` -/
def fnmatchcase (string pattern : Text) : Bool :=
  Glob.accepts (Glob.parts pattern.length pattern) string

namespace Glob

theorem skip_of_nil {next : Text → Bool} (ends : next [] = true) (string : Text) :
    skip next string = true := by
  induction string with
  | nil => exact ends
  | cons first rest ih => rw [skip, ih, Bool.or_true]

/-- A pattern without markers has its own characters as parts. -/
theorem parts_of_plain {pattern : Text} (plain : hasMarker pattern = false) :
    parts pattern.length pattern = pattern.map .letter := by
  induction pattern with
  | nil => rfl
  | cons first rest ih =>
      simp only [hasMarker, List.any_cons, Bool.or_eq_false_iff, decide_eq_false_iff_not] at plain
      obtain ⟨⟨⟨star, any⟩, bracket⟩, behind⟩ := plain
      rw [List.length_cons, parts, if_neg star, if_neg any, if_neg bracket, List.map_cons,
        ih behind]

theorem accepts_letters (string : Text) : accepts (string.map .letter) string = true := by
  induction string with
  | nil => rfl
  | cons first rest ih => simp [accepts, ih]

end Glob

/-- `**` matches every text. -/
theorem fnmatchcase_stars (string : Text) :
    fnmatchcase string [code '*', code '*'] = true := by
  apply Glob.skip_of_nil
  apply Glob.skip_of_nil
  rfl

/-- A name without markers matches itself. -/
theorem fnmatchcase_self {string : Text} (plain : hasMarker string = false) :
    fnmatchcase string string = true := by
  rw [fnmatchcase, Glob.parts_of_plain plain]
  exact Glob.accepts_letters string

end CarbonLab
