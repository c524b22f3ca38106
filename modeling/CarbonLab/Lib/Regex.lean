import CarbonLab.Lib.Json

/-!
# Backtracking patterns

The part of Python's `re` that matches single characters, sequences, alternatives,
greedy and reluctant repetitions of a character class, word edges and the ends of a
text.  A match is the first one in the order in which a backtracking matcher tries them.
-/

namespace CarbonLab

/-- A pattern. -/
inductive Pattern
  | one (accepts : CodePoint → Bool)
  | seq (first second : Pattern)
  | alt (first second : Pattern)
  /-- `p?` -/
  | optional (pattern : Pattern)
  /-- `[...]*` -/
  | many (accepts : CodePoint → Bool)
  /-- `[...]*?` -/
  | few (accepts : CodePoint → Bool)
  /-- `\b` -/
  | edge (word : CodePoint → Bool)
  /-- `^` -/
  | start
  /-- `$` -/
  | finish

namespace Pattern

variable {β : Type}

/-- The longest repetition first. -/
def greedy (accepts : CodePoint → Bool) (next : Option CodePoint → Text → Option β) :
    Option CodePoint → Text → Option β
  | before, [] => next before []
  | before, letter :: rest =>
      if accepts letter then
        (greedy accepts next (some letter) rest).or (next before (letter :: rest))
      else next before (letter :: rest)

/-- The shortest repetition first. -/
def reluctant (accepts : CodePoint → Bool) (next : Option CodePoint → Text → Option β) :
    Option CodePoint → Text → Option β
  | before, [] => next before []
  | before, letter :: rest =>
      (next before (letter :: rest)).or
        (if accepts letter then reluctant accepts next (some letter) rest else none)

/-- Match a pattern behind a character and go on with the rest. -/
def match_ : Pattern → (next : Option CodePoint → Text → Option β) →
    (before : Option CodePoint) → Text → Option β
  | .one accepts, next, _, input =>
      match input with
      | [] => none
      | letter :: rest => if accepts letter then next (some letter) rest else none
  | .seq first second, next, before, input => first.match_ (second.match_ next) before input
  | .alt first second, next, before, input =>
      (first.match_ next before input).or (second.match_ next before input)
  | .optional pattern, next, before, input =>
      (pattern.match_ next before input).or (next before input)
  | .many accepts, next, before, input => greedy accepts next before input
  | .few accepts, next, before, input => reluctant accepts next before input
  | .edge word, next, before, input =>
      if before.any word = input.head?.any word then none else next before input
  | .start, next, before, input => if before.isNone then next before input else none
  | .finish, next, before, input =>
      if input = [] ∨ input = [10] then next before input else none

/-- `pattern.search(text)` finds something. -/
def search (pattern : Pattern) : (before : Option CodePoint) → Text → Bool
  | before, [] => (pattern.match_ (fun _ _ => some ()) before []).isSome
  | before, letter :: rest =>
      (pattern.match_ (fun _ _ => some ()) before (letter :: rest)).isSome ||
        search pattern (some letter) rest

/-- A sequence of patterns. -/
def all (patterns : List Pattern) (last : Pattern) : Pattern := patterns.foldr .seq last

/-- Alternatives. -/
def any (patterns : List Pattern) (last : Pattern) : Pattern := patterns.foldr .alt last

/-- What a match returns, its continuation returned. -/
theorem exists_of_match_ {pattern : Pattern} {next : Option CodePoint → Text → Option β}
    {before : Option CodePoint} {input : Text} {result : β}
    (found : pattern.match_ next before input = some result) :
    ∃ before rest, next before rest = some result := by
  induction pattern generalizing next before input with
  | one accepts =>
      rcases input with _ | ⟨letter, rest⟩
      · cases found
      · rw [match_] at found
        split at found
        · exact ⟨_, _, found⟩
        · cases found
  | seq first second ihFirst ihSecond =>
      obtain ⟨_, _, found⟩ := ihFirst found
      exact ihSecond found
  | alt first second ihFirst ihSecond =>
      rcases Option.or_eq_some_iff.mp found with found | ⟨_, found⟩
      · exact ihFirst found
      · exact ihSecond found
  | optional pattern ih =>
      rcases Option.or_eq_some_iff.mp found with found | ⟨_, found⟩
      · exact ih found
      · exact ⟨_, _, found⟩
  | many accepts =>
      rw [match_] at found
      induction input generalizing before with
      | nil => exact ⟨_, _, found⟩
      | cons letter rest ih =>
          rw [greedy] at found
          split at found
          · rcases Option.or_eq_some_iff.mp found with found | ⟨_, found⟩
            · exact ih found
            · exact ⟨_, _, found⟩
          · exact ⟨_, _, found⟩
  | few accepts =>
      rw [match_] at found
      induction input generalizing before with
      | nil => exact ⟨_, _, found⟩
      | cons letter rest ih =>
          rw [reluctant] at found
          rcases Option.or_eq_some_iff.mp found with found | ⟨_, found⟩
          · exact ⟨_, _, found⟩
          · split at found
            · exact ih found
            · cases found
  | edge word =>
      rw [match_] at found
      split at found
      · cases found
      · exact ⟨_, _, found⟩
  | start =>
      rw [match_] at found
      split at found
      · exact ⟨_, _, found⟩
      · cases found
  | finish =>
      rw [match_] at found
      split at found
      · exact ⟨_, _, found⟩
      · cases found

end Pattern

/-- `pattern.sub(replace, text)`: `rewrite` matches at a place and says what to put there,
and where the match ends.  Matches are not empty. -/
def substitute (rewrite : Option CodePoint → Text → Option (Text × Option CodePoint × Text)) :
    ℕ → Option CodePoint → Text → Text
  | 0, _, input => input
  | fuel + 1, before, input =>
      match rewrite before input with
      | some (replacement, before, rest) => replacement ++ substitute rewrite fuel before rest
      | none =>
          match input with
          | [] => []
          | letter :: rest => letter :: substitute rewrite fuel (some letter) rest

/-- What some letter of the text and some letter of each replacement satisfy, some letter
of the result satisfies. -/
theorem exists_mem_substitute {holds : CodePoint → Prop}
    {rewrite : Option CodePoint → Text → Option (Text × Option CodePoint × Text)}
    (kept : ∀ before input replacement rest, rewrite before input = some (replacement, rest) →
      ∃ letter ∈ replacement, holds letter)
    (fuel : ℕ) {before : Option CodePoint} {input : Text} (some_ : ∃ letter ∈ input, holds letter) :
    ∃ letter ∈ substitute rewrite fuel before input, holds letter := by
  induction fuel generalizing before input with
  | zero => exact some_
  | succ fuel ih =>
      rw [substitute.eq_def]
      dsimp only
      split
      · next replacement before' rest found =>
          obtain ⟨letter, member, holds⟩ := kept _ _ _ _ found
          exact ⟨letter, List.mem_append_left _ member, holds⟩
      · obtain ⟨letter, member, holds⟩ := some_
        rcases input with _ | ⟨first, input⟩
        · cases member
        · rcases List.mem_cons.mp member with rfl | member
          · exact ⟨letter, List.mem_cons_self, holds⟩
          · obtain ⟨other, member, holds⟩ := ih ⟨letter, member, holds⟩
            exact ⟨other, List.mem_cons_of_mem _ member, holds⟩

end CarbonLab
