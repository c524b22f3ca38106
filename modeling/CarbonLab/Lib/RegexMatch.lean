import CarbonLab.Lib.Regex

/-!
# What a match consumes

The texts that a pattern can consume, without the conditions on what stands around them, and what a
substitution leaves alone.
-/

namespace CarbonLab

namespace Pattern

variable {β : Type}

/-- The texts that a pattern can consume. -/
inductive Consumes : Pattern → Text → Prop
  | one {accepts : CodePoint → Bool} {letter : CodePoint} (accepted : accepts letter = true) :
      Consumes (.one accepts) [letter]
  | seq {first second : Pattern} {front back : Text} (left : Consumes first front)
      (right : Consumes second back) : Consumes (.seq first second) (front ++ back)
  | left {first second : Pattern} {string : Text} (taken : Consumes first string) :
      Consumes (.alt first second) string
  | right {first second : Pattern} {string : Text} (taken : Consumes second string) :
      Consumes (.alt first second) string
  | absent {pattern : Pattern} : Consumes (.optional pattern) []
  | present {pattern : Pattern} {string : Text} (taken : Consumes pattern string) :
      Consumes (.optional pattern) string
  | many {accepts : CodePoint → Bool} {string : Text} (all : string.all accepts = true) :
      Consumes (.many accepts) string
  | few {accepts : CodePoint → Bool} {string : Text} (all : string.all accepts = true) :
      Consumes (.few accepts) string
  | edge {word : CodePoint → Bool} : Consumes (.edge word) []
  | start : Consumes .start []
  | finish : Consumes .finish []

/-- A match consumes a text of its pattern and goes on behind it. -/
theorem consumes_of_match_ {pattern : Pattern} {next : Option CodePoint → Text → Option β}
    {before : Option CodePoint} {input : Text} {result : β}
    (found : pattern.match_ next before input = some result) :
    ∃ consumed last rest, input = consumed ++ rest ∧ Consumes pattern consumed ∧
      next last rest = some result := by
  induction pattern generalizing next before input with
  | one accepts =>
      rcases input with _ | ⟨letter, rest⟩
      · cases found
      · rw [match_] at found
        split at found
        · next accepted => exact ⟨[letter], _, rest, rfl, .one accepted, found⟩
        · cases found
  | seq first second ihFirst ihSecond =>
      obtain ⟨front, _, middle, rfl, left, found⟩ := ihFirst found
      obtain ⟨back, last, rest, rfl, right, found⟩ := ihSecond found
      exact ⟨front ++ back, last, rest, (List.append_assoc _ _ _).symm, .seq left right, found⟩
  | alt first second ihFirst ihSecond =>
      rcases Option.or_eq_some_iff.mp found with found | ⟨_, found⟩
      · obtain ⟨consumed, last, rest, is, taken, found⟩ := ihFirst found
        exact ⟨consumed, last, rest, is, .left taken, found⟩
      · obtain ⟨consumed, last, rest, is, taken, found⟩ := ihSecond found
        exact ⟨consumed, last, rest, is, .right taken, found⟩
  | optional pattern ih =>
      rcases Option.or_eq_some_iff.mp found with found | ⟨_, found⟩
      · obtain ⟨consumed, last, rest, is, taken, found⟩ := ih found
        exact ⟨consumed, last, rest, is, .present taken, found⟩
      · exact ⟨[], before, input, rfl, .absent, found⟩
  | many accepts =>
      rw [match_] at found
      suffices taken : ∃ consumed last rest, input = consumed ++ rest ∧
          consumed.all accepts = true ∧ next last rest = some result by
        obtain ⟨consumed, last, rest, is, all, found⟩ := taken
        exact ⟨consumed, last, rest, is, .many all, found⟩
      induction input generalizing before with
      | nil => exact ⟨[], before, [], rfl, rfl, found⟩
      | cons letter input ih =>
          rw [greedy] at found
          split at found
          · next accepted =>
              rcases Option.or_eq_some_iff.mp found with found | ⟨_, found⟩
              · obtain ⟨consumed, last, rest, rfl, all, found⟩ := ih found
                exact ⟨letter :: consumed, last, rest, rfl, by simp [accepted, all], found⟩
              · exact ⟨[], before, letter :: input, rfl, rfl, found⟩
          · exact ⟨[], before, letter :: input, rfl, rfl, found⟩
  | few accepts =>
      rw [match_] at found
      suffices taken : ∃ consumed last rest, input = consumed ++ rest ∧
          consumed.all accepts = true ∧ next last rest = some result by
        obtain ⟨consumed, last, rest, is, all, found⟩ := taken
        exact ⟨consumed, last, rest, is, .few all, found⟩
      induction input generalizing before with
      | nil => exact ⟨[], before, [], rfl, rfl, found⟩
      | cons letter input ih =>
          rw [reluctant] at found
          rcases Option.or_eq_some_iff.mp found with found | ⟨_, found⟩
          · exact ⟨[], before, letter :: input, rfl, rfl, found⟩
          · split at found
            · next accepted =>
                obtain ⟨consumed, last, rest, rfl, all, found⟩ := ih found
                exact ⟨letter :: consumed, last, rest, rfl, by simp [accepted, all], found⟩
            · cases found
  | edge word =>
      rw [match_] at found
      split at found
      · cases found
      · exact ⟨[], before, input, rfl, .edge, found⟩
  | start =>
      rw [match_] at found
      split at found
      · exact ⟨[], before, input, rfl, .start, found⟩
      · cases found
  | finish =>
      rw [match_] at found
      split at found
      · exact ⟨[], before, input, rfl, .finish, found⟩
      · cases found

/-- The pattern ends with a part. -/
theorem consumes_all {patterns : List Pattern} {last : Pattern} {string : Text}
    (taken : Consumes (Pattern.all patterns last) string) :
    ∃ front back, string = front ++ back ∧ Consumes last back := by
  induction patterns generalizing string with
  | nil => exact ⟨[], string, rfl, taken⟩
  | cons first patterns ih =>
      cases taken with
      | seq left right =>
          obtain ⟨front, back, rfl, taken⟩ := ih right
          exact ⟨_ ++ front, back, (List.append_assoc _ _ _).symm, taken⟩

/-- All letters that the pattern takes satisfy a property. -/
def Within (holds : CodePoint → Prop) : Pattern → Prop
  | .one accepts | .many accepts | .few accepts => ∀ letter, accepts letter = true → holds letter
  | .seq first second | .alt first second => first.Within holds ∧ second.Within holds
  | .optional pattern => pattern.Within holds
  | .edge _ | .start | .finish => True

/-- Does every match take a letter? -/
def takes : Pattern → Bool
  | .one _ => true
  | .seq first second => first.takes || second.takes
  | .alt first second => first.takes && second.takes
  | .optional _ | .many _ | .few _ | .edge _ | .start | .finish => false

theorem Consumes.within {pattern : Pattern} {string : Text} (taken : Consumes pattern string)
    {holds : CodePoint → Prop} (within : pattern.Within holds) : ∀ letter ∈ string, holds letter := by
  induction taken with
  | one accepted =>
      intro letter member
      rw [List.mem_singleton.mp member]
      exact within _ accepted
  | seq _ _ ihLeft ihRight =>
      intro letter member
      rcases List.mem_append.mp member with front | back
      · exact ihLeft within.1 letter front
      · exact ihRight within.2 letter back
  | left _ ih => exact ih within.1
  | right _ ih => exact ih within.2
  | absent | edge | start | finish =>
      intro letter member
      cases member
  | present _ ih => exact ih within
  | many all | few all => exact fun letter member => within letter (List.all_eq_true.mp all letter member)

theorem Consumes.ne_nil {pattern : Pattern} {string : Text} (taken : Consumes pattern string)
    (takes : pattern.takes = true) : string ≠ [] := by
  induction taken with
  | one => exact List.cons_ne_nil _ _
  | seq _ _ ihLeft ihRight =>
      rcases Bool.or_eq_true_iff.mp takes with left | right
      · exact List.append_ne_nil_of_left_ne_nil (ihLeft left) _
      · exact List.append_ne_nil_of_right_ne_nil _ (ihRight right)
  | left _ ih => exact ih (Bool.and_eq_true_iff.mp takes).1
  | right _ ih => exact ih (Bool.and_eq_true_iff.mp takes).2
  | absent | present | many | few | edge | start | finish => cases takes

end Pattern

/-! ## Substitution -/

/-- No match is empty or ends with a letter that stands at the end. -/
structure Spares (rewrite : Option CodePoint → Text → Option (Text × Option CodePoint × Text))
    (letter : CodePoint) : Prop where
  nothing : ∀ before, rewrite before [] = none
  spared : ∀ {before input replacement last rest},
    rewrite before (input ++ [letter]) = some (replacement, last, rest) →
      ∃ front, rest = front ++ [letter]

variable {rewrite : Option CodePoint → Text → Option (Text × Option CodePoint × Text)}
  {letter : CodePoint}

theorem substitute_nil (nothing : ∀ before, rewrite before [] = none) (fuel : ℕ)
    (before : Option CodePoint) : substitute rewrite fuel before [] = [] := by
  cases fuel with
  | zero => rfl
  | succ fuel => rw [substitute, nothing]

/-- A letter that no match ends with stays at the end. -/
theorem Spares.substitute (spares : Spares rewrite letter) (fuel : ℕ) (before : Option CodePoint)
    (input : Text) :
    ∃ front, CarbonLab.substitute rewrite fuel before (input ++ [letter]) = front ++ [letter] := by
  induction fuel generalizing before input with
  | zero => exact ⟨input, rfl⟩
  | succ fuel ih =>
      rw [CarbonLab.substitute.eq_def]
      dsimp only
      split
      · next replacement last rest found =>
          obtain ⟨front, rfl⟩ := spares.spared found
          obtain ⟨behind, is⟩ := ih last front
          exact ⟨replacement ++ behind, by rw [is, List.append_assoc]⟩
      · cases input with
        | nil => exact ⟨[], congrArg (letter :: ·) (substitute_nil spares.nothing fuel (some letter))⟩
        | cons first input =>
            obtain ⟨behind, is⟩ := ih (some first) input
            exact ⟨first :: behind, congrArg (first :: ·) is⟩

/-- A rewriting whose matches end with other letters. -/
theorem spares_of_ends
    (ends : ∀ {before input replacement last rest},
      rewrite before input = some (replacement, last, rest) →
        ∃ front consumed final, input = front ++ consumed ++ rest ∧
          consumed.getLast? = some final ∧ final ≠ letter) :
    Spares rewrite letter where
  nothing := by
    intro before
    by_contra filled
    obtain ⟨⟨replacement, last, rest⟩, found⟩ := Option.ne_none_iff_exists'.mp filled
    obtain ⟨front, consumed, final, is, ending, _⟩ := ends found
    obtain ⟨start, rfl⟩ := List.getLast?_eq_some_iff.mp ending
    simp at is
  spared := by
    intro before input replacement last rest found
    obtain ⟨front, consumed, final, is, ending, other⟩ := ends found
    have lasts := congrArg List.getLast? is
    rw [List.getLast?_concat, List.getLast?_append, List.getLast?_append, ending] at lasts
    cases tail : rest.getLast? with
    | none =>
        rw [tail] at lasts
        exact absurd (Option.some.inj lasts).symm other
    | some final =>
        rw [tail] at lasts
        obtain ⟨start, rfl⟩ := List.getLast?_eq_some_iff.mp tail
        exact ⟨start, by rw [Option.some.inj lasts]⟩

end CarbonLab
