import CarbonLab.Aegis.Redaction
import CarbonLab.Lib.RegexMatch

/-!
# Redaction of a command line

`_redact_argv` of `evidence.py`: what it writes for the values of options that name a secret.
-/

namespace CarbonLab.Aegis

namespace Host

/-- `value.lstrip("-")` -/
def lstripHyphens (value : Text) : Text := value.dropWhile (· = code '-')

/-- `SECRET_NAME.search(value.lstrip("-"))` -/
def recognised (value : Text) : Bool := secretName.search none (lstripHyphens value)

/-- `value.split("=", 1)[0]` -/
def keyOf (value : Text) : Text := value.takeWhile (· ≠ code '=')

variable (host : Host)

/-- The loop of `_redact_argv`. -/
def redactValues : (redactNext : Bool) → List Text → List Text
  | _, [] => []
  | true, _ :: rest => redacted :: redactValues false rest
  | false, value :: rest =>
      if code '=' ∈ value ∧ recognised (keyOf value) then
        (keyOf value ++ text "=[REDACTED]") :: redactValues false rest
      else host.redactText value :: redactValues (startsWith (text "-") value && recognised value) rest

/-- `_redact_argv` -/
def redactArgv (argv : List Text) : List Text := host.redactValues false argv

/-! ## Options -/

/-- The words that name a secret. -/
def secretNames : List Text :=
  [text "api_key", text "token", text "secret", text "password", text "passwd",
    text "private_key", text "credential"]

/-- Does the name of an option, its hyphens read as underscores, contain such a word between
underscores or ends? -/
def namesSecret (option : Text) : Bool :=
  let name := (lstripHyphens option).map fun letter => if letter = code '-' then code '_' else letter
  secretNames.any fun secret =>
    [code '_'] ++ secret ++ [code '_'] <:+: [code '_'] ++ name ++ [code '_']

/-- An option that is given a secret. -/
structure SecretOption where
  option : Text
  dash : option.head? = some (code '-')
  plain : code '=' ∉ option
  secret : namesSecret option = true

/-- How a value is given to an option: `--name=value`, or `--name` and the value behind it. -/
inductive ValueForm
  | joined
  | separate
  deriving DecidableEq, Repr

/-- The arguments of an option with its value. -/
def ValueForm.arguments (form : ValueForm) (option value : Text) : List Text :=
  match form with
  | joined => [option ++ code '=' :: value]
  | separate => [option, value]

/-- Does an argument that is not itself redacted make the next one be? -/
def opens (value : Text) : Bool :=
  !(decide (code '=' ∈ value) && recognised (keyOf value)) &&
    (startsWith (text "-") value && recognised value)

/-- Is the argument behind these redacted, whatever it is? -/
def awaits (before : List Text) : Bool :=
  before.foldl (fun redactNext value => !redactNext && opens value) false

/-- The condition on an option; `redactNext` says whether the arguments before it redact the next
one. -/
def Hides (redactNext : Bool) (option : Text) : ValueForm → Prop
  | .joined => redactNext = true ∨ recognised option = true
  | .separate => redactNext = false ∧ recognised option = true

variable {host} {before rest : List Text} {value option : Text} {redactNext : Bool}

theorem redactValues_append (before rest : List Text) (redactNext : Bool) :
    host.redactValues redactNext (before ++ rest) =
      host.redactValues redactNext before ++
        host.redactValues
          (before.foldl (fun redactNext value => !redactNext && opens value) redactNext) rest := by
  induction before generalizing redactNext with
  | nil => rw [List.nil_append, redactValues, List.nil_append, List.foldl_nil]
  | cons value before ih =>
      cases redactNext with
      | true => simp [redactValues, ih]
      | false =>
          rw [List.cons_append, redactValues, redactValues, List.foldl_cons]
          by_cases known : code '=' ∈ value ∧ recognised (keyOf value) = true
          · rw [if_pos known, if_pos known, ih, List.cons_append]
            simp [opens, known]
          · rw [if_neg known, if_neg known, ih, List.cons_append]
            have unknown : (decide (code '=' ∈ value) && recognised (keyOf value)) = false := by
              simpa using known
            simp [opens, unknown]

/-! ## What `redact_text` leaves -/

/-- A comma or a semicolon, which no match of a secret ends with. -/
def IsMark (mark : CodePoint) : Prop := mark = code ',' ∨ mark = code ';'

variable {mark : CodePoint}

theorem isTokenLetter_mark (marks : IsMark mark) : isTokenLetter mark = false := by
  rcases marks with rfl | rfl <;> decide

/-- The last letter of a text without a mark. -/
theorem exists_final {consumed : Text} (filled : consumed ≠ [])
    (inside : ∀ letter ∈ consumed, letter ≠ mark) :
    ∃ final, consumed.getLast? = some final ∧ final ≠ mark :=
  ⟨_, List.getLast?_eq_some_getLast filled, inside _ (List.getLast_mem filled)⟩

theorem spares_rewriteAssignment (marks : IsMark mark) : Spares host.rewriteAssignment mark := by
  apply spares_of_ends
  intro before input replacement last rest found
  obtain ⟨name, _, value, rfl, _, found⟩ := Pattern.consumes_of_match_ found
  obtain ⟨secret, _, behind, rfl, taken, found⟩ := Pattern.consumes_of_match_ found
  cases found
  have outside (letter : CodePoint)
      (accepted : (!isSpace letter && decide (letter ≠ code ',') && decide (letter ≠ code ';')) = true) :
      letter ≠ mark := by
    rcases marks with rfl | rfl
    · rintro rfl
      cases accepted
    · rintro rfl
      cases accepted
  have inside := taken.within (show Pattern.Within (· ≠ mark) assigned from ⟨outside, outside⟩)
  obtain ⟨final, ending, other⟩ := exists_final (taken.ne_nil rfl) inside
  exact ⟨name, secret, final, (List.append_assoc _ _ _).symm, ending, other⟩

theorem spares_apiToken (marks : IsMark mark) : Spares (rewriteWhole host.apiToken) mark := by
  apply spares_of_ends
  intro before input replacement last rest found
  obtain ⟨token, _, behind, rfl, taken, found⟩ := Pattern.consumes_of_match_ found
  cases found
  have letters : Pattern.Within (isTokenLetter · = true) host.apiToken := by
    simp [apiToken, Pattern.all, exactly, Pattern.Within]
    decide +kernel
  have inside : ∀ letter ∈ token, letter ≠ mark := by
    intro letter member same
    have tokenLetter := taken.within letters letter member
    rw [same, isTokenLetter_mark marks] at tokenLetter
    cases tokenLetter
  obtain ⟨final, ending, other⟩ := exists_final (taken.ne_nil rfl) inside
  exact ⟨[], token, final, rfl, ending, other⟩

theorem getLast?_exactly {first : Char} {letters : String} {string : Text}
    (taken : (exactly first letters).Consumes string) :
    string.getLast? = some (code letters.back) := by
  obtain ⟨front, final, rfl, ending⟩ :=
    @Pattern.consumes_all _ (.one fun point => decide (point = code letters.back)) _ taken
  cases ending with
  | one accepted => rw [List.getLast?_concat, of_decide_eq_true accepted]

theorem spares_privateKey (marks : IsMark mark) : Spares (rewriteWhole privateKey) mark := by
  apply spares_of_ends
  intro before input replacement last rest found
  obtain ⟨block, _, behind, rfl, taken, found⟩ := Pattern.consumes_of_match_ found
  cases found
  obtain ⟨front, closing, is, closes⟩ := Pattern.consumes_all taken
  refine ⟨[], block, code '-', rfl, ?_, ?_⟩
  · have hyphen : "RIVATE KEY-----".back = '-' := by decide +kernel
    rw [is, List.getLast?_append, getLast?_exactly closes, hyphen, Option.some_or]
  · rcases marks with rfl | rfl <;> decide

/-- A mark at the end of a text stays there. -/
theorem getLast?_redactText (marks : IsMark mark) (value : Text) :
    (host.redactText (value ++ [mark])).getLast? = some mark := by
  rw [redactText]
  obtain ⟨first, isFirst⟩ := (spares_rewriteAssignment marks).substitute _ none value
  rw [isFirst]
  obtain ⟨second, isSecond⟩ := (spares_apiToken marks).substitute _ none first
  rw [isSecond]
  obtain ⟨third, isThird⟩ := (spares_privateKey marks).substitute _ none second
  rw [isThird, List.getLast?_concat]

theorem redactText_marks_ne (value : Text) :
    host.redactText (value ++ [code ',']) ≠ host.redactText (value ++ [code ';']) := by
  intro same
  have lasts := congrArg List.getLast? same
  rw [getLast?_redactText (Or.inl rfl), getLast?_redactText (Or.inr rfl)] at lasts
  exact absurd lasts (by decide)

/-! ## Values of options -/

/-- A value in its place is written as `redact_text` leaves it. -/
theorem redactValues_marks_ne (after : List Text) :
    host.redactValues false ([code ','] :: after) ≠ host.redactValues false ([code ';'] :: after) := by
  have plain {mark : CodePoint} (marks : IsMark mark) :
      ¬(code '=' ∈ [mark] ∧ recognised (keyOf [mark]) = true) := by
    rintro ⟨member, _⟩
    rcases marks with rfl | rfl
    · exact absurd (List.mem_singleton.mp member) (by decide)
    · exact absurd (List.mem_singleton.mp member) (by decide)
  rw [redactValues, redactValues, if_neg (plain (Or.inl rfl)), if_neg (plain (Or.inr rfl))]
  intro same
  exact @redactText_marks_ne host [] (List.cons.inj same).1

theorem keyOf_joined (plain : code '=' ∉ option) (value : Text) :
    keyOf (option ++ code '=' :: value) = option := by
  rw [keyOf, List.takeWhile_append_of_pos, List.takeWhile_cons_of_neg (by simp), List.append_nil]
  intro letter member
  rw [decide_eq_true_eq]
  rintro rfl
  exact plain member

theorem redactValues_joined (plain : code '=' ∉ option) (value : Text) (after : List Text) :
    host.redactValues false ((option ++ code '=' :: value) :: after) =
      if recognised option then (option ++ text "=[REDACTED]") :: host.redactValues false after
      else host.redactText (option ++ code '=' :: value) ::
        host.redactValues (startsWith (text "-") (option ++ code '=' :: value) &&
          recognised (option ++ code '=' :: value)) after := by
  rw [redactValues, keyOf_joined plain]
  simp

theorem redactValues_option (plain : code '=' ∉ option) (dash : option.head? = some (code '-'))
    (rest : List Text) :
    host.redactValues false (option :: rest) =
      host.redactText option :: host.redactValues (recognised option) rest := by
  have starts : startsWith (text "-") option = true := by
    obtain ⟨behind, rfl⟩ := List.head?_eq_some_iff.mp dash
    simp [startsWith, text, code]
  rw [redactValues, if_neg fun known => plain known.1, starts, Bool.true_and]

/-- The two forms, behind arguments that leave the next one as it is or redact it. -/
theorem redactValues_const_iff (given : SecretOption) (form : ValueForm) (redactNext : Bool)
    (after : List Text) :
    (∀ value other, host.redactValues redactNext (form.arguments given.option value ++ after) =
        host.redactValues redactNext (form.arguments given.option other ++ after)) ↔
      Hides redactNext given.option form := by
  cases form with
  | joined =>
      simp only [ValueForm.arguments, List.cons_append, List.nil_append]
      constructor
      · intro same
        by_contra leaks
        obtain ⟨next, unknown⟩ := not_or.mp leaks
        rw [Bool.not_eq_true] at next
        have written := same [code ','] [code ';']
        rw [next, redactValues_joined given.plain, redactValues_joined given.plain, if_neg unknown,
          if_neg unknown] at written
        have apart (mark : CodePoint) : given.option ++ [code '=', mark] =
            given.option ++ [code '='] ++ [mark] := List.append_cons _ _ _
        have texts := (List.cons.inj written).1
        rw [apart, apart] at texts
        exact redactText_marks_ne (given.option ++ [code '=']) texts
      · rintro (next | known) value other
        · rw [next, redactValues, redactValues]
        · cases redactNext with
          | true => rw [redactValues, redactValues]
          | false =>
              rw [redactValues_joined given.plain, redactValues_joined given.plain, if_pos known,
                if_pos known]
  | separate =>
      simp only [ValueForm.arguments, List.cons_append, List.nil_append]
      constructor
      · intro same
        have written := same [code ','] [code ';']
        cases redactNext with
        | true =>
            rw [redactValues, redactValues] at written
            exact absurd (List.cons.inj written).2 (redactValues_marks_ne after)
        | false =>
            rw [redactValues_option given.plain given.dash,
              redactValues_option given.plain given.dash] at written
            cases known : recognised given.option with
            | true => exact ⟨rfl, known⟩
            | false =>
                rw [known] at written
                exact absurd (List.cons.inj written).2 (redactValues_marks_ne after)
      · rintro ⟨rfl, known⟩ value other
        rw [redactValues_option given.plain given.dash, redactValues_option given.plain given.dash,
          known, redactValues, redactValues]

/-- **Secrets on a command line.** What `_redact_argv` returns does not depend on the value of an
option exactly when `SECRET_NAME` finds a secret in the option, and the arguments before it do not
take the option for a value; joined to the option, the value is also hidden where they do. -/
theorem redactArgv_hides_iff (host : Host) (before after : List Text) (given : SecretOption)
    (form : ValueForm) :
    (∀ value other, host.redactArgv (before ++ form.arguments given.option value ++ after) =
        host.redactArgv (before ++ form.arguments given.option other ++ after)) ↔
      Hides (awaits before) given.option form := by
  have behind (value : Text) :
      host.redactArgv (before ++ form.arguments given.option value ++ after) =
        host.redactValues false before ++
          host.redactValues (awaits before) (form.arguments given.option value ++ after) := by
    rw [redactArgv, List.append_assoc, redactValues_append]
    rfl
  simp only [behind, List.append_cancel_left_eq]
  exact redactValues_const_iff given form (awaits before) after

/-- `--access-token` -/
def accessToken : SecretOption where
  option := text "--access-token"
  dash := rfl
  plain := by simp [text, code]
  secret := by decide +kernel

theorem redactArgv_leaks :
    ¬∀ (host : Host) (before after : List Text) (given : SecretOption) (form : ValueForm)
      (value other : Text),
      host.redactArgv (before ++ form.arguments given.option value ++ after) =
        host.redactArgv (before ++ form.arguments given.option other ++ after) := by
  intro hides
  have written := hides (tableHost []) [] [] accessToken .separate (text "hunter2") (text "swordfish")
  revert written
  decide +kernel

end Host

end CarbonLab.Aegis
