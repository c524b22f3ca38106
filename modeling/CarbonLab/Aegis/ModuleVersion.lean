import CarbonLab.Lib.Precedence
import CarbonLab.Aegis.PathSpelling
import CarbonLab.Aegis.Redaction

/-!
# Versions of modules

`_version`, `_compare_identifiers`, `_compare_versions` and `_requires_ok` of `modules.py`.  The
refused value that a message quotes is left out, and so is Python's limit on the digits of a number.
-/

namespace CarbonLab.Aegis

/-- `ModuleError` -/
structure ModuleError where
  message : Text
  deriving DecidableEq, Repr

/-- A version, with its names in Python's strings. -/
abbrev ModuleVersion := Version Text

/-! ## `_version` -/

namespace Host

variable (host : Host)

/-- `(0|[1-9]\d*)` with the value of the match. -/
def scanCore : Text → Option (ℕ × Text)
  | [] => none
  | first :: rest =>
      if first = code '0' then some (0, rest)
      else if 49 ≤ first.val ∧ first.val ≤ 57 then
        let digits := rest.takeWhile fun letter => (host.decimal letter).isSome
        some (numberOf (Fin.ofNat 10 (first.val - 48) :: digits.filterMap host.decimal),
          rest.dropWhile fun letter => (host.decimal letter).isSome)
      else none

/-- `\.` -/
def scanDot : Text → Option Text
  | [] => none
  | first :: rest => if first = code '.' then some rest else none

/-- `[0-9A-Za-z.-]` -/
def isTagLetter (letter : CodePoint) : Bool :=
  (48 ≤ letter.val && letter.val ≤ 57) || (65 ≤ letter.val && letter.val ≤ 90) ||
    (97 ≤ letter.val && letter.val ≤ 122) || letter = code '.' || letter = code '-'

/-- `(?:-([0-9A-Za-z.-]+))?` with the group.  A hyphen that no letter follows is left for what comes
behind, which refuses it. -/
def scanTag : Text → Option Text × Text
  | [] => (none, [])
  | first :: rest =>
      if first = code '-' ∧ rest.takeWhile isTagLetter ≠ [] then
        (some (rest.takeWhile isTagLetter), rest.dropWhile isTagLetter)
      else (none, first :: rest)

/-- `(?:\+[0-9A-Za-z.-]+)?` up to the end. -/
def endsWithBuild : Text → Bool
  | [] => true
  | first :: rest => first = code '+' && rest ≠ [] && rest.all isTagLetter

/-- The groups of the pattern of `_version`. -/
structure VersionMatch where
  major : ℕ
  minor : ℕ
  patch : ℕ
  tag : Option Text
  deriving DecidableEq, Repr

/-- `re.fullmatch(..., value)` -/
def matchVersion (value : Text) : Option VersionMatch := do
  let (major, rest) ← host.scanCore value
  let rest ← scanDot rest
  let (minor, rest) ← host.scanCore rest
  let rest ← scanDot rest
  let (patch, rest) ← host.scanCore rest
  let (tag, rest) := scanTag rest
  if endsWithBuild rest then some ⟨major, minor, patch, tag⟩ else none

/-- `item.isdigit()` of letters of the pattern. -/
def isNumber (item : Text) : Bool :=
  item ≠ [] && item.all fun letter => 48 ≤ letter.val && letter.val ≤ 57

/-- One turn of the loop over the identifiers. -/
def readIdentifier (item : Text) : Except ModuleError (Identifier Text) :=
  if item = [] ∨ (isNumber item ∧ 1 < item.length ∧ item.head? = some (code '0')) then
    .error ⟨text "invalid semantic-version prerelease"⟩
  else if isNumber item then
    .ok (.numeric (numberOf (item.map fun letter => Fin.ofNat 10 (letter.val - 48))))
  else .ok (.alphanumeric item)

/-- `_version` -/
def version (value : Text) : Except ModuleError ModuleVersion :=
  match host.matchVersion (strip value) with
  | none => .error ⟨text "unsupported semantic version"⟩
  | some groups => do
      let parts ← match groups.tag with
        | none => pure []
        | some tag => (tag.splitOn (code '.')).mapM readIdentifier
      return ⟨groups.major, groups.minor, groups.patch, parts⟩

end Host

/-! ## Comparison -/

namespace ModuleVersion

/-- `(left > right) - (left < right)` -/
def sign {α : Type} [LinearOrder α] (left right : α) : ℤ :=
  (if right < left then 1 else 0) - (if left < right then 1 else 0)

/-- What a turn of the loop returns for two identifiers that differ. -/
def compareDiffering : Identifier Text → Identifier Text → ℤ
  | .numeric _, .alphanumeric _ => -1
  | .alphanumeric _, .numeric _ => 1
  | .numeric first, .numeric second => if first < second then -1 else 1
  | .alphanumeric first, .alphanumeric second => if first < second then -1 else 1

/-- The loop of `_compare_identifiers` and what follows it; `lengths` is the sign of the two whole
lengths. -/
def compareFields (lengths : ℤ) : List (Identifier Text × Identifier Text) → ℤ
  | [] => lengths
  | (first, second) :: rest =>
      if first = second then compareFields lengths rest else compareDiffering first second

/-- `_compare_identifiers` -/
def compareIdentifiers (left right : List (Identifier Text)) : ℤ :=
  if left = [] ∧ right = [] then 0
  else if left = [] then 1
  else if right = [] then -1
  else compareFields (sign left.length right.length) (left.zip right)

/-- `_compare_versions` -/
def compareVersions (left right : ModuleVersion) : ℤ :=
  if left.core ≠ right.core then sign left.core right.core
  else compareIdentifiers left.prerelease right.prerelease

end ModuleVersion

/-! ## `_requires_ok` -/

/-- `>=`, `<=`, `==`, `>` and `<` in the order of the pattern. -/
inductive Operation
  | atLeast
  | atMost
  | equal
  | above
  | below
  deriving DecidableEq, Repr

namespace Operation

/-- The alternatives of the pattern. -/
def alternatives : List (Operation × Text) :=
  [(atLeast, text ">="), (atMost, text "<="), (equal, text "=="), (above, text ">"),
    (below, text "<")]

/-- `checks[operation]` -/
def check (comparison : ℤ) : Operation → Bool
  | atLeast => comparison ≥ 0
  | atMost => comparison ≤ 0
  | equal => comparison = 0
  | above => comparison > 0
  | below => comparison < 0

end Operation

namespace Host

variable (host : Host)

/-- `\s*([^\s,]+)` up to the end. -/
def matchWanted (rest : Text) : Option Text :=
  let wanted := rest.dropWhile isSpace
  if wanted ≠ [] ∧ wanted.all fun letter => !isSpace letter && letter ≠ code ',' then some wanted
  else none

/-- `re.fullmatch(r"(>=|<=|==|>|<)\s*([^\s,]+)", term)` -/
def matchTerm (term : Text) : Option (Operation × Text) :=
  Operation.alternatives.findSome? fun alternative =>
    if startsWith alternative.2 term then
      (matchWanted (term.drop alternative.2.length)).map (alternative.1, ·)
    else none

/-- The loop of `_requires_ok`. -/
def checkTerms (current : ModuleVersion) : List Text → Except ModuleError Bool
  | [] => .ok true
  | raw :: rest =>
      match matchTerm (strip raw) with
      | none => .error ⟨text "unsupported requires_framework constraint"⟩
      | some (operation, value) => do
          let wanted ← host.version value
          if operation.check (ModuleVersion.compareVersions current wanted) then
            checkTerms current rest
          else return false

/-- `_requires_ok`; `none` is a requirement that is no string. -/
def requiresOk (current : ModuleVersion) (requirement : Option Text) : Except ModuleError Bool :=
  match requirement with
  | none => .error ⟨text "requires_framework must be a non-empty constraint string"⟩
  | some requirement =>
      if strip requirement = [] then
        .error ⟨text "requires_framework must be a non-empty constraint string"⟩
      else host.checkTerms current (requirement.splitOn (code ','))

end Host

/-! ## The order -/

namespace ModuleVersion

section Sign

variable {α β : Type} [LinearOrder α] [LinearOrder β] {left right : α} {first second : β}

theorem sign_of_lt (less : left < right) : sign left right = -1 := by
  rw [sign, if_neg less.asymm, if_pos less]
  rfl

theorem sign_of_gt (greater : right < left) : sign left right = 1 := by
  rw [sign, if_pos greater, if_neg greater.asymm]
  rfl

@[simp] theorem sign_self (value : α) : sign value value = 0 := by
  rw [sign, if_neg (lt_irrefl value)]
  rfl

theorem sign_eq_neg_one : sign left right = -1 ↔ left < right := by
  rcases lt_trichotomy left right with less | rfl | greater
  · simp [sign_of_lt less, less]
  · simp
  · simp [sign_of_gt greater, greater.le]

theorem sign_eq_one : sign left right = 1 ↔ right < left := by
  rcases lt_trichotomy left right with less | rfl | greater
  · simp [sign_of_lt less, less.le]
  · simp
  · simp [sign_of_gt greater, greater]

theorem sign_eq_zero : sign left right = 0 ↔ left = right := by
  rcases lt_trichotomy left right with less | rfl | greater
  · simp [sign_of_lt less, less.ne]
  · simp
  · simp [sign_of_gt greater, greater.ne']

theorem sign_nonpos : sign left right ≤ 0 ↔ left ≤ right := by
  rcases lt_trichotomy left right with less | rfl | greater
  · simp [sign_of_lt less, less.le]
  · simp
  · simp [sign_of_gt greater, greater]

theorem sign_nonneg : sign left right ≥ 0 ↔ right ≤ left := by
  rcases lt_trichotomy left right with less | rfl | greater
  · simp [sign_of_lt less, less]
  · simp
  · simp [sign_of_gt greater, greater.le]

theorem sign_pos : sign left right > 0 ↔ right < left := by
  rw [gt_iff_lt, ← not_le, sign_nonpos, not_le]

theorem sign_neg : sign left right < 0 ↔ left < right := by
  rw [← not_le, ← ge_iff_le, sign_nonneg, not_le]

theorem sign_congr (less : left < right ↔ first < second) (greater : right < left ↔ second < first) :
    sign left right = sign first second := by
  simp only [sign, less, greater]

end Sign

/-- Less or not, of two values that differ. -/
theorem ite_eq_sign {α : Type} [LinearOrder α] {first second : α} [Decidable (first < second)]
    (differ : first ≠ second) :
    (if first < second then (-1 : ℤ) else 1) = sign first second := by
  rcases lt_or_gt_of_ne differ with less | greater
  · rw [if_pos less, sign_of_lt less]
  · rw [if_neg greater.asymm, sign_of_gt greater]

theorem compareDiffering_eq {first second : Identifier Text} (other : first ≠ second) :
    compareDiffering first second = sign first.key second.key := by
  cases first with
  | numeric first =>
      cases second with
      | numeric second =>
          have differ : first ≠ second := fun same => other (congrArg _ same)
          have places : sign first second = sign (Identifier.numeric first : Identifier Text).key
              (Identifier.numeric second).key := by
            apply sign_congr
            · exact Sum.Lex.inl_lt_inl_iff.symm
            · exact Sum.Lex.inl_lt_inl_iff.symm
          exact (ite_eq_sign differ).trans places
      | alphanumeric second =>
          have less : (Identifier.numeric first : Identifier Text).key < (Identifier.alphanumeric second).key :=
            Sum.Lex.inl_lt_inr first second
          exact (sign_of_lt less).symm
  | alphanumeric first =>
      cases second with
      | numeric second =>
          have greater : (Identifier.numeric second : Identifier Text).key < (Identifier.alphanumeric first).key :=
            Sum.Lex.inl_lt_inr second first
          exact (sign_of_gt greater).symm
      | alphanumeric second =>
          have differ : first ≠ second := fun same => other (congrArg _ same)
          have places : sign first second =
              sign (Identifier.alphanumeric first).key (Identifier.alphanumeric second).key := by
            apply sign_congr
            · exact Sum.Lex.inr_lt_inr_iff.symm
            · exact Sum.Lex.inr_lt_inr_iff.symm
          exact (ite_eq_sign differ).trans places

/-- The loop compares letter by letter, as the order of lists does. -/
theorem compareFields_eq (left right : List (Identifier Text)) :
    compareFields (sign left.length right.length) (left.zip right) =
      sign (left.map Identifier.key) (right.map Identifier.key) := by
  induction left generalizing right with
  | nil =>
      cases right with
      | nil => rfl
      | cons field rest =>
          have shorter : ([] : List (ℕ ⊕ₗ Text)) < (field :: rest).map Identifier.key :=
            List.nil_lt_cons _ _
          rw [List.map_nil, sign_of_lt shorter]
          exact sign_of_lt (Nat.succ_pos _)
  | cons first left ih =>
      cases right with
      | nil =>
          have longer : ([] : List (ℕ ⊕ₗ Text)) < (first :: left).map Identifier.key :=
            List.nil_lt_cons _ _
          rw [List.map_nil, sign_of_gt longer]
          exact sign_of_gt (Nat.succ_pos _)
      | cons second right =>
          rw [List.zip_cons_cons]
          by_cases same : first = second
          · subst same
            have lengths : sign (first :: left).length (first :: right).length =
                sign left.length right.length := by
              apply sign_congr <;> simp
            have tails : sign ((first :: left).map Identifier.key)
                ((first :: right).map Identifier.key) =
                  sign (left.map Identifier.key) (right.map Identifier.key) := by
              apply sign_congr <;> simp
            rw [compareFields, if_pos rfl, lengths, ih, tails]
          · rw [compareFields, if_neg same, compareDiffering_eq same]
            have keys : first.key ≠ second.key := fun is => same (Identifier.key_injective is)
            apply sign_congr <;> simp [List.cons_lt_cons_iff, keys, keys.symm]

theorem compareIdentifiers_eq (left right : List (Identifier Text)) :
    compareIdentifiers left right = sign (Version.place left) (Version.place right) := by
  cases left with
  | nil =>
      cases right with
      | nil => simp [compareIdentifiers]
      | cons field rest =>
          rw [sign_of_gt]
          · rfl
          · exact WithTop.coe_lt_top _
  | cons first left =>
      cases right with
      | nil =>
          rw [sign_of_lt]
          · rfl
          · exact WithTop.coe_lt_top _
      | cons second right =>
          have filled := compareFields_eq (first :: left) (second :: right)
          have places : sign (Version.place (first :: left)) (Version.place (second :: right)) =
              sign ((first :: left).map Identifier.key) ((second :: right).map Identifier.key) :=
            sign_congr WithTop.coe_lt_coe WithTop.coe_lt_coe
          rw [places, ← filled]
          rfl

/-- `_compare_versions` is the sign of the order of precedence. -/
theorem compareVersions_eq (left right : ModuleVersion) :
    compareVersions left right = sign left right := by
  have keys : sign left right = sign left.key right.key := rfl
  rw [compareVersions, keys]
  by_cases same : left.core = right.core
  · rw [if_neg (not_not.mpr same), compareIdentifiers_eq]
    apply sign_congr
    · simp [Version.key, Prod.Lex.toLex_lt_toLex, same]
    · simp [Version.key, Prod.Lex.toLex_lt_toLex, same]
  · rw [if_pos same]
    apply sign_congr
    · simp [Version.key, Prod.Lex.toLex_lt_toLex, same]
    · simp [Version.key, Prod.Lex.toLex_lt_toLex, Ne.symm same]

end ModuleVersion

/-! ## Build metadata -/

namespace Host

variable {host : Host} {value build rest : Text}

theorem spanAt_plus {keeps : CodePoint → Bool} (stops : keeps (code '+') = false)
    (rest build : Text) :
    (rest ++ code '+' :: build).takeWhile keeps = rest.takeWhile keeps ∧
      (rest ++ code '+' :: build).dropWhile keeps = rest.dropWhile keeps ++ code '+' :: build := by
  induction rest with
  | nil => simp [stops]
  | cons letter rest ih =>
      cases keep : keeps letter
      · simp [keep]
      · simp [keep, ih]

theorem scanCore_append (plus : host.decimal (code '+') = none) (value build : Text) :
    host.scanCore (value ++ code '+' :: build) =
      (host.scanCore value).map fun read => (read.1, read.2 ++ code '+' :: build) := by
  cases value with
  | nil => rfl
  | cons first rest =>
      obtain ⟨front, back⟩ := @spanAt_plus (fun letter => (host.decimal letter).isSome)
        (by rw [plus]; rfl) rest build
      rw [List.cons_append, scanCore, scanCore]
      simp only [front, back]
      split
      · rfl
      · split <;> rfl

theorem scanDot_append (value build : Text) :
    scanDot (value ++ code '+' :: build) =
      (scanDot value).map (· ++ code '+' :: build) := by
  cases value with
  | nil => rfl
  | cons first rest =>
      rw [List.cons_append, scanDot, scanDot]
      split <;> rfl

theorem scanTag_append (value build : Text) :
    scanTag (value ++ code '+' :: build) =
      ((scanTag value).1, (scanTag value).2 ++ code '+' :: build) := by
  cases value with
  | nil => rfl
  | cons first rest =>
      obtain ⟨front, back⟩ := @spanAt_plus isTagLetter rfl rest build
      rw [List.cons_append, scanTag, scanTag, front, back]
      split <;> rfl

/-- Build metadata ends a version where nothing else would follow. -/
theorem endsWithBuild_append (plain : code '+' ∉ rest) (filled : build ≠ [])
    (letters : build.all isTagLetter = true) :
    endsWithBuild (rest ++ code '+' :: build) = endsWithBuild rest := by
  cases rest with
  | nil => simp [endsWithBuild, filled, letters]
  | cons first rest =>
      have other : first ≠ code '+' := by
        rintro rfl
        exact plain List.mem_cons_self
      simp [endsWithBuild, other]

/-- The scanners leave an end of their input. -/
theorem mem_of_mem_scanCore {read : ℕ × Text} (scanned : host.scanCore value = some read)
    {letter : CodePoint} (member : letter ∈ read.2) : letter ∈ value := by
  cases value with
  | nil => cases scanned
  | cons first rest =>
      rw [scanCore] at scanned
      split at scanned
      · cases scanned
        exact List.mem_cons_of_mem first member
      · split at scanned
        · cases scanned
          exact List.mem_cons_of_mem first (List.dropWhile_subset _ member)
        · cases scanned

theorem mem_of_mem_scanDot (scanned : scanDot value = some rest) {letter : CodePoint}
    (member : letter ∈ rest) : letter ∈ value := by
  cases value with
  | nil => cases scanned
  | cons first behind =>
      rw [scanDot] at scanned
      split at scanned
      · cases scanned
        exact List.mem_cons_of_mem first member
      · cases scanned

theorem mem_of_mem_scanTag {letter : CodePoint} (member : letter ∈ (scanTag value).2) :
    letter ∈ value := by
  cases value with
  | nil => exact member
  | cons first rest =>
      rw [scanTag] at member
      split at member
      · exact List.mem_cons_of_mem first (List.dropWhile_subset _ member)
      · exact member

/-- Build metadata does not change what is matched. -/
theorem matchVersion_append (plus : host.decimal (code '+') = none) (plain : code '+' ∉ value)
    (filled : build ≠ []) (letters : build.all isTagLetter = true) :
    host.matchVersion (value ++ code '+' :: build) = host.matchVersion value := by
  rw [matchVersion, matchVersion, scanCore_append plus]
  cases first : host.scanCore value with
  | none => rfl
  | some read =>
      obtain ⟨major, afterMajor⟩ := read
      have majorPlain : code '+' ∉ afterMajor := fun member => plain (mem_of_mem_scanCore first member)
      simp only [Option.map_some, Option.bind_eq_bind, Option.bind_some, scanDot_append]
      cases dot : scanDot afterMajor with
      | none => rfl
      | some beforeMinor =>
          have minorPlain : code '+' ∉ beforeMinor :=
            fun member => majorPlain (mem_of_mem_scanDot dot member)
          simp only [Option.map_some, Option.bind_some, scanCore_append plus]
          cases second : host.scanCore beforeMinor with
          | none => rfl
          | some read =>
              obtain ⟨minor, afterMinor⟩ := read
              have afterPlain : code '+' ∉ afterMinor :=
                fun member => minorPlain (mem_of_mem_scanCore second member)
              simp only [Option.map_some, Option.bind_some, scanDot_append]
              cases dot : scanDot afterMinor with
              | none => rfl
              | some beforePatch =>
                  have patchPlain : code '+' ∉ beforePatch :=
                    fun member => afterPlain (mem_of_mem_scanDot dot member)
                  simp only [Option.map_some, Option.bind_some, scanCore_append plus]
                  cases third : host.scanCore beforePatch with
                  | none => rfl
                  | some read =>
                      have tagPlain : code '+' ∉ (scanTag read.2).2 := fun member =>
                        patchPlain (mem_of_mem_scanCore third (mem_of_mem_scanTag member))
                      simp only [Option.map_some, Option.bind_some, scanTag_append]
                      rw [endsWithBuild_append tagPlain filled letters]

theorem isSpace_of_isTagLetter {letter : CodePoint} (tag : isTagLetter letter = true) :
    isSpace letter = false := by
  have dot : (code '.').val = 46 := rfl
  have hyphen : (code '-').val = 45 := rfl
  simp only [isTagLetter, Bool.or_eq_true, Bool.and_eq_true, decide_eq_true_eq, Fin.ext_iff, dot,
    hyphen] at tag
  simp only [isSpace, Bool.or_eq_false_iff, Bool.and_eq_false_iff, decide_eq_false_iff_not]
  omega

theorem version_append (plus : host.decimal (code '+') = none) {read : ModuleVersion}
    (accepted : host.version value = .ok read) (plain : code '+' ∉ value) (filled : build ≠ [])
    (letters : build.all isTagLetter = true) :
    host.version (strip value ++ code '+' :: build) = .ok read := by
  have stripped : strip (strip value ++ code '+' :: build) = strip value ++ code '+' :: build := by
    apply strip_of_ends
    · intro letter first
      cases front : (strip value).head? with
      | none =>
          rw [List.head?_append, front] at first
          cases first
          rfl
      | some start =>
          rw [List.head?_append, front] at first
          cases first
          exact isSpace_of_head_strip front
    · intro letter last
      rw [List.getLast?_append, List.getLast?_cons] at last
      cases last
      rw [List.getLast?_eq_getLast_of_ne_nil filled, Option.getD_some]
      exact isSpace_of_isTagLetter (List.all_eq_true.mp letters _ (List.getLast_mem filled))
  have inside : code '+' ∉ strip value := fun member => plain (mem_of_mem_strip member)
  rw [version, stripped, matchVersion_append plus inside filled letters]
  exact accepted

end Host

/-! ## Constraints -/

/-- What an operation asks of two versions. -/
def Operation.Holds (current wanted : ModuleVersion) : Operation → Prop
  | atLeast => ¬Version.Precedes current wanted
  | atMost => ¬Version.Precedes wanted current
  | equal => current = wanted
  | above => Version.Precedes wanted current
  | below => Version.Precedes current wanted

/-- How an operation is written. -/
def Operation.symbol : Operation → Text
  | atLeast => text ">="
  | atMost => text "<="
  | equal => text "=="
  | above => text ">"
  | below => text "<"

/-- White space and nothing else. -/
def Blank (string : Text) : Prop := ∀ letter ∈ string, isSpace letter = true

theorem Operation.check_iff {operation : Operation} {current wanted : ModuleVersion} :
    operation.check (ModuleVersion.compareVersions current wanted) = true ↔
      operation.Holds current wanted := by
  rw [ModuleVersion.compareVersions_eq]
  cases operation <;>
    simp only [check, Holds, ← Version.lt_iff_precedes, decide_eq_true_eq, not_lt]
  · exact ModuleVersion.sign_nonneg
  · exact ModuleVersion.sign_nonpos
  · exact ModuleVersion.sign_eq_zero
  · exact ModuleVersion.sign_pos
  · exact ModuleVersion.sign_neg

namespace Host

variable {host : Host}

/-- A term of a requirement as it is written: an operation and a version text, with blanks around
them. -/
structure Constraint (host : Host) (term : Text) (operation : Operation) (wanted : ModuleVersion) :
    Prop where
  written : ∃ before between value after,
    term = before ++ (operation.symbol ++ between ++ value) ++ after ∧
    Blank before ∧ Blank between ∧ Blank after ∧
    (∀ letter ∈ value, isSpace letter = false ∧ letter ≠ code ',') ∧
    host.version value = .ok wanted

/-- A constraint that a version meets. -/
def Meets (host : Host) (current : ModuleVersion) (term : Text) : Prop :=
  ∃ operation wanted, Constraint host term operation wanted ∧ operation.Holds current wanted

/-- A constraint that a version does not meet. -/
def Misses (host : Host) (current : ModuleVersion) (term : Text) : Prop :=
  ∃ operation wanted, Constraint host term operation wanted ∧ ¬operation.Holds current wanted

/-- A term that is no constraint. -/
def Malformed (host : Host) (term : Text) : Prop :=
  ∀ operation wanted, ¬Constraint host term operation wanted

variable {current wanted : ModuleVersion} {operation : Operation} {term value rest : Text}
  {terms : List Text}

/-- The white space at the ends of a text. -/
theorem exists_strip (string : Text) :
    ∃ before after, string = before ++ strip string ++ after ∧ Blank before ∧ Blank after := by
  have front := List.takeWhile_append_dropWhile (p := isSpace) (l := string)
  have back := List.takeWhile_append_dropWhile (p := isSpace)
    (l := (string.dropWhile isSpace).reverse)
  have middle := congrArg List.reverse back
  rw [List.reverse_append, List.reverse_reverse] at middle
  refine ⟨string.takeWhile isSpace,
    ((string.dropWhile isSpace).reverse.takeWhile isSpace).reverse, ?_, ?_, ?_⟩
  · rw [List.append_assoc, strip, middle, front]
  · exact fun letter member => List.mem_takeWhile_imp member
  · exact fun letter member => List.mem_takeWhile_imp (List.mem_reverse.mp member)

theorem dropWhile_blank {blank ink : Text} (blank_ : Blank blank)
    (front : ∀ letter ∈ ink.head?, isSpace letter = false) :
    (blank ++ ink).dropWhile isSpace = ink := by
  rw [List.dropWhile_append_of_pos blank_, dropWhile_isSpace_of_head? front]

theorem strip_blanks {before ink after : Text} (before_ : Blank before) (after_ : Blank after)
    (front : ∀ letter ∈ ink.head?, isSpace letter = false)
    (back : ∀ letter ∈ ink.getLast?, isSpace letter = false) :
    strip (before ++ ink ++ after) = ink := by
  cases ink with
  | nil =>
      rw [strip_eq_nil, List.append_nil]
      exact fun letter member => (List.mem_append.mp member).elim (before_ letter) (after_ letter)
  | cons first ink =>
      unfold strip
      rw [List.append_assoc, dropWhile_blank before_ (by simpa using front), List.reverse_append,
        dropWhile_blank, List.reverse_reverse]
      · exact fun letter member => after_ letter (List.mem_reverse.mp member)
      · rwa [List.head?_reverse]

/-- A version text starts with a digit. -/
theorem digit_of_version (plain : ∀ letter ∈ value, isSpace letter = false)
    (read : host.version value = .ok wanted) :
    ∃ first rest, value = first :: rest ∧ 48 ≤ first.val ∧ first.val ≤ 57 := by
  have stripped : strip value = value := by
    apply strip_of_ends
    · exact fun letter first => plain letter (List.mem_of_mem_head? first)
    · exact fun letter last => plain letter (List.mem_of_mem_getLast? last)
  rw [version, stripped] at read
  cases value with
  | nil => cases read
  | cons first rest =>
      refine ⟨first, rest, rfl, ?_⟩
      by_contra other
      have zero : (code '0').val = 48 := rfl
      have noZero : first ≠ code '0' := by
        intro same
        rw [same, zero] at other
        omega
      have noMatch : host.matchVersion (first :: rest) = none := by
        rw [matchVersion, scanCore, if_neg noZero, if_neg (by omega)]
        rfl
      rw [noMatch] at read
      cases read

/-- A version behind blanks and an operation does not make the operation longer. -/
theorem matchTerm_written {between : Text} (blank : Blank between)
    (plain : ∀ letter ∈ value, isSpace letter = false ∧ letter ≠ code ',')
    (read : host.version value = .ok wanted) :
    matchTerm (operation.symbol ++ between ++ value) = some (operation, value) := by
  obtain ⟨first, rest, rfl, low, high⟩ := digit_of_version (fun letter member => (plain letter member).1)
    read
  have wantedIs : matchWanted (between ++ first :: rest) = some (first :: rest) := by
    rw [matchWanted, dropWhile_blank blank (by simpa using (plain first List.mem_cons_self).1)]
    exact if_pos ⟨List.cons_ne_nil _ _, by simpa using plain⟩
  have noSign : startsWith (text "=") (between ++ first :: rest) = false := by
    cases between with
    | nil =>
        have other : (code '=' == first) = false := by
          rw [beq_eq_false_iff_ne]
          rintro rfl
          exact absurd high (by decide)
        exact (congrArg (· && _) other).trans rfl
    | cons letter between =>
        have other : (code '=' == letter) = false := by
          rw [beq_eq_false_iff_ne]
          rintro rfl
          cases blank _ List.mem_cons_self
        exact (congrArg (· && _) other).trans rfl
  rw [List.append_assoc, matchTerm]
  generalize between ++ first :: rest = behind at wantedIs noSign
  have longer (sign : CodePoint) : startsWith [sign, code '='] (sign :: behind) = false := by
    rw [startsWith, List.isPrefixOf_cons_cons, beq_self_eq_true, Bool.true_and]
    exact noSign
  have apart {sign other : CodePoint} (differ : (sign == other) = false) (tail behind : Text) :
      startsWith (sign :: tail) (other :: behind) = false := by
    rw [startsWith, List.isPrefixOf_cons_cons, differ, Bool.false_and]
  have self (sign : Text) : startsWith sign (sign ++ behind) = true := by
    rw [startsWith, List.isPrefixOf_iff_prefix]
    exact List.prefix_append _ _
  cases operation with
  | atLeast => simp [Operation.alternatives, Operation.symbol, self, wantedIs]
  | atMost =>
      have first : startsWith (text ">=") (text "<=" ++ behind) = false := apart (by decide) _ _
      simp [Operation.alternatives, Operation.symbol, self, wantedIs, first]
  | equal =>
      have first : startsWith (text ">=") (text "==" ++ behind) = false := apart (by decide) _ _
      have second : startsWith (text "<=") (text "==" ++ behind) = false := apart (by decide) _ _
      simp [Operation.alternatives, Operation.symbol, self, wantedIs, first, second]
  | above =>
      have first : startsWith (text ">=") (text ">" ++ behind) = false := longer _
      have second : startsWith (text "<=") (text ">" ++ behind) = false := apart (by decide) _ _
      have third : startsWith (text "==") (text ">" ++ behind) = false := apart (by decide) _ _
      simp [Operation.alternatives, Operation.symbol, self, wantedIs, first, second, third]
  | below =>
      have first : startsWith (text ">=") (text "<" ++ behind) = false := apart (by decide) _ _
      have second : startsWith (text "<=") (text "<" ++ behind) = false := longer _
      have third : startsWith (text "==") (text "<" ++ behind) = false := apart (by decide) _ _
      have fourth : startsWith (text ">") (text "<" ++ behind) = false := apart (by decide) _ _
      simp [Operation.alternatives, Operation.symbol, self, wantedIs, first, second, third, fourth]

theorem matchWanted_eq_some (found : matchWanted rest = some value) :
    ∃ between, rest = between ++ value ∧ Blank between ∧
      ∀ letter ∈ value, isSpace letter = false ∧ letter ≠ code ',' := by
  rw [matchWanted] at found
  split at found
  · next plain =>
      cases found
      exact ⟨rest.takeWhile isSpace, List.takeWhile_append_dropWhile.symm,
        fun letter member => List.mem_takeWhile_imp member, by simpa using plain.2⟩
  · cases found

theorem matchTerm_eq_some (found : matchTerm term = some (operation, value)) :
    ∃ rest, term = operation.symbol ++ rest ∧ matchWanted rest = some value := by
  rw [matchTerm] at found
  obtain ⟨⟨other, sign⟩, member, found⟩ := List.exists_of_findSome?_eq_some found
  split at found
  · next starts =>
      obtain ⟨rest, rfl⟩ := List.isPrefixOf_iff_prefix.mp starts
      rw [List.drop_left, Option.map_eq_some_iff] at found
      obtain ⟨_, wanted, is⟩ := found
      cases is
      refine ⟨rest, ?_, wanted⟩
      simp only [Operation.alternatives, List.mem_cons, List.not_mem_nil, or_false,
        Prod.mk.injEq] at member
      rcases member with ⟨rfl, rfl⟩ | ⟨rfl, rfl⟩ | ⟨rfl, rfl⟩ | ⟨rfl, rfl⟩ | ⟨rfl, rfl⟩ <;> rfl
  · cases found

/-- What the pattern finds in a term is how the term is written. -/
theorem constraint_iff : Constraint host term operation wanted ↔
    ∃ value, matchTerm (strip term) = some (operation, value) ∧
      host.version value = .ok wanted := by
  constructor
  · rintro ⟨before, between, value, after, rfl, before_, between_, after_, plain, read⟩
    refine ⟨value, ?_, read⟩
    obtain ⟨first, rest, rfl, _⟩ := digit_of_version (fun letter member => (plain letter member).1) read
    rw [strip_blanks before_ after_]
    · exact matchTerm_written between_ plain read
    · intro letter head
      have sign : letter ∈ operation.symbol.head? := by
        cases operation <;> exact head
      cases operation <;> cases sign <;> rfl
    · intro letter last
      rw [List.getLast?_append_cons] at last
      exact (plain letter (List.mem_of_mem_getLast? last)).1
  · rintro ⟨value, matched, read⟩
    obtain ⟨rest, stripped, found⟩ := matchTerm_eq_some matched
    obtain ⟨between, rfl, between_, plain⟩ := matchWanted_eq_some found
    obtain ⟨before, after, whole, before_, after_⟩ := exists_strip term
    rw [stripped, ← List.append_assoc operation.symbol] at whole
    exact ⟨before, between, value, after, whole, before_, between_, after_, plain, read⟩

/-- A term holds, is missed or is malformed. -/
theorem checkTerms_cons (raw : Text) (rest : List Text) :
    (host.Meets current raw → host.checkTerms current (raw :: rest) = host.checkTerms current rest) ∧
      (host.Misses current raw → host.checkTerms current (raw :: rest) = .ok false) ∧
      (host.Malformed raw → ∃ fault, host.checkTerms current (raw :: rest) = .error fault) := by
  refine ⟨?_, ?_, ?_⟩
  · rintro ⟨operation, wanted, written, holds⟩
    obtain ⟨value, matched, read⟩ := constraint_iff.mp written
    rw [checkTerms, matched]
    simp only [read, ok_bind]
    exact if_pos (Operation.check_iff.mpr holds)
  · rintro ⟨operation, wanted, written, fails⟩
    obtain ⟨value, matched, read⟩ := constraint_iff.mp written
    rw [checkTerms, matched]
    simp only [read, ok_bind]
    exact if_neg fun holds => fails (Operation.check_iff.mp holds)
  · intro malformed
    rw [checkTerms]
    cases matched : matchTerm (strip raw) with
    | none => exact ⟨_, rfl⟩
    | some found =>
        obtain ⟨operation, value⟩ := found
        cases read : host.version value with
        | error fault => exact ⟨fault, by simp only [read]; rfl⟩
        | ok wanted =>
            exact absurd (constraint_iff.mpr ⟨value, matched, read⟩) (malformed operation wanted)

theorem meets_or_misses_or_malformed (current : ModuleVersion) (term : Text) :
    host.Meets current term ∨ host.Misses current term ∨ host.Malformed term := by
  by_cases malformed : host.Malformed term
  · exact Or.inr (Or.inr malformed)
  · unfold Malformed at malformed
    push Not at malformed
    obtain ⟨operation, wanted, read⟩ := malformed
    by_cases holds : operation.Holds current wanted
    · exact Or.inl ⟨operation, wanted, read, holds⟩
    · exact Or.inr (Or.inl ⟨operation, wanted, read, holds⟩)

/-- Terms that hold are passed over. -/
theorem checkTerms_append {before : List Text} (meets : ∀ term ∈ before, host.Meets current term)
    (rest : List Text) : host.checkTerms current (before ++ rest) = host.checkTerms current rest := by
  induction before with
  | nil => rfl
  | cons first before ih =>
      obtain ⟨firstMeets, restMeets⟩ := List.forall_mem_cons.mp meets
      rw [List.cons_append, (checkTerms_cons first _).1 firstMeets, ih restMeets]

/-- All terms hold, or there is a first one that does not. -/
theorem meets_or_first (current : ModuleVersion) (terms : List Text) :
    (∀ term ∈ terms, host.Meets current term) ∨
      ∃ before term after, terms = before ++ term :: after ∧
        (∀ term ∈ before, host.Meets current term) ∧
        (host.Misses current term ∨ host.Malformed term) := by
  induction terms with
  | nil => exact Or.inl (by simp)
  | cons first rest ih =>
      rcases @meets_or_misses_or_malformed host current first with meets | other
      · rcases ih with all | ⟨before, term, after, rfl, passed, other⟩
        · exact Or.inl (List.forall_mem_cons.mpr ⟨meets, all⟩)
        · exact Or.inr ⟨first :: before, term, after, rfl,
            List.forall_mem_cons.mpr ⟨meets, passed⟩, other⟩
      · exact Or.inr ⟨[], first, rest, rfl, by simp, other⟩

theorem checkTerms_eq_true :
    host.checkTerms current terms = .ok true ↔ ∀ term ∈ terms, host.Meets current term := by
  constructor
  · intro checked
    rcases @meets_or_first host current terms with all | ⟨before, term, after, rfl, passed, other⟩
    · exact all
    · rw [checkTerms_append passed] at checked
      rcases other with misses | malformed
      · rw [(checkTerms_cons term after).2.1 misses] at checked
        cases checked
      · obtain ⟨fault, raised⟩ := (@checkTerms_cons host current term after).2.2 malformed
        rw [raised] at checked
        cases checked
  · intro all
    have passed := @checkTerms_append host current terms all []
    rw [List.append_nil] at passed
    exact passed

theorem checkTerms_eq_false :
    host.checkTerms current terms = .ok false ↔
      ∃ before term after, terms = before ++ term :: after ∧
        (∀ term ∈ before, host.Meets current term) ∧ host.Misses current term := by
  constructor
  · intro checked
    rcases @meets_or_first host current terms with all | ⟨before, term, after, rfl, passed, other⟩
    · rw [checkTerms_eq_true.mpr all] at checked
      cases checked
    · refine ⟨before, term, after, rfl, passed, other.resolve_right fun malformed => ?_⟩
      obtain ⟨fault, raised⟩ := (@checkTerms_cons host current term after).2.2 malformed
      rw [checkTerms_append passed, raised] at checked
      cases checked
  · rintro ⟨before, term, after, rfl, passed, misses⟩
    rw [checkTerms_append passed, (checkTerms_cons term after).2.1 misses]

theorem checkTerms_eq_error :
    (∃ fault, host.checkTerms current terms = .error fault) ↔
      ∃ before term after, terms = before ++ term :: after ∧
        (∀ term ∈ before, host.Meets current term) ∧ host.Malformed term := by
  constructor
  · rintro ⟨fault, checked⟩
    rcases @meets_or_first host current terms with all | ⟨before, term, after, rfl, passed, other⟩
    · rw [checkTerms_eq_true.mpr all] at checked
      cases checked
    · refine ⟨before, term, after, rfl, passed, other.resolve_left fun misses => ?_⟩
      rw [checkTerms_append passed, (checkTerms_cons term after).2.1 misses] at checked
      cases checked
  · rintro ⟨before, term, after, rfl, passed, malformed⟩
    rw [checkTerms_append passed]
    exact (checkTerms_cons term after).2.2 malformed

/-- A blank requirement is a malformed term. -/
theorem checkTerms_of_blank {requirement : Text} (blank : strip requirement = []) :
    ∃ fault, host.checkTerms current (requirement.splitOn (code ',')) = .error fault := by
  have noComma : code ',' ∉ requirement := by
    intro member
    have space := strip_eq_nil.mp blank _ member
    cases space
  rw [List.splitOn_eq_singleton noComma, checkTerms, blank]
  exact ⟨_, rfl⟩

theorem requiresOk_eq_ok {requirement : Text} {answer : Bool} :
    host.requiresOk current (some requirement) = .ok answer ↔
      host.checkTerms current (requirement.splitOn (code ',')) = .ok answer := by
  rw [requiresOk]
  split
  · next blank =>
      obtain ⟨fault, raised⟩ := @checkTerms_of_blank host current requirement blank
      rw [raised]
      simp
  · rfl

theorem requiresOk_eq_error {requirement : Text} :
    (∃ fault, host.requiresOk current (some requirement) = .error fault) ↔
      ∃ fault, host.checkTerms current (requirement.splitOn (code ',')) = .error fault := by
  rw [requiresOk]
  split
  · next blank => exact iff_of_true ⟨_, rfl⟩ (checkTerms_of_blank blank)
  · rfl

theorem splitOn_of_joined {string : Text} {terms : List Text} (some_ : terms ≠ [])
    (joined : string = [code ','].intercalate terms) (plain : ∀ term ∈ terms, code ',' ∉ term) :
    string.splitOn (code ',') = terms := by
  rw [joined]
  exact List.splitOn_intercalate _ plain some_

end Host

end CarbonLab.Aegis
