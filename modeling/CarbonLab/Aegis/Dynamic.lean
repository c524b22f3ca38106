import CarbonLab.Aegis.Host

/-!
# Python on JSON values

What the validators do with values whose type they do not know yet: `get` of something
that may be no dictionary, membership in a set, iteration, and checks of every item that
stop at the first one that fails.
-/

namespace CarbonLab.Aegis

/-- `raise AssuranceError(message)` -/
def assuranceError (message : Text) : Raised := ⟨.assuranceError, message⟩

/-- `raise TransitionError(message)` -/
def transitionError (message : Text) : Raised := ⟨.transitionError, message⟩

/-- A call of `get` on something that is no dictionary. -/
def noGet : Raised := ⟨.attributeError, "object has no attribute 'get'"⟩

/-- `value.get(key, default)`, whatever the value is. -/
def fetchD (value : Json) (key : Text) (default : Json) : Except Raised Json :=
  match value with
  | .obj _ => .ok (value.getD key default)
  | _ => .error noGet

/-- `value.get(key)`, whatever the value is. -/
def fetch (value : Json) (key : Text) : Except Raised Json := fetchD value key .null

/-- `value[key]` with a string for a key. -/
def item (value : Json) (key : Text) : Except Raised Json :=
  match value.get? key with
  | some found => .ok found
  | none => .error ⟨if value.obj?.isSome then .keyError else .typeError, key⟩

/-- `value.setdefault(key, default)` -/
def setDefault (value : Json) (key : Text) (default : Json) : Json :=
  if (value.get? key).isSome then value else value.set key default

/-- The names in a list, with commas. -/
def commas : List Text → Text
  | [] => []
  | [name] => name
  | name :: names => name ++ text ", " ++ commas names

/-- `hash(value)` -/
def hash : Json → Except Raised Unit
  | .arr _ => .error ⟨.typeError, "unhashable type: 'list'"⟩
  | .obj _ => .error ⟨.typeError, "unhashable type: 'dict'"⟩
  | _ => .ok ()

/-- `value in names` for a set of strings. -/
def inSet (value : Json) (names : List Text) : Except Raised Bool :=
  match value with
  | .str name => .ok (name ∈ names)
  | .arr _ => .error ⟨.typeError, "unhashable type: 'list'"⟩
  | .obj _ => .error ⟨.typeError, "unhashable type: 'dict'"⟩
  | _ => .ok false

/-- `value in numbers` for a set of integers. -/
def inNumbers (value : Json) (numbers : List ℤ) : Except Raised Bool := do
  hash value
  return numbers.any fun number => value.equal (.int number)

/-- `value in items` for a list. -/
def inList (value : Json) (items : List Json) : Bool := items.any (Json.Alike · value)

/-- Values of which no two are members of a set. -/
def allDistinct : List Json → Bool
  | [] => true
  | value :: values => !inList value values && allDistinct values

/-- `len(values) == len(set(values))` -/
def distinct (values : List Json) : Except Raised Bool := do
  values.forM hash
  return allDistinct values

/-- `for item in value` -/
def iterate : Json → Except Raised (List Json)
  | .arr items => .ok items
  | .obj fields => .ok (fields.map fun field => .str field.1)
  | .str string => .ok (string.map fun letter => .str [letter])
  | _ => .error ⟨.typeError, "object is not iterable"⟩

/-- `all(check(item) for item in items)` -/
def every {α : Type} (check : α → Except Raised Bool) : List α → Except Raised Bool
  | [] => .ok true
  | item :: items => do
      if ← check item then every check items else return false

/-- `any(check(item) for item in items)` -/
def some_ {α : Type} (check : α → Except Raised Bool) : List α → Except Raised Bool
  | [] => .ok false
  | item :: items => do
      if ← check item then return true else some_ check items

/-- `isinstance(value, str) and value.strip()` -/
def isText (value : Json) : Bool := value.str?.any (strip · ≠ [])

/-- `isinstance(value, int) and not isinstance(value, bool) and value >= bound` -/
def isAtLeast (bound : ℤ) (value : Json) : Bool := value.plainInt?.any (bound ≤ ·)

/-- The lower case hexadecimal digits. -/
def isHexDigit (letter : CodePoint) : Bool := letter ∈ text "0123456789abcdef"

/-- `SHA256_RE.fullmatch(value)` of a string. -/
def isSha256 (value : Json) : Bool :=
  value.str?.any fun string => string.length = 64 && string.all isHexDigit

/-- `[a-z0-9]` -/
def isLowerAlnum (letter : CodePoint) : Bool :=
  (48 ≤ letter.val && letter.val ≤ 57) || (97 ≤ letter.val && letter.val ≤ 122)

/-- `[A-Za-z0-9]` -/
def isAlnum (letter : CodePoint) : Bool :=
  isLowerAlnum letter || (65 ≤ letter.val && letter.val ≤ 90)

/-- `^[A-Za-z0-9][A-Za-z0-9_.-]{0,63}$` -/
def isRecordId (string : Text) : Bool :=
  match string with
  | [] => false
  | first :: rest => isAlnum first && rest.length ≤ 63 &&
      rest.all fun letter => isAlnum letter || letter ∈ text "_.-"

/-- `^[a-z0-9](?:[a-z0-9X]{0,62}[a-z0-9])?$`, with further characters X inside. -/
def isCanonicalName (inside string : Text) : Bool :=
  match string with
  | [] => false
  | first :: rest => isLowerAlnum first && rest.length ≤ 63 &&
      rest.all (fun letter => isLowerAlnum letter || letter ∈ inside) &&
      rest.getLast?.all isLowerAlnum

section

variable {value : Json} {key : Text}

@[simp] theorem fetch_obj {fields : List (Text × Json)} :
    fetch (.obj fields) key = .ok (Json.get (.obj fields) key) := rfl

theorem fetch_eq_ok {found : Json} :
    fetch value key = .ok found ↔ value.obj?.isSome ∧ value.get key = found := by
  cases value with
  | obj fields => simp [Json.obj?]
  | _ => simp [fetch, fetchD, Json.obj?]

theorem fetchD_eq_ok {found default : Json} :
    fetchD value key default = .ok found ↔ value.obj?.isSome ∧ value.getD key default = found := by
  cases value with
  | obj fields => simp [fetchD, Json.obj?]
  | _ => simp [fetchD, Json.obj?]

theorem item_eq_ok {found : Json} : item value key = .ok found ↔ value.get? key = some found := by
  rw [item]
  split
  · next is => simp [is]
  · next is => simp [is]

theorem inSet_eq_true {names : List Text} :
    inSet value names = .ok true ↔ ∃ name ∈ names, value = .str name := by
  cases value with
  | str name => simp [inSet]
  | _ => simp [inSet]

/-- A check of every item that did not raise and did not fail held for all of them. -/
theorem every_eq_true {α : Type} {check : α → Except Raised Bool} {items : List α} :
    every check items = .ok true ↔ ∀ item ∈ items, check item = .ok true := by
  induction items with
  | nil => simp [every]
  | cons first items ih =>
      rw [every, bind_eq_ok, List.forall_mem_cons]
      constructor
      · rintro ⟨_ | _, here, rest⟩
        · cases rest
        · exact ⟨here, ih.mp rest⟩
      · rintro ⟨here, rest⟩
        exact ⟨true, here, ih.mpr rest⟩

/-- A check that raises for an item that fails held for all of them. -/
theorem forM_eq_ok {α : Type} {check : α → Except Raised Unit} {items : List α} {done : Unit} :
    items.forM check = .ok done ↔ ∀ item ∈ items, check item = .ok () := by
  induction items with
  | nil => simp [pure, Except.pure]
  | cons first items ih =>
      change (check first >>= fun _ => items.forM check) = .ok done ↔ _
      rw [bind_eq_ok, List.forall_mem_cons, ← ih]
      constructor
      · rintro ⟨_, here, rest⟩
        exact ⟨here, rest⟩
      · rintro ⟨here, rest⟩
        exact ⟨_, here, rest⟩

theorem allDistinct_iff {values : List Json} :
    allDistinct values = true ↔
      values.Pairwise fun first second => ¬ second.Alike first := by
  induction values with
  | nil => simp [allDistinct]
  | cons value values ih =>
      rw [allDistinct, Bool.and_eq_true, ih, List.pairwise_cons, inList, Bool.not_eq_true',
        List.any_eq_false]
      simp only [decide_eq_true_eq]

theorem isText_iff : isText value = true ↔ ∃ string, value = .str string ∧ strip string ≠ [] := by
  cases value with
  | str string => simp [isText, Json.str?]
  | _ => simp [isText, Json.str?]

theorem isAtLeast_iff {bound : ℤ} :
    isAtLeast bound value = true ↔ ∃ number, value = .int number ∧ bound ≤ number := by
  cases value with
  | int number => simp [isAtLeast, Json.plainInt?]
  | _ => simp [isAtLeast, Json.plainInt?]

end

end CarbonLab.Aegis
