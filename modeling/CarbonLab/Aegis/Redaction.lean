import CarbonLab.Aegis.Host
import CarbonLab.Lib.Regex

/-!
# Redaction

`redact_text` and `redact_mapping` of `security.py` and `_redact` of `evidence.py`, on
the values that callers pass and `json.dumps` accepts.
-/

namespace CarbonLab.Aegis

/-! ## Values of callers -/

/-- A dictionary key that `json.dumps` accepts. -/
inductive Key
  | str (value : Text)
  | int (value : ℤ)
  | float (bits : BitVec 64)
  | bool (value : Bool)
  | none
  deriving DecidableEq, Repr

/-- A value that `json.dumps` accepts; a dictionary in the order of its insertions. -/
inductive Value
  | null
  | bool (value : Bool)
  | int (value : ℤ)
  | float (bits : BitVec 64)
  | str (value : Text)
  | list (items : List Value)
  | tuple (items : List Value)
  | dict (fields : List (Key × Value))
  deriving Repr

/-- The number that a key is. -/
def Key.number? : Key → Option Numeral
  | .int value => some (.finite value)
  | .float bits => some (doubleValue bits)
  | .bool value => some (.finite (if value then 1 else 0))
  | _ => Option.none

/-- `left < right` of numbers. -/
def numberLess : Numeral → Numeral → Bool
  | .finite left, .finite right => left < right
  | .infinite left, .infinite right => left && !right
  | .infinite left, .finite _ => left
  | .finite _, .infinite right => !right
  | _, _ => false

/-- `left < right` of keys, which raises for keys of different types. -/
def Key.less : Key → Key → Option Bool
  | .str left, .str right => some (left < right)
  | left, right =>
      match left.number?, right.number? with
      | some left, some right => some (numberLess left right)
      | _, _ => Option.none

namespace Host

variable (host : Host)

/-- A key in JSON text. -/
def keyText : Key → Text
  | .str value => value
  | .int value => intText value
  | .float bits => floatText host.floats bits
  | .bool value => if value then "true" else "false"
  | .none => "null"

/-- `str(key)` -/
def keyString : Key → Text
  | .str value => value
  | .int value => intText value
  | .float bits =>
      match doubleValue bits with
      | .finite _ => floatText host.floats bits
      | .infinite negative => if negative then "-inf" else "inf"
      | .nan => "nan"
  | .bool value => if value then "True" else "False"
  | .none => "None"

mutual

/-- What `json.dumps(value, sort_keys=True)` prints. -/
def json : Value → Option Json
  | .null => some .null
  | .bool value => some (.bool value)
  | .int value => some (.int value)
  | .float bits => some (.float bits)
  | .str value => some (.str value)
  | .list items => (jsonItems items).map .arr
  | .tuple items => (jsonItems items).map .arr
  | .dict fields => do
      -- Sorting compares every key with another one, unless there is only one.
      let comparable := fields.all fun left => fields.all fun right =>
        fields.length ≤ 1 || (left.1.less right.1).isSome
      let fields ← if comparable then jsonFields fields else none
      let sorted := fields.mergeSort fun left right => right.1.less left.1 != some true
      return .obj (sorted.map fun field => (host.keyText field.1, field.2))

/-- The items of a list. -/
def jsonItems : List Value → Option (List Json)
  | [] => some []
  | item :: items => do return (← json item) :: (← jsonItems items)

/-- The fields of a dictionary, in their order. -/
def jsonFields : List (Key × Value) → Option (List (Key × Json))
  | [] => some []
  | (key, value) :: fields => do return (key, ← json value) :: (← jsonFields fields)

end

/-! ## Patterns of secrets -/

/-- A letter of a pattern, in either case. -/
def letter (small : Char) : Pattern :=
  .one fun point =>
    point = code small || point = code small.toUpper ||
      -- Python folds these to the letters they resemble.
      (small = 'i' && (point.val = 0x130 || point.val = 0x131)) ||
      (small = 'k' && point.val = 0x212a) || (small = 's' && point.val = 0x17f)

/-- A word of a pattern, in either case. -/
def word (first : Char) (rest : String) : Pattern :=
  .seq (letter first) (Pattern.all (rest.toList.dropLast.map letter) (letter rest.back))

/-- `\w` -/
def isWord (point : CodePoint) : Bool := host.alphanumeric point || point = code '_'

/-- `[_-]?` -/
def hyphen : Pattern := .optional (.one fun point => point = code '_' || point = code '-')

/-- The names of secrets in texts. -/
def secretWords : Pattern :=
  Pattern.any [.seq (word 'a' "pi") (.seq hyphen (word 'k' "ey")), word 't' "oken",
    word 's' "ecret", word 'p' "assword"] (word 'p' "asswd")

/-- The first of `SECRET_VALUE_PATTERNS`, up to the value. -/
def assignment : Pattern :=
  Pattern.all [.edge host.isWord, secretWords, .edge host.isWord, .many isSpace,
    .one fun point => point = code ':' || point = code '='] (.many isSpace)

/-- The value of the first of `SECRET_VALUE_PATTERNS`. -/
def assigned : Pattern :=
  let inside := fun point => !isSpace point && point ≠ code ',' && point ≠ code ';'
  .seq (.one inside) (.many inside)

/-- The characters of `[A-Za-z0-9_-]`. -/
def isTokenLetter (point : CodePoint) : Bool :=
  (code 'A' ≤ point && point ≤ code 'Z') || (code 'a' ≤ point && point ≤ code 'z') ||
    (code '0' ≤ point && point ≤ code '9') || point = code '_' || point = code '-'

/-- Exactly these characters. -/
def exactly (first : Char) (rest : String) : Pattern :=
  Pattern.all ((first :: rest.toList.dropLast).map fun letter => .one (· = code letter))
    (.one (· = code rest.back))

/-- The second of `SECRET_VALUE_PATTERNS`. -/
def apiToken : Pattern :=
  Pattern.all ([.edge host.isWord, exactly 's' "k-"] ++
    List.replicate 12 (.one isTokenLetter) ++ [.many isTokenLetter]) (.edge host.isWord)

/-- The third of `SECRET_VALUE_PATTERNS`. -/
def privateKey : Pattern :=
  let name := fun point => (code 'A' ≤ point && point ≤ code 'Z') || point = code ' '
  Pattern.all [exactly '-' "----BEGIN ", .many name, exactly 'P' "RIVATE KEY-----",
    .few fun _ => true, exactly '-' "----END ", .many name] (exactly 'P' "RIVATE KEY-----")

/-- What stands for a secret. -/
def redacted : Text := "[REDACTED]"

/-- A match of the first pattern: the name stays. -/
def rewriteAssignment (before : Option CodePoint) (input : Text) :
    Option (Text × Option CodePoint × Text) :=
  host.assignment.match_ (fun middle value =>
    assigned.match_ (fun last rest =>
      some (input.take (input.length - value.length) ++ redacted, last, rest)) middle value)
    before input

/-- A match of a pattern without groups. -/
def rewriteWhole (pattern : Pattern) (before : Option CodePoint) (input : Text) :
    Option (Text × Option CodePoint × Text) :=
  pattern.match_ (fun last rest => some (redacted, last, rest)) before input

/-- `redact_text` -/
def redactText (value : Text) : Text :=
  let value := substitute host.rewriteAssignment (value.length + 1) none value
  let value := substitute (rewriteWhole host.apiToken) (value.length + 1) none value
  substitute (rewriteWhole privateKey) (value.length + 1) none value

/-- `SECRET_NAME` -/
def secretName : Pattern :=
  let under := .one (· = code '_')
  Pattern.all [.alt .start under,
    Pattern.any [.seq (word 'a' "pi") (.seq hyphen (word 'k' "ey")), word 't' "oken",
      word 's' "ecret", word 'p' "assword", word 'p' "asswd",
      .seq (word 'p' "rivate") (.seq hyphen (word 'k' "ey"))] (word 'c' "redential")]
    (.alt .finish under)

mutual

/-- `_redact` -/
def redact : Value → Json
  | .null => .null
  | .bool value => .bool value
  | .int value => .int value
  | .float bits => .float bits
  | .str value => .str (host.redactText value)
  | .list items => .arr (redactItems items)
  | .tuple items => .arr (redactItems items)
  | .dict fields => .obj (Fields.ofPairs (redactFields fields))

/-- The items of a list. -/
def redactItems : List Value → List Json
  | [] => []
  | item :: items => redact item :: redactItems items

/-- The fields of a dictionary: `redact_mapping` goes over a text before `_redact`
does. -/
def redactFields : List (Key × Value) → List (Text × Json)
  | [] => []
  | (key, value) :: fields =>
      let name := host.keyString key
      let item :=
        if secretName.search none name then .str (host.redactText redacted)
        else match value with
          | .str value => .str (host.redactText (host.redactText value))
          | other => redact other
      (name, item) :: redactFields fields

end

/-! ## Redaction leaves something -/

variable {host}

theorem isSpace_bracket : isSpace (code '[') = false := by decide

/-- Redaction replaces a text by a bracket at least. -/
theorem exists_ink_redactText {value : Text} (ink : ∃ letter ∈ value, isSpace letter = false) :
    ∃ letter ∈ host.redactText value, isSpace letter = false := by
  have bracket : ∃ letter ∈ redacted, isSpace letter = false :=
    ⟨code '[', by decide, isSpace_bracket⟩
  have whole (pattern : Pattern) : ∀ before input replacement rest,
      rewriteWhole pattern before input = some (replacement, rest) →
        ∃ letter ∈ replacement, isSpace letter = false := by
    intro before input replacement rest found
    obtain ⟨_, _, is⟩ := Pattern.exists_of_match_ found
    cases is
    exact bracket
  have named : ∀ before input replacement rest,
      host.rewriteAssignment before input = some (replacement, rest) →
        ∃ letter ∈ replacement, isSpace letter = false := by
    intro before input replacement rest found
    obtain ⟨_, _, found⟩ := Pattern.exists_of_match_ found
    obtain ⟨_, _, is⟩ := Pattern.exists_of_match_ found
    cases is
    obtain ⟨letter, member, ink⟩ := bracket
    exact ⟨letter, List.mem_append_right _ member, ink⟩
  exact exists_mem_substitute (whole _) _ (exists_mem_substitute (whole _) _
    (exists_mem_substitute named _ ink))

end Host

end CarbonLab.Aegis
