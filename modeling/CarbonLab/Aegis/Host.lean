import CarbonLab.Lib.FileSystem
import CarbonLab.Lib.Reads
import Mathlib.Algebra.Order.BigOperators.Group.List
import Mathlib.Data.Rat.Floor

/-!
# The host of the control plane

What the control plane takes from Python and from its machine: exceptions, white space,
`int()`, SHA-256, the clock and new identifiers.
-/

namespace CarbonLab.Aegis

/-- The class of an exception. -/
inductive ErrorKind
  | runtimeError
  | valueError
  | typeError
  | attributeError
  | keyError
  | overflowError
  | lockError
  | transactionError
  | securityError
  /-- `AtomicWriteError`, an `OSError` of the control plane's own. -/
  | atomicWriteError
  | assuranceError
  | transitionError
  | osError (error : OsError)
  deriving DecidableEq, Repr

/-- An exception; the text of another exception inside the message is left out. -/
structure Raised where
  kind : ErrorKind
  message : Text
  deriving DecidableEq, Repr

/-- `raise RuntimeError(message)` -/
def runtimeError (message : Text) : Raised := ⟨.runtimeError, message⟩

/-- `raise ValueError(message)` -/
def valueError (message : Text) : Raised := ⟨.valueError, message⟩

/-- An operating system error. -/
def osError (error : OsError) : Raised := ⟨.osError error, []⟩

/-- `if not condition: raise error` -/
def require (condition : Prop) [Decidable condition] (error : Raised) : Except Raised Unit :=
  if condition then .ok () else .error error

@[simp] theorem require_eq_ok {condition : Prop} [Decidable condition] {error : Raised}
    {value : Unit} : require condition error = .ok value ↔ condition := by
  rw [require]
  split <;> simp_all

@[simp] theorem require_true [Decidable True] {error : Raised} : require True error = .ok () :=
  if_pos trivial

/-- The white space of Python strings. -/
def isSpace (letter : CodePoint) : Bool :=
  let value := letter.val
  (9 ≤ value && value ≤ 13) || (28 ≤ value && value ≤ 32) || value = 0x85 || value = 0xa0 ||
    value = 0x1680 || (0x2000 ≤ value && value ≤ 0x200a) || value = 0x2028 || value = 0x2029 ||
    value = 0x202f || value = 0x205f || value = 0x3000

/-- `string.strip()` -/
def strip (string : Text) : Text :=
  ((string.dropWhile isSpace).reverse.dropWhile isSpace).reverse

theorem dropWhile_isSpace_of_head? {string : Text}
    (front : ∀ letter ∈ string.head?, isSpace letter = false) :
    string.dropWhile isSpace = string := by
  cases string with
  | nil => rfl
  | cons first rest =>
      rw [List.dropWhile_cons_of_neg]
      simpa using front first rfl

theorem strip_of_ends {string : Text} (front : ∀ letter ∈ string.head?, isSpace letter = false)
    (back : ∀ letter ∈ string.getLast?, isSpace letter = false) : strip string = string := by
  unfold strip
  rw [dropWhile_isSpace_of_head? front, dropWhile_isSpace_of_head?, List.reverse_reverse]
  rwa [List.head?_reverse]

theorem mem_of_mem_strip {string : Text} {letter : CodePoint} (member : letter ∈ strip string) :
    letter ∈ string := by
  rw [strip, List.mem_reverse] at member
  exact List.dropWhile_subset _ (List.mem_reverse.mp (List.dropWhile_subset _ member))

theorem strip_eq_nil {string : Text} :
    strip string = [] ↔ ∀ letter ∈ string, isSpace letter = true := by
  rw [strip, List.reverse_eq_nil_iff, List.dropWhile_eq_nil_iff]
  simp only [List.mem_reverse]
  constructor
  · intro blank
    have empty : string.dropWhile isSpace = [] := by
      by_contra filled
      have first := List.head_dropWhile_not isSpace filled
      rw [blank _ (List.head_mem filled)] at first
      cases first
    exact List.dropWhile_eq_nil_iff.mp empty
  · intro blank letter member
    exact blank letter ((List.dropWhile_sublist _).subset member)

theorem strip_ne_nil {string : Text} :
    strip string ≠ [] ↔ ∃ letter ∈ string, isSpace letter = false := by
  rw [Ne, strip_eq_nil]
  simp

/-- What is left of a string without the white space around it is not all white space. -/
theorem exists_ink_strip {string : Text} (ink : ∃ letter ∈ string, isSpace letter = false) :
    ∃ letter ∈ strip string, isSpace letter = false := by
  obtain ⟨letter, rest, stripped⟩ := List.exists_cons_of_ne_nil (strip_ne_nil.mpr ink)
  have ends : isSpace ((strip string).getLast (by simp [stripped])) = false := by
    simp only [strip, List.getLast_reverse]
    exact List.head_dropWhile_not isSpace _
  exact ⟨_, List.getLast_mem _, ends⟩

/-- No blank stands in front of a stripped text. -/
theorem isSpace_of_head_strip {string : Text} {letter : CodePoint}
    (first : letter ∈ (strip string).head?) : isSpace letter = false := by
  have front : strip string <+: string.dropWhile isSpace := by
    rw [strip, ← List.reverse_suffix, List.reverse_reverse]
    exact List.dropWhile_suffix _
  obtain ⟨rest, whole⟩ := front
  have starts : (string.dropWhile isSpace).head? = some letter := by
    rw [← whole, List.head?_append, first]
    rfl
  have ink := List.head?_dropWhile_not isSpace string
  rwa [starts] at ink

/-- `string.startswith(start)` -/
def startsWith (start string : Text) : Bool := start.isPrefixOf string

/-- The machine and the tables of its Python. -/
structure Host where
  floats : FloatText
  sha256 : Bytes → Text
  /-- `hexdigest()` is 64 lower case hexadecimal digits. -/
  sha256_hex : ∀ bytes, (sha256 bytes).length = 64 ∧
    ∀ letter ∈ sha256 bytes, letter ∈ text "0123456789abcdef"
  /-- `str.isalnum()` of one character. -/
  alphanumeric : CodePoint → Bool
  /-- The value of a Unicode decimal digit. -/
  decimal : CodePoint → Option (Fin 10)
  /-- `str.casefold()` -/
  casefold : Text → Text
  /-- `str(value)` of a value that is no string. -/
  repr : Json → Text
  entropy : Entropy
  /-- The time and new identifiers are ASCII. -/
  now_ascii : ∀ tick, ∀ letter ∈ entropy.now tick, letter.val < 128
  uuid_ascii : ∀ tick, ∀ letter ∈ entropy.uuid tick, letter.val < 128

namespace Host

variable (host : Host)

/-- Digits with single underscores between them. -/
def digits? : Text → Option (List (Fin 10))
  | [] => none
  | [last] => (host.decimal last).map ([·])
  | first :: second :: rest => do
      let digit ← host.decimal first
      if second = code '_' then (digit :: ·) <$> digits? rest
      else (digit :: ·) <$> digits? (second :: rest)

/-- `int(string)` -/
def intOfText (string : Text) : Option ℤ :=
  match strip string with
  | [] => none
  | first :: rest =>
      if first = code '-' then (host.digits? rest).map fun digits => -(numberOf digits : ℤ)
      else if first = code '+' then (host.digits? rest).map fun digits => (numberOf digits : ℤ)
      else (host.digits? (first :: rest)).map fun digits => (numberOf digits : ℤ)

/-- `int(value)` -/
def int : Json → Except Raised ℤ
  | .int value => .ok value
  | .bool value => .ok (if value then 1 else 0)
  | .float bits =>
      match doubleValue bits with
      | .finite value => .ok (if value < 0 then ⌈value⌉ else ⌊value⌋)
      | .infinite _ => .error ⟨.overflowError, "cannot convert float infinity to integer"⟩
      | .nan => .error (valueError "cannot convert float NaN to integer")
  | .str string =>
      match host.intOfText string with
      | some value => .ok value
      | none => .error (valueError "invalid literal for int() with base 10")
  | .null | .arr _ | .obj _ =>
      .error ⟨.typeError, "int() argument must be a string, a bytes-like object or a real number"⟩

variable {host} in
/-- `int()` of a number that `==` an integer. -/
theorem int_of_equal {value : Json} {number : ℤ} (same : value.equal (.int number) = true) :
    host.int value = .ok number := by
  cases value with
  | int value => rw [int, Json.int_equal_int.mp same]
  | bool value =>
      simp only [Json.equal, Json.number?, Numeral.equal, decide_eq_true_eq] at same
      rw [int, Except.ok.injEq]
      cases value <;> exact_mod_cast same
  | float bits =>
      simp only [Json.equal, Json.number?] at same
      cases is : doubleValue bits with
      | finite value =>
          rw [is] at same
          simp only [Numeral.equal, decide_eq_true_eq] at same
          simp [int, is, same]
      | infinite negative => simp [is, Numeral.equal] at same
      | nan => simp [is, Numeral.equal] at same
  | _ => simp [Json.equal, Json.number?] at same

/-- `json.dumps(value, sort_keys=True, separators=(",", ":")).encode("utf-8")` -/
def canonical (value : Json) : Bytes := encode (value.dumps host.floats .compact)

/-- The SHA-256 of a value. -/
def digest (value : Json) : Text := host.sha256 (host.canonical value)

variable {host}

theorem canonical_inj {first second : Json} : host.canonical first = host.canonical second ↔
    first.dumps host.floats .compact = second.dumps host.floats .compact :=
  encode_inj first.ascii_dumps second.ascii_dumps

theorem digest_length (value : Json) : (host.digest value).length = 64 :=
  (host.sha256_hex _).1

/-- A digest is ASCII. -/
theorem digest_ascii (value : Json) : ∀ letter ∈ host.digest value, letter.val < 128 := by
  intro letter member
  have hex : ∀ letter ∈ text "0123456789abcdef", letter.val < 128 := by simp [text]
  exact hex letter ((host.sha256_hex _).2 letter member)

end Host

theorem mergeSurrogates_ascii {string : Text} (ascii : ∀ letter ∈ string, letter.val < 128) :
    mergeSurrogates string = string := by
  apply mergeSurrogates_of_forall
  intro letter member
  have small := ascii letter member
  simp only [isHigh, Bool.and_eq_false_iff, decide_eq_false_iff_not]
  omega

/-- What is read back as ASCII was ASCII. -/
theorem eq_of_mergeSurrogates_ascii {string : Text}
    (ascii : ∀ letter ∈ mergeSurrogates string, letter.val < 128) :
    mergeSurrogates string = string := by
  induction string using mergeSurrogates.induct with
  | case1 high low rest surrogates ih =>
      rw [mergeSurrogates, if_pos surrogates] at ascii
      have small := ascii _ List.mem_cons_self
      simp only [isHigh, isLow, Bool.and_eq_true, decide_eq_true_eq] at surrogates
      simp only [joinSurrogates, Fin.ofNat] at small
      omega
  | case2 high low rest surrogates ih =>
      rw [mergeSurrogates, if_neg surrogates] at ascii ⊢
      rw [ih fun letter member => ascii letter (List.mem_cons_of_mem _ member)]
  | case3 short simple =>
      rcases short with _ | ⟨first, _ | ⟨second, rest⟩⟩
      · rfl
      · rfl
      · exact absurd rfl (simple first second rest)

/-- What stands under an ASCII key of a dictionary after a round trip. -/
theorem get?_normalize_of_ordered {fields : List (Text × Json)} (ordered : Fields.Ordered fields)
    {key : Text} (ascii : ∀ letter ∈ key, letter.val < 128) :
    (Json.obj fields).normalize.get? key = ((Json.obj fields).get? key).map Json.normalize := by
  -- Only the key itself is merged to an ASCII key.
  have keys : ∀ field ∈ fields, mergeSurrogates field.1 = key → field.1 = key := by
    intro field _ merged
    rw [← merged] at ascii
    rw [← merged]
    exact (eq_of_mergeSurrogates_ascii ascii).symm
  rw [Json.normalize, Json.normalizeFields_eq_map, Json.get?, Json.obj?, Option.bind_some,
    Json.get?, Json.obj?, Option.bind_some]
  cases found : Fields.get? key fields with
  | some item =>
      have member := Fields.mem_of_get? found
      refine Fields.get?_ofPairs ?_ ?_
      · refine List.mem_map.mpr ⟨_, member, ?_⟩
        rw [mergeSurrogates_ascii ascii]
      · intro pair inside same
        obtain ⟨field, there, rfl⟩ := List.mem_map.mp inside
        rw [List.inj_on_of_nodup_map (Fields.Ordered.nodup ordered) there member
          (keys field there same)]
  | none =>
      refine Fields.get?_ofPairs_eq_none ?_
      intro pair inside same
      obtain ⟨field, there, rfl⟩ := List.mem_map.mp inside
      exact Fields.key_ne_of_get? found field there (keys field there same)

/-- What stands under an ASCII key after a round trip. -/
theorem get?_normalize_of_tidy {value : Json} (tidy : value.Tidy) {key : Text}
    (ascii : ∀ letter ∈ key, letter.val < 128) :
    value.normalize.get? key = (value.get? key).map Json.normalize := by
  cases tidy with
  | leaf _ object =>
      cases value with
      | obj fields => cases object
      | float bits =>
          obtain ⟨other, same⟩ := Json.exists_float_normalize bits
          rw [same]
          rfl
      | _ => rfl
  | arr _ => rfl
  | obj ordered _ => exact get?_normalize_of_ordered ordered ascii

theorem Host.plain_digest {host : Host} (value : Json) : (Json.str (host.digest value)).Plain :=
  Json.plain_str.mpr (mergeSurrogates_ascii (Host.digest_ascii value))

/-! ## A host for concrete runs -/

/-- Doubles printed by their bits. -/
def bitFloats : FloatText where
  repr bits := ⟨false, bits.toNat, [0], none⟩
  read _ whole _ _ := BitVec.ofNat 64 whole
  fractional _ := Or.inl (by simp)
  read_repr bits _ _ := by simp

/-- Temporary names that are longer than all the names there are. -/
def plainEntropy : Entropy where
  now _ := text "2026-01-01T00:00:00+00:00"
  uuid tick := List.replicate 32 (Fin.ofNat _ (48 + tick % 10))
  temporary _ files _ _ :=
    List.replicate ((files.keys.map fun path => (path.getLast?.getD []).length).sum + 1) (code 'x')
  temporary_fresh tick files directory stem := by
    rw [FileSystem.lookup, AList.lookup_eq_none, AList.mem_keys]
    change _ ∉ files.keys
    intro member
    have bound := List.le_sum_of_mem
      (List.mem_map_of_mem (f := fun path : Path => (path.getLast?.getD []).length) member)
    simp only [List.getLast?_append, List.getLast?_singleton, Option.some_or, Option.getD_some,
      List.length_append, List.length_replicate] at bound
    omega

/-- A number that tells a few byte strings apart. -/
def fingerprint : Bytes → ℕ → ℕ
  | [], sum => sum
  | byte :: rest, sum =>
      match (sum * 257 + byte.toNat) % 1000000007 with
      | 0 => fingerprint rest 0
      | next + 1 => fingerprint rest (next + 1)

/-- A digest of 256 bits in hexadecimal digits. -/
def hexText (number : ℕ) : Text :=
  (List.range 64).map fun place => hexDigit (number / 16 ^ (63 - place) % 16)

/-- A host that knows the SHA-256 of some byte strings, by their fingerprints. -/
def tableHost (digests : List (ℕ × ℕ)) : Host where
  floats := bitFloats
  sha256 bytes := hexText ((digests.lookup (fingerprint bytes 0)).getD 0)
  sha256_hex bytes := by
    refine ⟨by simp [hexText], ?_⟩
    intro letter member
    obtain ⟨place, _, rfl⟩ := List.mem_map.mp member
    have all : ∀ digit < 16, hexDigit digit ∈ text "0123456789abcdef" := by decide
    exact all _ (Nat.mod_lt _ (by decide))
  alphanumeric letter := (digit? letter).isSome || (65 ≤ letter.val && letter.val ≤ 90) ||
    (97 ≤ letter.val && letter.val ≤ 122)
  decimal := digit?
  casefold string := string.map fun letter =>
    if 65 ≤ letter.val ∧ letter.val ≤ 90 then Fin.ofNat _ (letter.val + 32) else letter
  repr _ := "None"
  entropy := plainEntropy
  now_ascii _ := by simp [plainEntropy, text]
  uuid_ascii tick letter member := by
    have bound := Nat.mod_lt tick (show 0 < 10 by decide)
    rw [List.eq_of_mem_replicate member]
    simp only [Fin.ofNat]
    omega

end CarbonLab.Aegis
