import CarbonLab.Lib.Json
import Mathlib.Tactic.IntervalCases

/-!
# Tokens of JSON text

Numbers and strings as Python's `json` writes and reads them: only ASCII is written,
everything else as `\u` escapes, and a pair of surrogate escapes is read as one code
point.
-/

namespace CarbonLab

/-- The code point of a character. -/
def code (letter : Char) : CodePoint := Fin.ofNat _ letter.toNat

/-! ## Numbers -/

instance neZero_digits : NeZero 10 := ⟨by decide⟩

/-- The decimal digits of a number, before some digits. -/
def decimalDigits : ℕ → ℕ → List (Fin 10) → List (Fin 10)
  | 0, _, digits => digits
  | fuel + 1, number, digits =>
      if number < 10 then Fin.ofNat _ number :: digits
      else decimalDigits fuel (number / 10) (Fin.ofNat _ number :: digits)

/-- The digits that `int.__repr__` prints for a natural number. -/
def digitsOf (number : ℕ) : List (Fin 10) :=
  decimalDigits (number + 1) number []

/-- The number that digits stand for. -/
def numberOf (digits : List (Fin 10)) : ℕ :=
  digits.foldl (fun number digit => 10 * number + digit.val) 0

/-- Digits as text. -/
def digitText (digits : List (Fin 10)) : Text :=
  digits.map fun digit => Fin.ofNat _ (48 + digit.val)

/-- The digit that a code point is. -/
def digit? (letter : CodePoint) : Option (Fin 10) :=
  if 48 ≤ letter.val ∧ letter.val < 58 then some (Fin.ofNat _ (letter.val - 48)) else none

/-- The digits at the front of a text, and the rest. -/
def spanDigits : Text → List (Fin 10) × Text
  | [] => ([], [])
  | letter :: rest =>
      match digit? letter with
      | some digit => (digit :: (spanDigits rest).1, (spanDigits rest).2)
      | none => ([], letter :: rest)

/-- A decimal number with a fraction or an exponent. -/
structure Decimal where
  negative : Bool
  whole : ℕ
  fraction : List (Fin 10)
  exponent : Option Int
  deriving DecidableEq, Repr

/-- How the host turns doubles into decimal text and back: `float.__repr__` and
`float()`. -/
structure FloatText where
  /-- The text of a finite double. -/
  repr : BitVec 64 → Decimal
  /-- The double that is read from a decimal number. -/
  read : (negative : Bool) → (whole : ℕ) → (fraction : List (Fin 10)) → (exponent : Int) →
    BitVec 64
  /-- A double is never printed as an integer. -/
  fractional : ∀ bits, (repr bits).fraction ≠ [] ∨ (repr bits).exponent.isSome
  /-- The text of a finite double reads as that double. -/
  read_repr : ∀ bits value, doubleValue bits = .finite value →
    read (repr bits).negative (repr bits).whole (repr bits).fraction
      ((repr bits).exponent.getD 0) = bits

/-- The exponent as `float.__repr__` prints it: signed, with two digits at least. -/
def exponentText (exponent : Int) : Text :=
  code 'e' :: code (if exponent < 0 then '-' else '+') ::
    digitText (if exponent.natAbs < 10 then [0, Fin.ofNat _ exponent.natAbs]
      else digitsOf exponent.natAbs)

/-- The text of a decimal number. -/
def Decimal.text (decimal : Decimal) : Text :=
  (if decimal.negative then [code '-'] else []) ++ digitText (digitsOf decimal.whole) ++
    (if decimal.fraction = [] then [] else code '.' :: digitText decimal.fraction) ++
    (decimal.exponent.map exponentText).getD []

/-- The text of an integer. -/
def intText (number : Int) : Text :=
  (if number < 0 then [code '-'] else []) ++ digitText (digitsOf number.natAbs)

/-- The bits that `NaN`, `Infinity` and `-Infinity` are read as. -/
def nanBits : BitVec 64 := 0x7ff8000000000000

@[inherit_doc nanBits]
def infinityBits (negative : Bool) : BitVec 64 :=
  if negative then 0xfff0000000000000 else 0x7ff0000000000000

/-! ## Strings -/

/-- Code points that stand for the first half of a pair. -/
def isHigh (point : CodePoint) : Bool := 0xd800 ≤ point.val && point.val < 0xdc00

/-- Code points that stand for the second half of a pair. -/
def isLow (point : CodePoint) : Bool := 0xdc00 ≤ point.val && point.val < 0xe000

/-- The code point of a pair of surrogates. -/
def joinSurrogates (high low : CodePoint) : CodePoint :=
  Fin.ofNat _ (0x10000 + (high.val - 0xd800) * 0x400 + (low.val - 0xdc00))

/-- The digit of a number below sixteen. -/
def hexDigit (number : ℕ) : CodePoint :=
  Fin.ofNat _ (if number < 10 then 48 + number else 87 + number)

/-- `\uXXXX` -/
def unicodeEscape (unit : ℕ) : Text :=
  [code '\\', code 'u', hexDigit (unit / 4096 % 16), hexDigit (unit / 256 % 16),
    hexDigit (unit / 16 % 16), hexDigit (unit % 16)]

/-- The escapes of one letter, and what they stand for. -/
def shortEscapes : List (CodePoint × CodePoint) :=
  [(code '"', code '"'), (code '\\', code '\\'), (code '/', code '/'), (code 'b', 8),
    (code 'f', 12), (code 'n', 10), (code 'r', 13), (code 't', 9)]

/-- One code point in a string literal. -/
def escape (point : CodePoint) : Text :=
  if point = code '"' then [code '\\', code '"']
  else if point = code '\\' then [code '\\', code '\\']
  else if point.val = 10 then [code '\\', code 'n']
  else if point.val = 13 then [code '\\', code 'r']
  else if point.val = 9 then [code '\\', code 't']
  else if point.val = 12 then [code '\\', code 'f']
  else if point.val = 8 then [code '\\', code 'b']
  else if 32 ≤ point.val ∧ point.val < 127 then [point]
  else if point.val < 0x10000 then unicodeEscape point.val
  else
    unicodeEscape (0xd800 + (point.val - 0x10000) / 0x400) ++
      unicodeEscape (0xdc00 + (point.val - 0x10000) % 0x400)

/-- A string literal. -/
def stringText (string : Text) : Text :=
  code '"' :: (string.flatMap escape ++ [code '"'])

/-- The value of a hexadecimal digit. -/
def hexValue? (letter : CodePoint) : Option ℕ :=
  if 48 ≤ letter.val ∧ letter.val < 58 then some (letter.val - 48)
  else if 97 ≤ letter.val ∧ letter.val < 103 then some (letter.val - 87)
  else if 65 ≤ letter.val ∧ letter.val < 71 then some (letter.val - 55)
  else none

/-- The value of four hexadecimal digits. -/
def hexUnit? (first second third fourth : CodePoint) : Option ℕ := do
  let first ← hexValue? first
  let second ← hexValue? second
  let third ← hexValue? third
  let fourth ← hexValue? fourth
  return first * 4096 + second * 256 + third * 16 + fourth

/-- Read a string up to its closing quote: each code point, with whether it was
written as a `\u` escape. -/
def scanUnits : Text → Option (List (Bool × CodePoint) × Text)
  | [] => none
  | letter :: rest =>
      if letter = code '"' then some ([], rest)
      else if letter = code '\\' then
        match rest with
        | [] => none
        | escaped :: rest =>
            if escaped = code 'u' then
              match rest with
              | first :: second :: third :: fourth :: rest => do
                  let unit ← hexUnit? first second third fourth
                  let scanned ← scanUnits rest
                  return ((true, Fin.ofNat _ unit) :: scanned.1, scanned.2)
              | _ => none
            else do
              let point ← shortEscapes.lookup escaped
              let scanned ← scanUnits rest
              return ((false, point) :: scanned.1, scanned.2)
      else if letter.val < 32 then none
      else do
        let scanned ← scanUnits rest
        return ((false, letter) :: scanned.1, scanned.2)

/-- Two escapes that are a pair of surrogates stand for one code point. -/
def joinUnits : List (Bool × CodePoint) → Text
  | (true, high) :: (true, low) :: rest =>
      if isHigh high && isLow low then joinSurrogates high low :: joinUnits rest
      else high :: joinUnits ((true, low) :: rest)
  | (_, point) :: rest => point :: joinUnits rest
  | [] => []

/-- Read a string after its opening quote. -/
def scanString (input : Text) : Option (Text × Text) :=
  (scanUnits input).map fun scanned => (joinUnits scanned.1, scanned.2)

/-- What a string is read back as: two code points that are a pair of surrogates come
back as one. -/
def mergeSurrogates : Text → Text
  | high :: low :: rest =>
      if isHigh high && isLow low then joinSurrogates high low :: mergeSurrogates rest
      else high :: mergeSurrogates (low :: rest)
  | short => short

/-- The units that a code point is written as. -/
def unitsOf (point : CodePoint) : List (Bool × CodePoint) :=
  if 0x10000 ≤ point.val then
    [(true, Fin.ofNat _ (0xd800 + (point.val - 0x10000) / 0x400)),
      (true, Fin.ofNat _ (0xdc00 + (point.val - 0x10000) % 0x400))]
  else if (32 ≤ point.val ∧ point.val < 127) ∨ point.val ∈ [8, 9, 10, 12, 13] then
    [(false, point)]
  else [(true, point)]

theorem hexValue?_hexDigit {number : ℕ} (small : number < 16) :
    hexValue? (hexDigit number) = some number := by
  interval_cases number <;> rfl

theorem hexUnit?_hexDigits {unit : ℕ} (small : unit < 0x10000) :
    hexUnit? (hexDigit (unit / 4096 % 16)) (hexDigit (unit / 256 % 16))
      (hexDigit (unit / 16 % 16)) (hexDigit (unit % 16)) = some unit := by
  have below (number : ℕ) : number % 16 < 16 := Nat.mod_lt _ (by decide)
  simp only [hexUnit?, hexValue?_hexDigit (below _), Option.pure_def, Option.bind_eq_bind,
    Option.bind_some, Option.some.injEq]
  omega

theorem scanUnits_unicodeEscape {unit : ℕ} (small : unit < 0x10000) (rest : Text) :
    scanUnits (unicodeEscape unit ++ rest) =
      (scanUnits rest).map fun scanned => ((true, Fin.ofNat _ unit) :: scanned.1, scanned.2) := by
  have opened : code '\\' ≠ code '"' := by decide
  simp only [unicodeEscape, List.cons_append, List.nil_append]
  rw [scanUnits.eq_def]
  simp only [opened, ↓reduceIte, hexUnit?_hexDigits small]
  cases scanUnits rest <;> rfl

/-- An escape of one letter is read as what it stands for. -/
theorem scanUnits_shortEscape {letter point : CodePoint} (escapes : letter ≠ code 'u')
    (known : shortEscapes.lookup letter = some point) (rest : Text) :
    scanUnits (code '\\' :: letter :: rest) =
      (scanUnits rest).map fun scanned => ((false, point) :: scanned.1, scanned.2) := by
  have opened : code '\\' ≠ code '"' := by decide
  rw [scanUnits.eq_def]
  simp only [opened, escapes, ↓reduceIte, known]
  cases scanUnits rest <;> rfl

theorem scanUnits_escape (point : CodePoint) (rest : Text) :
    scanUnits (escape point ++ rest) =
      (scanUnits rest).map fun scanned => (unitsOf point ++ scanned.1, scanned.2) := by
  have short {letter : CodePoint} (is : point = letter)
      (units : unitsOf letter = [(false, letter)]) {escaped : CodePoint}
      (escapes : escaped ≠ code 'u') (known : shortEscapes.lookup escaped = some letter) :
      scanUnits ([code '\\', escaped] ++ rest) =
        (scanUnits rest).map fun scanned => (unitsOf point ++ scanned.1, scanned.2) := by
    rw [is, units]
    exact scanUnits_shortEscape escapes known rest
  have bound := point.isLt
  unfold escape
  split_ifs with quote slash newline carriage tab feed back plain small
  · exact short quote (by decide) (by decide) (by decide)
  · exact short slash (by decide) (by decide) (by decide)
  · exact short (Fin.ext newline : point = 10) (by decide) (by decide) (by decide)
  · exact short (Fin.ext carriage : point = 13) (by decide) (by decide) (by decide)
  · exact short (Fin.ext tab : point = 9) (by decide) (by decide) (by decide)
  · exact short (Fin.ext feed : point = 12) (by decide) (by decide) (by decide)
  · exact short (Fin.ext back : point = 8) (by decide) (by decide) (by decide)
  · have units : unitsOf point = [(false, point)] := by
      rw [unitsOf, if_neg (by omega), if_pos (Or.inl plain)]
    rw [units, List.cons_append, List.nil_append, scanUnits.eq_def]
    simp only [quote, slash, ↓reduceIte, if_neg (not_lt.mpr plain.1)]
    cases scanUnits rest <;> rfl
  · have units : unitsOf point = [(true, point)] := by
      rw [unitsOf, if_neg (by omega), if_neg]
      simp only [List.mem_cons, List.not_mem_nil, or_false]
      omega
    have same : (Fin.ofNat _ point.val : CodePoint) = point := Fin.ext (Nat.mod_eq_of_lt bound)
    rw [scanUnits_unicodeEscape small, units, same]
    rfl
  · rw [List.append_assoc, scanUnits_unicodeEscape (by omega), scanUnits_unicodeEscape (by omega),
      unitsOf, if_pos (not_lt.mp small)]
    cases scanUnits rest <;> rfl

theorem scanUnits_flatMap_escape (string rest : Text) :
    scanUnits (string.flatMap escape ++ code '"' :: rest) =
      some (string.flatMap unitsOf, rest) := by
  induction string with
  | nil =>
      rw [List.flatMap_nil, List.flatMap_nil, List.nil_append, scanUnits.eq_def]
      simp only [↓reduceIte]
  | cons point string ih =>
      rw [List.flatMap_cons, List.append_assoc, scanUnits_escape, ih]
      rfl

/-- The units of a code point of the basic plane. -/
theorem unitsOf_basic {point : CodePoint} (basic : point.val < 0x10000) :
    ∃ escaped, unitsOf point = [(escaped, point)] ∧
      (isHigh point = true ∨ isLow point = true → escaped = true) := by
  rw [unitsOf, if_neg (by omega)]
  split
  · next plain =>
      refine ⟨false, rfl, ?_⟩
      simp only [isHigh, isLow, Bool.and_eq_true, decide_eq_true_eq]
      simp only [List.mem_cons, List.not_mem_nil, or_false] at plain
      omega
  · exact ⟨true, rfl, fun _ => rfl⟩

theorem not_surrogate_of_astral {point : CodePoint} (astral : 0x10000 ≤ point.val) :
    isHigh point = false ∧ isLow point = false := by
  simp only [isHigh, isLow, Bool.and_eq_false_iff, decide_eq_false_iff_not]
  omega

/-- The units of a code point outside of the basic plane are a pair that joins to
it. -/
theorem unitsOf_astral {point : CodePoint} (astral : 0x10000 ≤ point.val) :
    ∃ high low, unitsOf point = [(true, high), (true, low)] ∧ isHigh high = true ∧
      isLow high = false ∧ isLow low = true ∧ joinSurrogates high low = point := by
  have bound := point.isLt
  refine ⟨_, _, if_pos astral, ?_, ?_, ?_, ?_⟩
  · simp only [isHigh, Fin.ofNat, Bool.and_eq_true, decide_eq_true_eq]
    omega
  · simp only [isLow, Fin.ofNat, Bool.and_eq_false_iff, decide_eq_false_iff_not]
    omega
  · simp only [isLow, Fin.ofNat, Bool.and_eq_true, decide_eq_true_eq]
    omega
  · apply Fin.ext
    simp only [joinSurrogates, Fin.ofNat]
    omega

/-- A first half that no second half follows stands for itself. -/
theorem joinUnits_cons {escaped : Bool} {point : CodePoint} {rest : List (Bool × CodePoint)}
    (alone : isHigh point = true → escaped = true →
      ∀ low later, rest = (true, low) :: later → isLow low = false) :
    joinUnits ((escaped, point) :: rest) = point :: joinUnits rest := by
  cases escaped with
  | false => rw [joinUnits]; simp
  | true =>
      rcases rest with _ | ⟨⟨_ | _, low⟩, later⟩
      · rfl
      · rw [joinUnits]; simp
      · rw [joinUnits]
        split
        · next pair =>
            simp only [Bool.and_eq_true] at pair
            exact absurd pair.2 (by rw [alone pair.1 rfl low later rfl]; decide)
        · rfl

theorem joinUnits_flatMap (string : Text) :
    joinUnits (string.flatMap unitsOf) = mergeSurrogates string := by
  induction string using mergeSurrogates.induct with
  | case1 high low rest pair ih =>
      have basic : high.val < 0x10000 ∧ low.val < 0x10000 := by
        simp only [isHigh, isLow, Bool.and_eq_true, decide_eq_true_eq] at pair
        omega
      simp only [Bool.and_eq_true] at pair
      obtain ⟨first, firstUnits, firstEscaped⟩ := unitsOf_basic basic.1
      obtain ⟨second, secondUnits, secondEscaped⟩ := unitsOf_basic basic.2
      rw [firstEscaped (Or.inl pair.1)] at firstUnits
      rw [secondEscaped (Or.inr pair.2)] at secondUnits
      rw [List.flatMap_cons, List.flatMap_cons, firstUnits, secondUnits, mergeSurrogates]
      simp only [List.cons_append, List.nil_append, joinUnits, pair, Bool.and_self, ↓reduceIte, ih]
  | case2 high low rest apart ih =>
      rw [List.flatMap_cons, mergeSurrogates, if_neg apart, ← ih]
      by_cases basic : high.val < 0x10000
      · obtain ⟨escaped, units, _⟩ := unitsOf_basic basic
        rw [units, List.cons_append, List.nil_append, joinUnits_cons]
        intro isHigh _ unit later units
        by_cases lowBasic : low.val < 0x10000
        · obtain ⟨_, lowUnits, _⟩ := unitsOf_basic lowBasic
          rw [List.flatMap_cons, lowUnits] at units
          have same : low = unit := congrArg Prod.snd (List.cons.inj units).1
          subst same
          simpa [isHigh] using apart
        · obtain ⟨first, _, lowUnits, _, notLow, _⟩ := unitsOf_astral (not_lt.mp lowBasic)
          rw [List.flatMap_cons, lowUnits] at units
          have same : first = unit := by simpa using (List.cons.inj units).1
          exact same ▸ notLow
      · obtain ⟨first, second, units, high, _, low, join⟩ := unitsOf_astral (not_lt.mp basic)
        rw [units]
        simp only [List.cons_append, List.nil_append, joinUnits, high, low, Bool.and_self,
          ↓reduceIte, join]
  | case3 short notPair =>
      rcases short with _ | ⟨point, _ | ⟨second, rest⟩⟩
      · rfl
      · rw [List.flatMap_cons, List.flatMap_nil, List.append_nil]
        by_cases basic : point.val < 0x10000
        · obtain ⟨escaped, units, _⟩ := unitsOf_basic basic
          rw [units, joinUnits_cons (by simp)]
          rfl
        · obtain ⟨first, second, units, high, _, low, join⟩ := unitsOf_astral (not_lt.mp basic)
          rw [units]
          simp only [joinUnits, high, low, Bool.and_self, ↓reduceIte, join]
          rfl
      · exact absurd rfl (notPair point second rest)

/-- A string literal is read back, up to pairs of surrogates. -/
theorem scanString_escape (string rest : Text) :
    scanString (string.flatMap escape ++ code '"' :: rest) =
      some (mergeSurrogates string, rest) := by
  rw [scanString, scanUnits_flatMap_escape, Option.map_some, joinUnits_flatMap]

/-- Merging surrogates leaves no pair behind. -/
theorem mergeSurrogates_idem (string : Text) :
    mergeSurrogates (mergeSurrogates string) = mergeSurrogates string := by
  have astral (high low : CodePoint) (pair : (isHigh high && isLow low) = true) :
      0x10000 ≤ (joinSurrogates high low).val := by
    simp only [isHigh, isLow, Bool.and_eq_true, decide_eq_true_eq] at pair
    simp only [joinSurrogates, Fin.ofNat]
    omega
  have alone {point : CodePoint} {rest : Text}
      (apart : ∀ low later, rest = low :: later → (isHigh point && isLow low) = false) :
      mergeSurrogates (point :: rest) = point :: mergeSurrogates rest := by
    cases rest with
    | nil => rfl
    | cons low later => rw [mergeSurrogates, if_neg (by simp [apart low later rfl])]
  induction string using mergeSurrogates.induct with
  | case1 high low rest pair ih =>
      rw [mergeSurrogates, if_pos pair, alone, ih]
      intro _ _ _
      rw [(not_surrogate_of_astral (astral high low pair)).1]
      rfl
  | case2 high low rest apart ih =>
      rw [mergeSurrogates, if_neg apart, alone, ih]
      intro second later begins
      -- what follows starts with `low` itself or with a merged pair
      cases rest with
      | nil =>
          rw [mergeSurrogates] at begins
          · cases begins
            simpa using apart
          · simp
      | cons third rest =>
          rw [mergeSurrogates] at begins
          split at begins
          · next pair =>
              rw [← (List.cons.inj begins).1,
                (not_surrogate_of_astral (astral low third pair)).2, Bool.and_false]
          · cases begins
            simpa using apart
  | case3 short notPair =>
      rcases short with _ | ⟨point, _ | ⟨second, rest⟩⟩
      · rfl
      · rfl
      · exact absurd rfl (notPair point second rest)

/-! ## Reading numbers -/

/-- The whole part of a number: no zero in front. -/
def scanWhole : Text → Option (ℕ × Text)
  | [] => none
  | letter :: rest =>
      if letter = code '0' then some (0, rest)
      else if (digit? letter).isSome then
        some (numberOf (spanDigits (letter :: rest)).1, (spanDigits (letter :: rest)).2)
      else none

/-- The fraction of a number; a point without digits behind it is not read. -/
def scanFraction : Text → List (Fin 10) × Text
  | [] => ([], [])
  | letter :: rest =>
      if letter = code '.' ∧ (spanDigits rest).1 ≠ [] then spanDigits rest
      else ([], letter :: rest)

/-- Whether a text starts with a minus, and the text behind its sign. -/
def scanSign : Text → Bool × Text
  | [] => (false, [])
  | sign :: rest =>
      if sign = code '-' then (true, rest)
      else if sign = code '+' then (false, rest)
      else (false, sign :: rest)

/-- The exponent of a number. -/
def scanExponent : Text → Option Int × Text
  | [] => (none, [])
  | letter :: rest =>
      let digits := spanDigits (scanSign rest).2
      if (letter = code 'e' ∨ letter = code 'E') ∧ digits.1 ≠ [] then
        (some (if (scanSign rest).1 then -(numberOf digits.1 : Int) else numberOf digits.1),
          digits.2)
      else (none, letter :: rest)

/-- Whether a text starts with the minus of a number, and the text behind it. -/
def scanMinus : Text → Bool × Text
  | [] => (false, [])
  | letter :: rest => if letter = code '-' then (true, rest) else (false, letter :: rest)

/-- Read a number. -/
def scanNumber (floats : FloatText) (input : Text) : Option (Json × Text) := do
  let negative := (scanMinus input).1
  let (whole, rest) ← scanWhole (scanMinus input).2
  let fraction := scanFraction rest
  let exponent := scanExponent fraction.2
  if fraction.1 = [] ∧ exponent.1 = none then
    return (.int (if negative then -(whole : Int) else whole), exponent.2)
  else
    return (.float (floats.read negative whole fraction.1 (exponent.1.getD 0)), exponent.2)

/-- What may stand behind a number. -/
def Stops (rest : Text) : Prop :=
  ∀ letter later, rest = letter :: later →
    digit? letter = none ∧ letter ≠ code '.' ∧ letter ≠ code 'e' ∧ letter ≠ code 'E'

theorem digit?_digitText (digit : Fin 10) : digit? (Fin.ofNat _ (48 + digit.val)) = some digit := by
  obtain ⟨digit, small⟩ := digit
  interval_cases digit <;> rfl

theorem spanDigits_digitText (digits : List (Fin 10)) {rest : Text}
    (ends : ∀ letter later, rest = letter :: later → digit? letter = none) :
    spanDigits (digitText digits ++ rest) = (digits, rest) := by
  induction digits with
  | nil =>
      cases rest with
      | nil => rfl
      | cons letter later =>
          simp only [digitText, List.map_nil, List.nil_append, spanDigits, ends letter later rfl]
  | cons digit digits ih =>
      simp only [digitText, List.map_cons, List.cons_append, spanDigits, digit?_digitText]
      simp only [digitText] at ih
      rw [ih]

theorem foldl_decimalDigits {fuel number : ℕ} (enough : number < fuel) (digits : List (Fin 10)) :
    (decimalDigits fuel number digits).foldl (fun number digit => 10 * number + digit.val) 0 =
      digits.foldl (fun number digit => 10 * number + digit.val) number := by
  induction fuel generalizing number digits with
  | zero => omega
  | succ fuel ih =>
      rw [decimalDigits]
      split
      · next small =>
          rw [List.foldl_cons]
          congr 1
          simp only [Fin.ofNat]
          omega
      · rw [ih (by omega), List.foldl_cons]
        congr 1
        simp only [Fin.ofNat]
        omega

@[simp] theorem numberOf_digitsOf (number : ℕ) : numberOf (digitsOf number) = number :=
  foldl_decimalDigits (Nat.lt_succ_self number) []

/-- The digits of a number do not start with a zero, unless it is zero. -/
theorem decimalDigits_head {fuel number : ℕ} (enough : number < fuel) (digits : List (Fin 10)) :
    ∃ first rest, decimalDigits fuel number digits = first :: rest ∧
      (first = 0 → number = 0 ∧ rest = digits) := by
  induction fuel generalizing number digits with
  | zero => omega
  | succ fuel ih =>
      rw [decimalDigits]
      split
      · next small =>
          refine ⟨_, _, rfl, fun zero => ⟨?_, rfl⟩⟩
          have value := congrArg Fin.val zero
          simp only [Fin.ofNat, Fin.val_zero] at value
          omega
      · have shorter : number / 10 < fuel := by omega
        obtain ⟨first, rest, split, zero⟩ := ih shorter (Fin.ofNat _ number :: digits)
        refine ⟨first, rest, split, fun is => ?_⟩
        have := (zero is).1
        omega

theorem digitsOf_head (number : ℕ) :
    ∃ first rest, digitsOf number = first :: rest ∧ (first = 0 → number = 0 ∧ rest = []) :=
  decimalDigits_head (Nat.lt_succ_self number) []

theorem scanWhole_digitsOf (number : ℕ) {rest : Text}
    (ends : ∀ letter later, rest = letter :: later → digit? letter = none) :
    scanWhole (digitText (digitsOf number) ++ rest) = some (number, rest) := by
  obtain ⟨first, later, digits, zero⟩ := digitsOf_head number
  have spanned := spanDigits_digitText (digitsOf number) ends
  have number_eq := numberOf_digitsOf number
  rw [digits] at spanned number_eq ⊢
  simp only [digitText, List.map_cons, List.cons_append] at spanned ⊢
  rw [scanWhole]
  by_cases is : first = 0
  · obtain ⟨rfl, rfl⟩ := zero is
    subst is
    rw [if_pos (by decide)]
    rfl
  · have letter : (Fin.ofNat _ (48 + first.val) : CodePoint) ≠ code '0' := by
      intro same
      apply is
      have values := congrArg Fin.val same
      have := first.isLt
      simp only [Fin.ofNat, code] at values
      apply Fin.ext
      simp only [show '0'.toNat = 48 from rfl] at values
      simp only [Fin.val_zero]
      omega
    rw [if_neg letter, if_pos (by rw [digit?_digitText]; rfl), spanned, number_eq]

theorem scanFraction_stops {rest : Text} (stops : Stops rest) : scanFraction rest = ([], rest) := by
  cases rest with
  | nil => rfl
  | cons letter later =>
      rw [scanFraction, if_neg]
      exact fun point => (stops letter later rfl).2.1 point.1

theorem scanExponent_stops {rest : Text} (stops : Stops rest) :
    scanExponent rest = (none, rest) := by
  cases rest with
  | nil => rfl
  | cons letter later =>
      obtain ⟨_, _, small, large⟩ := stops letter later rfl
      simp only [scanExponent, small, large, or_self, false_and, ↓reduceIte]

theorem scanMinus_digitText (digits : List (Fin 10)) (rest : Text) (filled : digits ≠ []) :
    scanMinus (digitText digits ++ rest) = (false, digitText digits ++ rest) := by
  obtain ⟨digit, digits, rfl⟩ := List.exists_cons_of_ne_nil filled
  simp only [digitText, List.map_cons, List.cons_append, scanMinus]
  rw [if_neg]
  intro same
  have read := congrArg digit? same
  rw [digit?_digitText] at read
  cases read

theorem digitsOf_ne_nil (number : ℕ) : digitsOf number ≠ [] := by
  obtain ⟨first, rest, digits, _⟩ := digitsOf_head number
  simp [digits]

theorem scanMinus_number (negative : Bool) (number : ℕ) (rest : Text) :
    scanMinus ((if negative then [code '-'] else []) ++ digitText (digitsOf number) ++ rest) =
      (negative, digitText (digitsOf number) ++ rest) := by
  cases negative with
  | true =>
      simp only [↓reduceIte, List.cons_append, List.nil_append, scanMinus]
  | false =>
      simp only [Bool.false_eq_true, ↓reduceIte, List.nil_append]
      exact scanMinus_digitText _ _ (digitsOf_ne_nil number)

/-- An integer is read back. -/
theorem scanNumber_intText (floats : FloatText) (number : Int) {rest : Text}
    (stops : Stops rest) :
    scanNumber floats (intText number ++ rest) = some (.int number, rest) := by
  have minus := scanMinus_number (decide (number < 0)) number.natAbs rest
  have ends : ∀ letter later, rest = letter :: later → digit? letter = none :=
    fun letter later is => (stops letter later is).1
  simp only [decide_eq_true_eq] at minus
  simp only [scanNumber, intText, minus, scanWhole_digitsOf _ ends, Option.bind_eq_bind,
    Option.bind_some, scanFraction_stops stops, scanExponent_stops stops, and_self, ↓reduceIte,
    Option.pure_def, Option.some.injEq, Prod.mk.injEq, Json.int.injEq, and_true,
    decide_eq_true_eq]
  split <;> omega

theorem stops_exponentText (exponent : Int) (rest : Text) :
    ∀ letter later, exponentText exponent ++ rest = letter :: later → digit? letter = none := by
  intro letter later is
  simp only [exponentText, List.cons_append, List.cons.injEq] at is
  rw [← is.1]
  rfl

theorem numberOf_exponentDigits (exponent : Int) :
    numberOf (if exponent.natAbs < 10 then [0, Fin.ofNat _ exponent.natAbs]
      else digitsOf exponent.natAbs) = exponent.natAbs := by
  split
  · next small =>
      simp only [numberOf, List.foldl_cons, List.foldl_nil, Fin.ofNat]
      simp only [Fin.val_zero, Nat.mul_zero, Nat.zero_add]
      exact Nat.mod_eq_of_lt small
  · exact numberOf_digitsOf _

theorem scanExponent_exponentText (exponent : Int) {rest : Text} (stops : Stops rest) :
    scanExponent (exponentText exponent ++ rest) = (some exponent, rest) := by
  have sign : scanSign (code (if exponent < 0 then '-' else '+') ::
      (digitText (if exponent.natAbs < 10 then [0, Fin.ofNat _ exponent.natAbs]
        else digitsOf exponent.natAbs) ++ rest)) =
      (decide (exponent < 0), digitText (if exponent.natAbs < 10
        then [0, Fin.ofNat _ exponent.natAbs] else digitsOf exponent.natAbs) ++ rest) := by
    rw [scanSign]
    split_ifs <;> simp_all [code]
  have spanned := spanDigits_digitText (if exponent.natAbs < 10
    then [0, Fin.ofNat _ exponent.natAbs] else digitsOf exponent.natAbs)
    fun letter later is => (stops letter later is).1
  have filled : (if exponent.natAbs < 10 then [0, Fin.ofNat _ exponent.natAbs]
      else digitsOf exponent.natAbs) ≠ [] := by
    split
    · simp
    · exact digitsOf_ne_nil _
  simp only [exponentText, List.cons_append, scanExponent, sign, spanned, true_or, true_and, ne_eq,
    filled, not_false_eq_true, ↓reduceIte, numberOf_exponentDigits, decide_eq_true_eq]
  congr 2
  split <;> omega

theorem scanNumber_decimal (floats : FloatText) (decimal : Decimal)
    (fractional : decimal.fraction ≠ [] ∨ decimal.exponent.isSome) {rest : Text}
    (stops : Stops rest) :
    scanNumber floats (decimal.text ++ rest) =
      some (.float (floats.read decimal.negative decimal.whole decimal.fraction
        (decimal.exponent.getD 0)), rest) := by
  have exponent : scanExponent ((decimal.exponent.map exponentText).getD [] ++ rest) =
      (decimal.exponent, rest) := by
    cases decimal.exponent with
    | none => exact scanExponent_stops stops
    | some exponent => exact scanExponent_exponentText exponent stops
  have ends : ∀ letter later, (decimal.exponent.map exponentText).getD [] ++ rest =
      letter :: later → digit? letter = none := by
    cases decimal.exponent with
    | none => exact fun letter later is => (stops letter later is).1
    | some exponent => exact stops_exponentText exponent rest
  have fraction : scanFraction ((if decimal.fraction = [] then [] else
      code '.' :: digitText decimal.fraction) ++
        ((decimal.exponent.map exponentText).getD [] ++ rest)) =
      (decimal.fraction, (decimal.exponent.map exponentText).getD [] ++ rest) := by
    by_cases missing : decimal.fraction = []
    · obtain ⟨exponent, is⟩ := Option.isSome_iff_exists.mp (fractional.resolve_left (by simp [missing]))
      simp only [missing, ↓reduceIte, List.nil_append, is, Option.map_some, Option.getD_some,
        exponentText, List.cons_append, scanFraction]
      rw [if_neg (by simp [code])]
    · simp only [missing, ↓reduceIte, List.cons_append, scanFraction, spanDigits_digitText _ ends,
        ne_eq, not_false_eq_true, and_self]
  have digits : ∀ letter later, (if decimal.fraction = [] then [] else
      code '.' :: digitText decimal.fraction) ++
        ((decimal.exponent.map exponentText).getD [] ++ rest) = letter :: later →
      digit? letter = none := by
    by_cases absent : decimal.fraction = []
    · simpa only [absent, ↓reduceIte, List.nil_append] using ends
    · intro letter later is
      simp only [absent, ↓reduceIte, List.cons_append, List.cons.injEq] at is
      rw [← is.1]
      rfl
  have notInteger : ¬(decimal.fraction = [] ∧ decimal.exponent = none) := by
    rintro ⟨noFraction, noExponent⟩
    simp [noFraction, noExponent] at fractional
  have minus := scanMinus_number decimal.negative decimal.whole
    ((if decimal.fraction = [] then [] else code '.' :: digitText decimal.fraction) ++
      ((decimal.exponent.map exponentText).getD [] ++ rest))
  simp only [List.append_assoc] at minus
  simp only [scanNumber, Decimal.text, List.append_assoc, minus, scanWhole_digitsOf _ digits,
    Option.bind_eq_bind, Option.bind_some, fraction, exponent, notInteger, ↓reduceIte,
    Option.pure_def]

end CarbonLab
