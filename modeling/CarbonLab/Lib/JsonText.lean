import CarbonLab.Lib.JsonToken

/-!
# JSON text

`dumps` and `loads` as Python's `json` does them.  Reading back what was written gives
the value in normal form (`loads_dumps`): pairs of surrogates are merged and every
dictionary has its keys in order.
-/

namespace CarbonLab

/-! ## Writing -/

/-- Blanks between tokens. -/
def isBlank (letter : CodePoint) : Bool :=
  letter = code ' ' || letter = code '\t' || letter = code '\n' || letter = code '\r'

/-- The separators and the indentation of `json.dumps`. -/
structure JsonStyle where
  /-- The blanks behind a comma. -/
  afterComma : Text
  /-- The blanks behind a colon. -/
  afterColon : Text
  indent : Option ℕ
  afterComma_blank : ∀ letter ∈ afterComma, isBlank letter = true
  afterColon_blank : ∀ letter ∈ afterColon, isBlank letter = true

namespace JsonStyle

/-- `separators=(",", ":")` -/
def compact : JsonStyle := ⟨[], [], none, by simp, by simp⟩

/-- `json.dumps` without options. -/
def plain : JsonStyle := ⟨[code ' '], [code ' '], none, by simp [isBlank], by simp [isBlank]⟩

/-- `indent=2` -/
def indented : JsonStyle := ⟨[], [code ' '], some 2, by simp, by simp [isBlank]⟩

/-- What stands in front of an item at a level. -/
def gap (style : JsonStyle) (level : ℕ) : Text :=
  match style.indent with
  | none => []
  | some width => code '\n' :: List.replicate (width * level) (code ' ')

end JsonStyle

variable (floats : FloatText) (style : JsonStyle)

/-- The text of a double. -/
def floatText (bits : BitVec 64) : Text :=
  match doubleValue bits with
  | .nan => text "NaN"
  | .infinite negative => if negative then text "-Infinity" else text "Infinity"
  | .finite _ => (floats.repr bits).text

namespace Json

mutual

/-- The text of a value at a level of indentation.  The keys of a dictionary are
printed in their order, as `sort_keys=True` does. -/
def dump (level : ℕ) : Json → Text
  | .null => text "null"
  | .bool value => if value then text "true" else text "false"
  | .int value => intText value
  | .float bits => floatText floats bits
  | .str value => stringText value
  | .arr [] => [code '[', code ']']
  | .arr (item :: items) =>
      code '[' :: (style.gap (level + 1) ++ dump (level + 1) item ++
        dumpItems (level + 1) items ++ style.gap level ++ [code ']'])
  | .obj [] => [code '{', code '}']
  | .obj ((key, value) :: fields) =>
      code '{' :: (style.gap (level + 1) ++ stringText key ++ code ':' :: style.afterColon ++
        dump (level + 1) value ++ dumpFields (level + 1) fields ++ style.gap level ++ [code '}'])

/-- The items behind the first one. -/
def dumpItems (level : ℕ) : List Json → Text
  | [] => []
  | item :: items =>
      code ',' :: (style.afterComma ++ style.gap level ++ dump level item ++
        dumpItems level items)

/-- The fields behind the first one. -/
def dumpFields (level : ℕ) : List (Text × Json) → Text
  | [] => []
  | (key, value) :: fields =>
      code ',' :: (style.afterComma ++ style.gap level ++ stringText key ++
        code ':' :: style.afterColon ++ dump level value ++ dumpFields level fields)

end

/-- `json.dumps(value, sort_keys=True, ...)` -/
def dumps (value : Json) : Text := value.dump floats style 0

end Json

/-! ## Values with the same text -/

/-- A pair of surrogates is written as the code point that it stands for. -/
theorem escape_joinSurrogates {high low : CodePoint} (first : isHigh high = true)
    (second : isLow low = true) :
    escape (joinSurrogates high low) = escape high ++ escape low := by
  simp only [isHigh, isLow, Bool.and_eq_true, decide_eq_true_eq] at first second
  have value : (joinSurrogates high low).val =
      0x10000 + (high.val - 0xd800) * 0x400 + (low.val - 0xdc00) := by
    rw [joinSurrogates, Fin.ofNat]
    exact Nat.mod_eq_of_lt (by omega)
  have plain {point : CodePoint} (low : 127 ≤ point.val) : escape point =
      if point.val < 0x10000 then unicodeEscape point.val
      else unicodeEscape (0xd800 + (point.val - 0x10000) / 0x400) ++
        unicodeEscape (0xdc00 + (point.val - 0x10000) % 0x400) := by
    have quote : point ≠ code '"' := fun same => by simp [same, code] at low
    have slash : point ≠ code '\\' := fun same => by simp [same, code] at low
    rw [escape, if_neg quote, if_neg slash, if_neg (by omega), if_neg (by omega),
      if_neg (by omega), if_neg (by omega), if_neg (by omega), if_neg (by omega)]
  rw [plain (by omega), plain (by omega), plain (by omega), if_neg (by omega), if_pos (by omega),
    if_pos (by omega), value]
  have left : 0xd800 + (0x10000 + (high.val - 0xd800) * 0x400 + (low.val - 0xdc00) - 0x10000) /
      0x400 = high.val := by omega
  have right : 0xdc00 + (0x10000 + (high.val - 0xd800) * 0x400 + (low.val - 0xdc00) - 0x10000) %
      0x400 = low.val := by omega
  rw [left, right]

theorem stringText_mergeSurrogates (string : Text) :
    stringText (mergeSurrogates string) = stringText string := by
  have letters : (mergeSurrogates string).flatMap escape = string.flatMap escape := by
    induction string using mergeSurrogates.induct with
    | case1 high low rest surrogates ih =>
        rw [mergeSurrogates, if_pos surrogates]
        rw [Bool.and_eq_true] at surrogates
        simp only [List.flatMap_cons, ih, escape_joinSurrogates surrogates.1 surrogates.2,
          List.append_assoc]
    | case2 high low rest surrogates ih =>
        rw [mergeSurrogates, if_neg surrogates, List.flatMap_cons, ih]
        rfl
    | case3 short simple =>
        rcases short with _ | ⟨first, _ | ⟨second, rest⟩⟩
        · rfl
        · rfl
        · exact absurd rfl (simple first second rest)
  rw [stringText, letters, stringText]

/-- Values that are printed alike, in every style and at every level. -/
def Json.SameText (floats : FloatText) (first second : Json) : Prop :=
  ∀ style level, first.dump floats style level = second.dump floats style level

theorem Json.sameText_obj {floats : FloatText} {fields others : List (Text × Json)}
    (same : Fields.Related (Json.SameText floats) fields others) :
    (Json.obj fields).SameText floats (.obj others) := by
  intro style level
  have rest : ∀ {fields others : List (Text × Json)}, Fields.Related (Json.SameText floats) fields
      others → ∀ level, dumpFields floats style level fields =
        dumpFields floats style level others := by
    intro fields others same level
    induction same with
    | nil => rfl
    | @cons field other fields others first _ ih =>
        obtain ⟨key, value⟩ := field
        obtain ⟨key', value'⟩ := other
        obtain ⟨rfl, here⟩ := first
        rw [dumpFields, dumpFields, ih, here style level]
  cases same with
  | nil => rfl
  | @cons field other fields others first later =>
      obtain ⟨key, value⟩ := field
      obtain ⟨key', value'⟩ := other
      obtain ⟨rfl, here⟩ := first
      rw [dump, dump, rest later, here style (level + 1)]

/-! ## Reading -/

/-- A text without the blanks in front. -/
def skip (input : Text) : Text := input.dropWhile isBlank

/-- The constants of JSON text. -/
def constants : List (Text × Json) :=
  [(text "null", .null), (text "true", .bool true), (text "false", .bool false),
    (text "NaN", .float nanBits), (text "Infinity", .float (infinityBits false)),
    (text "-Infinity", .float (infinityBits true))]

/-- Read a constant. -/
def scanConstant (input : Text) : Option (Json × Text) :=
  constants.findSome? fun (word, value) =>
    if word.isPrefixOf input then some (value, input.drop word.length) else none

mutual

/-- Read a value. -/
def parseValue : ℕ → Text → Option (Json × Text)
  | 0, _ => none
  | _ + 1, [] => none
  | fuel + 1, letter :: rest =>
      if letter = code '"' then
        (scanString rest).map fun scanned => (.str scanned.1, scanned.2)
      else if letter = code '[' then
        if (skip rest).head? = some (code ']') then some (.arr [], (skip rest).tail)
        else (parseItems fuel (skip rest)).map fun parsed => (.arr parsed.1, parsed.2)
      else if letter = code '{' then
        if (skip rest).head? = some (code '}') then some (.obj [], (skip rest).tail)
        else (parseFields fuel (skip rest)).map fun parsed =>
          (.obj (Fields.ofPairs parsed.1), parsed.2)
      else (scanConstant (letter :: rest)).orElse fun _ => scanNumber floats (letter :: rest)

/-- Read the items of an array up to its closing bracket. -/
def parseItems : ℕ → Text → Option (List Json × Text)
  | 0, _ => none
  | fuel + 1, input =>
      (parseValue fuel input).bind fun item =>
        match skip item.2 with
        | [] => none
        | letter :: rest =>
            if letter = code ']' then some ([item.1], rest)
            else if letter = code ',' then
              (parseItems fuel (skip rest)).map fun parsed => (item.1 :: parsed.1, parsed.2)
            else none

/-- Read the fields of a dictionary up to its closing brace. -/
def parseFields : ℕ → Text → Option (List (Text × Json) × Text)
  | 0, _ => none
  | _ + 1, [] => none
  | fuel + 1, quote :: input =>
      if quote = code '"' then
        (scanString input).bind fun key =>
          match skip key.2 with
          | [] => none
          | colon :: rest =>
              if colon = code ':' then
                (parseValue fuel (skip rest)).bind fun value =>
                  match skip value.2 with
                  | [] => none
                  | letter :: rest =>
                      if letter = code '}' then some ([(key.1, value.1)], rest)
                      else if letter = code ',' then
                        (parseFields fuel (skip rest)).map fun parsed =>
                          ((key.1, value.1) :: parsed.1, parsed.2)
                      else none
              else none
      else none

end

/-- `json.loads` of a string. -/
def loads (input : Text) : Option Json :=
  if input.head? = some 0xfeff then none
  else
    (parseValue floats (input.length + 1) (skip input)).bind fun parsed =>
      if skip parsed.2 = [] then some parsed.1 else none

/-! ## The round trip -/

namespace Json

mutual

/-- A value as it is read back from its text. -/
def normalize : Json → Json
  | .null => .null
  | .bool value => .bool value
  | .int value => .int value
  | .float bits =>
      match doubleValue bits with
      | .nan => .float nanBits
      | .infinite negative => .float (infinityBits negative)
      | .finite _ => .float bits
  | .str value => .str (mergeSurrogates value)
  | .arr items => .arr (normalizeItems items)
  | .obj fields => .obj (Fields.ofPairs (normalizeFields fields))

/-- Items as they are read back. -/
def normalizeItems : List Json → List Json
  | [] => []
  | item :: items => normalize item :: normalizeItems items

/-- Fields as they are read back. -/
def normalizeFields : List (Text × Json) → List (Text × Json)
  | [] => []
  | (key, value) :: fields => (mergeSurrogates key, normalize value) :: normalizeFields fields

end

/-- A double is read back as a double. -/
theorem exists_float_normalize (bits : BitVec 64) : ∃ other, normalize (.float bits) = .float other := by
  rw [normalize]
  cases doubleValue bits with
  | nan => exact ⟨_, rfl⟩
  | infinite negative => exact ⟨_, rfl⟩
  | finite value => exact ⟨_, rfl⟩

theorem normalize_eq_null {value : Json} : value.normalize = .null ↔ value = .null := by
  cases value with
  | float bits =>
      obtain ⟨other, is⟩ := exists_float_normalize bits
      simp [is]
  | _ => simp [normalize]

theorem normalize_eq_str {value : Json} {string : Text} :
    value.normalize = .str string ↔ ∃ given, value = .str given ∧ mergeSurrogates given = string := by
  cases value with
  | float bits =>
      obtain ⟨other, is⟩ := exists_float_normalize bits
      simp [is]
  | _ => simp [normalize]

theorem int?_normalize (value : Json) : value.normalize.int? = value.int? := by
  cases value with
  | float bits =>
      obtain ⟨other, same⟩ := exists_float_normalize bits
      rw [same]
      rfl
  | _ => rfl

theorem normalizeItems_eq_map (items : List Json) :
    normalizeItems items = items.map normalize := by
  induction items with
  | nil => rfl
  | cons item items ih => rw [normalizeItems, ih, List.map_cons]

theorem normalizeFields_eq_map (fields : List (Text × Json)) :
    normalizeFields fields =
      fields.map fun field => (mergeSurrogates field.1, normalize field.2) := by
  induction fields with
  | nil => rfl
  | cons field fields ih => rw [normalizeFields, ih, List.map_cons]

mutual

/-- A bound on the calls that read a value back. -/
def weight : Json → ℕ
  | .arr items => 1 + weightItems items
  | .obj fields => 1 + weightFields fields
  | _ => 1

@[inherit_doc weight]
def weightItems : List Json → ℕ
  | [] => 0
  | item :: items => 1 + weight item + weightItems items

@[inherit_doc weight]
def weightFields : List (Text × Json) → ℕ
  | [] => 0
  | (_, value) :: fields => 1 + weight value + weightFields fields

end

end Json

theorem skip_append {blanks : Text} (blank : ∀ letter ∈ blanks, isBlank letter = true)
    (rest : Text) : skip (blanks ++ rest) = skip rest := by
  rw [skip, List.dropWhile_append_of_pos blank]
  rfl

theorem skip_cons {letter : CodePoint} (ink : isBlank letter = false) (rest : Text) :
    skip (letter :: rest) = letter :: rest := by
  rw [skip, List.dropWhile_cons_of_neg (by simp [ink])]

variable {style}

theorem JsonStyle.gap_blank (level : ℕ) : ∀ letter ∈ style.gap level, isBlank letter = true := by
  intro letter member
  unfold gap at member
  split at member
  · simp at member
  · rcases List.mem_cons.mp member with rfl | member
    · rfl
    · rw [List.eq_of_mem_replicate member]
      rfl

theorem stops_nil : Stops [] := by
  intro letter later is
  cases is

theorem stops_cons {letter : CodePoint} (rest : Text)
    (stops : digit? letter = none ∧ letter ≠ code '.' ∧ letter ≠ code 'e' ∧ letter ≠ code 'E') :
    Stops (letter :: rest) := by
  intro first later is
  rw [← (List.cons.inj is).1]
  exact stops

/-- Blanks, or what stands behind them, end a number. -/
theorem stops_blank {blanks rest : Text} (blank : ∀ letter ∈ blanks, isBlank letter = true)
    (stops : Stops rest) : Stops (blanks ++ rest) := by
  cases blanks with
  | nil => exact stops
  | cons letter later =>
      have is := blank letter List.mem_cons_self
      simp only [isBlank, Bool.or_eq_true, decide_eq_true_eq] at is
      apply stops_cons
      rcases is with ((rfl | rfl) | rfl) | rfl <;> decide

/-- A letter that a value can start with. -/
def Opens (letter : CodePoint) : Prop :=
  isBlank letter = false ∧ letter ≠ code ']'

theorem opens_digit {digit : ℕ} (small : digit < 10) : Opens (Fin.ofNat _ (48 + digit)) := by
  interval_cases digit <;> exact ⟨rfl, by decide⟩

theorem opens_number (negative : Bool) (number : ℕ) (rest : Text) :
    ∃ letter later, (if negative then [code '-'] else []) ++ digitText (digitsOf number) ++ rest =
      letter :: later ∧ Opens letter := by
  cases negative with
  | true => exact ⟨_, _, rfl, rfl, by decide⟩
  | false =>
      obtain ⟨first, later, digits, _⟩ := digitsOf_head number
      rw [digits]
      exact ⟨_, _, rfl, opens_digit first.isLt⟩

theorem opens_intText (number : Int) : ∃ letter later, intText number = letter :: later ∧
    Opens letter := by
  simpa [intText] using opens_number (decide (number < 0)) number.natAbs []

theorem opens_floatText (bits : BitVec 64) : ∃ letter later,
    floatText floats bits = letter :: later ∧ Opens letter := by
  unfold floatText
  split
  · exact ⟨_, _, rfl, rfl, by decide⟩
  · split <;> exact ⟨_, _, rfl, rfl, by decide⟩
  · simp only [Decimal.text, List.append_assoc]
    simpa only [List.append_assoc] using opens_number _ _ _

/-- The text of a value starts with a letter that is not blank and does not close an
array. -/
theorem Json.opens_dump (style : JsonStyle) (level : ℕ) (value : Json) :
    ∃ letter later, value.dump floats style level = letter :: later ∧ Opens letter := by
  cases value with
  | null => exact ⟨_, _, rfl, rfl, by decide⟩
  | bool value => cases value <;> exact ⟨_, _, rfl, rfl, by decide⟩
  | int value => exact opens_intText value
  | float bits => exact opens_floatText floats bits
  | str value => exact ⟨_, _, rfl, rfl, by decide⟩
  | arr items => cases items <;> exact ⟨_, _, rfl, rfl, by decide⟩
  | obj fields => rcases fields with _ | ⟨⟨_, _⟩, _⟩ <;> exact ⟨_, _, rfl, rfl, by decide⟩

/-- No constant starts like a number. -/
theorem scanConstant_number (negative : Bool) (number : ℕ) (rest : Text) :
    scanConstant ((if negative then [code '-'] else []) ++ digitText (digitsOf number) ++ rest) =
      none := by
  obtain ⟨⟨first, small⟩, later, digits, _⟩ := digitsOf_head number
  rw [digits]
  simp only [digitText, List.map_cons]
  clear digits
  cases negative <;> interval_cases first <;> rfl

theorem parseValue_number {fuel : ℕ} (positive : 0 < fuel) (negative : Bool) (number : ℕ)
    (rest : Text) :
    parseValue floats fuel ((if negative then [code '-'] else []) ++ digitText (digitsOf number) ++
        rest) =
      scanNumber floats ((if negative then [code '-'] else []) ++ digitText (digitsOf number) ++
        rest) := by
  obtain ⟨fuel, rfl⟩ := Nat.exists_eq_add_one_of_ne_zero positive.ne'
  have constant := scanConstant_number negative number rest
  obtain ⟨letter, later, starts, _⟩ := opens_number negative number rest
  have token : letter ≠ code '"' ∧ letter ≠ code '[' ∧ letter ≠ code '{' := by
    obtain ⟨⟨first, small⟩, others, digits, _⟩ := digitsOf_head number
    rw [digits] at starts
    simp only [digitText, List.map_cons] at starts
    cases negative with
    | true =>
        rw [← (List.cons.inj starts).1]
        decide
    | false =>
        rw [← (List.cons.inj starts).1]
        clear digits starts
        interval_cases first <;> decide
  rw [starts] at constant ⊢
  rw [parseValue, if_neg token.1, if_neg token.2.1, if_neg token.2.2, constant]
  rfl

theorem parseValue_constant {fuel : ℕ} (positive : 0 < fuel) {word : Text} {value : Json}
    (known : (word, value) ∈ constants) (rest : Text) :
    parseValue floats fuel (word ++ rest) = some (value, rest) := by
  obtain ⟨fuel, rfl⟩ := Nat.exists_eq_add_one_of_ne_zero positive.ne'
  simp only [constants, List.mem_cons, Prod.mk.injEq, List.not_mem_nil, or_false] at known
  rcases known with ⟨rfl, rfl⟩ | ⟨rfl, rfl⟩ | ⟨rfl, rfl⟩ | ⟨rfl, rfl⟩ | ⟨rfl, rfl⟩ | ⟨rfl, rfl⟩ <;>
    rfl

theorem parseValue_floatText {fuel : ℕ} (positive : 0 < fuel) (bits : BitVec 64) {rest : Text}
    (stops : Stops rest) :
    parseValue floats fuel (floatText floats bits ++ rest) =
      some ((Json.float bits).normalize, rest) := by
  rw [floatText, Json.normalize]
  cases value : doubleValue bits with
  | nan => exact parseValue_constant floats positive (by simp [constants]) rest
  | infinite negative =>
      cases negative with
      | true => exact parseValue_constant floats positive (by simp [constants]) rest
      | false => exact parseValue_constant floats positive (by simp [constants]) rest
  | finite number =>
      have read := floats.read_repr bits number value
      have scanned := scanNumber_decimal floats (floats.repr bits) (floats.fractional bits) stops
      simp only [Decimal.text, List.append_assoc] at scanned ⊢
      simp only [← List.append_assoc] at scanned ⊢
      rw [read] at scanned
      have parsed := parseValue_number floats positive (floats.repr bits).negative
        (floats.repr bits).whole ((if (floats.repr bits).fraction = [] then [] else
          code '.' :: digitText (floats.repr bits).fraction) ++
            (((floats.repr bits).exponent.map exponentText).getD [] ++ rest))
      simp only [← List.append_assoc] at parsed
      rw [parsed, scanned]

theorem parseValue_stringText {fuel : ℕ} (positive : 0 < fuel) (string rest : Text) :
    parseValue floats fuel (stringText string ++ rest) =
      some (.str (mergeSurrogates string), rest) := by
  obtain ⟨fuel, rfl⟩ := Nat.exists_eq_add_one_of_ne_zero positive.ne'
  rw [stringText, List.cons_append, List.append_assoc, parseValue, if_pos rfl, List.cons_append,
    List.nil_append, scanString_escape]
  rfl

variable (style)

theorem Json.skip_dump (level : ℕ) (value : Json) (rest : Text) :
    skip (value.dump floats style level ++ rest) = value.dump floats style level ++ rest := by
  obtain ⟨letter, later, starts, opens⟩ := value.opens_dump floats style level
  rw [starts, List.cons_append, skip_cons opens.1]

theorem skip_stringText (string rest : Text) :
    skip (stringText string ++ rest) = stringText string ++ rest := by
  rw [stringText, List.cons_append, skip_cons (by rfl)]

/-- The text of a value is read back, whatever stands behind it. -/
def Json.ReadsBack (value : Json) : Prop :=
  ∀ (fuel level : ℕ) (rest : Text), value.weight ≤ fuel → Stops rest →
    parseValue floats fuel (value.dump floats style level ++ rest) = some (value.normalize, rest)

variable {floats style}

theorem parseItems_dump {first : Json} {items : List Json}
    (reads : first.ReadsBack floats style) (later : ∀ item ∈ items, item.ReadsBack floats style)
    {fuel : ℕ} (enough : 1 + first.weight + Json.weightItems items ≤ fuel) (level outer : ℕ)
    (rest : Text) :
    parseItems floats fuel (first.dump floats style level ++
        (Json.dumpItems floats style level items ++ (style.gap outer ++ code ']' :: rest))) =
      some (first.normalize :: Json.normalizeItems items, rest) := by
  induction items generalizing first fuel with
  | nil =>
      obtain ⟨fuel, rfl⟩ := Nat.exists_eq_add_one_of_ne_zero (show fuel ≠ 0 by omega)
      have stops : Stops (style.gap outer ++ code ']' :: rest) :=
        stops_blank (style.gap_blank outer) (stops_cons rest (by decide))
      rw [Json.dumpItems, List.nil_append, parseItems,
        reads fuel level _ (by simp only [Json.weightItems] at enough; omega) stops,
        Option.bind_some, skip_append (style.gap_blank outer), skip_cons (by rfl)]
      rfl
  | cons item items ih =>
      obtain ⟨fuel, rfl⟩ := Nat.exists_eq_add_one_of_ne_zero (show fuel ≠ 0 by omega)
      simp only [Json.weightItems] at enough
      have others := ih (later item List.mem_cons_self)
        (fun item member => later item (List.mem_cons_of_mem _ member))
        (show 1 + item.weight + Json.weightItems items ≤ fuel by omega)
      rw [Json.dumpItems, List.cons_append, parseItems, reads fuel level _ (by omega)
        (stops_cons _ (by decide)), Option.bind_some, skip_cons (by rfl)]
      simp only [List.append_assoc, skip_append style.afterComma_blank,
        skip_append (style.gap_blank level), Json.skip_dump, others]
      rfl

theorem parseFields_dump {key : Text} {first : Json} {fields : List (Text × Json)}
    (reads : first.ReadsBack floats style)
    (later : ∀ field ∈ fields, field.2.ReadsBack floats style)
    {fuel : ℕ} (enough : 1 + first.weight + Json.weightFields fields ≤ fuel) (level outer : ℕ)
    (rest : Text) :
    parseFields floats fuel (stringText key ++ (code ':' :: (style.afterColon ++
        (first.dump floats style level ++ (Json.dumpFields floats style level fields ++
          (style.gap outer ++ code '}' :: rest)))))) =
      some ((mergeSurrogates key, first.normalize) :: Json.normalizeFields fields, rest) := by
  induction fields generalizing key first fuel with
  | nil =>
      obtain ⟨fuel, rfl⟩ := Nat.exists_eq_add_one_of_ne_zero (show fuel ≠ 0 by omega)
      have stops : Stops (style.gap outer ++ code '}' :: rest) :=
        stops_blank (style.gap_blank outer) (stops_cons rest (by decide))
      have value := reads fuel level _ (by simp only [Json.weightFields] at enough; omega) stops
      rw [stringText, List.cons_append, List.append_assoc, parseFields, if_pos rfl,
        List.cons_append, List.nil_append, scanString_escape, Option.bind_some,
        skip_cons (by rfl), Json.dumpFields, List.nil_append]
      simp only [↓reduceIte]
      rw [skip_append style.afterColon_blank, Json.skip_dump, value, Option.bind_some,
        skip_append (style.gap_blank outer), skip_cons (by rfl)]
      rfl
  | cons field fields ih =>
      obtain ⟨fuel, rfl⟩ := Nat.exists_eq_add_one_of_ne_zero (show fuel ≠ 0 by omega)
      obtain ⟨key', item⟩ := field
      simp only [Json.weightFields] at enough
      have others (key : Text) := @ih key item (later (key', item) List.mem_cons_self)
        (fun field member => later field (List.mem_cons_of_mem _ member)) fuel (by omega)
      have value := reads fuel level (Json.dumpFields floats style level ((key', item) :: fields) ++
        (style.gap outer ++ code '}' :: rest)) (by omega) (stops_cons _ (by decide))
      rw [stringText, List.cons_append, List.append_assoc, parseFields, if_pos rfl,
        List.cons_append, List.nil_append, scanString_escape, Option.bind_some,
        skip_cons (by rfl)]
      simp only [↓reduceIte]
      rw [skip_append style.afterColon_blank, Json.skip_dump, value, Option.bind_some,
        Json.dumpFields, List.cons_append, skip_cons (by rfl)]
      simp only [List.append_assoc, List.cons_append, skip_append style.afterComma_blank,
        skip_append (style.gap_blank level), skip_stringText, others]
      rfl

theorem Json.readsBack (value : Json) : value.ReadsBack floats style := by
  induction value using Json.induct with
  | null =>
      intro fuel level rest enough _
      exact parseValue_constant floats enough (by simp [constants, dump, normalize]) rest
  | bool value =>
      intro fuel level rest enough _
      cases value <;>
        exact parseValue_constant floats enough (by simp [constants, dump, normalize]) rest
  | int number =>
      intro fuel level rest enough stops
      have parsed := parseValue_number floats enough (decide (number < 0)) number.natAbs rest
      have scanned := scanNumber_intText floats number stops
      simp only [decide_eq_true_eq] at parsed
      rw [intText] at scanned
      rw [dump, intText, parsed, scanned, normalize]
  | float bits =>
      intro fuel level rest enough stops
      exact parseValue_floatText floats enough bits stops
  | str string =>
      intro fuel level rest enough _
      exact parseValue_stringText floats enough string rest
  | arr items reads =>
      intro fuel level rest enough _
      rw [weight] at enough
      obtain ⟨fuel, rfl⟩ := Nat.exists_eq_add_one_of_ne_zero (show fuel ≠ 0 by omega)
      cases items with
      | nil => rfl
      | cons item items =>
          simp only [weightItems] at enough
          obtain ⟨letter, behind, starts, opens⟩ := item.opens_dump floats style (level + 1)
          have parsed := parseItems_dump (reads item List.mem_cons_self)
            (fun item member => reads item (List.mem_cons_of_mem _ member))
            (show 1 + item.weight + weightItems items ≤ fuel by omega) (level + 1) level rest
          have open_ : ((item.dump floats style (level + 1) ++
              (dumpItems floats style (level + 1) items ++
                (style.gap level ++ code ']' :: rest))).head? = some (code ']')) = False := by
            simp [starts, opens.2]
          rw [dump, List.cons_append, parseValue, if_neg (by decide), if_pos rfl]
          simp only [List.append_assoc, List.cons_append, List.nil_append,
            skip_append (style.gap_blank (level + 1)), skip_dump, open_, ↓reduceIte, parsed]
          rfl
  | obj fields reads =>
      intro fuel level rest enough _
      rw [weight] at enough
      obtain ⟨fuel, rfl⟩ := Nat.exists_eq_add_one_of_ne_zero (show fuel ≠ 0 by omega)
      rcases fields with _ | ⟨⟨key, item⟩, fields⟩
      · rfl
      · simp only [weightFields] at enough
        have parsed := @parseFields_dump floats style key item fields
          (reads (key, item) List.mem_cons_self)
          (fun field member => reads field (List.mem_cons_of_mem _ member)) fuel
          (by omega) (level + 1) level rest
        rw [dump, List.cons_append, parseValue, if_neg (by decide), if_neg (by decide),
          if_pos rfl]
        simp only [List.append_assoc, List.cons_append, List.nil_append,
          skip_append (style.gap_blank (level + 1)), skip_stringText, parsed]
        rw [if_neg (by simp [stringText, code])]
        rfl

namespace Json

theorem one_le_length_dump (level : ℕ) (value : Json) :
    1 ≤ (value.dump floats style level).length := by
  obtain ⟨letter, later, starts, _⟩ := value.opens_dump floats style level
  simp [starts]

theorem weightItems_le_length {items : List Json}
    (bounds : ∀ item ∈ items, ∀ level, item.weight ≤ (item.dump floats style level).length)
    (level : ℕ) : weightItems items ≤ (dumpItems floats style level items).length := by
  induction items with
  | nil => rfl
  | cons item items ih =>
      have first := bounds item List.mem_cons_self level
      have rest := ih fun item member => bounds item (List.mem_cons_of_mem _ member)
      simp only [weightItems, dumpItems, List.length_cons, List.length_append]
      omega

theorem weightFields_le_length {fields : List (Text × Json)}
    (bounds : ∀ field ∈ fields, ∀ level,
      field.2.weight ≤ (field.2.dump floats style level).length)
    (level : ℕ) : weightFields fields ≤ (dumpFields floats style level fields).length := by
  induction fields with
  | nil => rfl
  | cons field fields ih =>
      have first := bounds field List.mem_cons_self level
      have rest := ih fun field member => bounds field (List.mem_cons_of_mem _ member)
      simp only [weightFields, dumpFields, List.length_cons, List.length_append]
      omega

/-- Reading a value back takes no more calls than its text has letters. -/
theorem weight_le_length (level : ℕ) (value : Json) :
    value.weight ≤ (value.dump floats style level).length := by
  induction value using Json.induct generalizing level with
  | arr items bounds =>
      cases items with
      | nil => simp [weight, weightItems, dump]
      | cons item items =>
          have first := bounds item List.mem_cons_self (level + 1)
          have rest := weightItems_le_length
            (fun item member => bounds item (List.mem_cons_of_mem _ member)) (level + 1)
          simp only [weight, weightItems, dump, List.length_cons, List.length_append]
          omega
  | obj fields bounds =>
      cases fields with
      | nil => simp [weight, weightFields, dump]
      | cons field fields =>
          have first := bounds field List.mem_cons_self (level + 1)
          have rest := weightFields_le_length
            (fun field member => bounds field (List.mem_cons_of_mem _ member)) (level + 1)
          simp only [weight, weightFields, dump, List.length_cons, List.length_append]
          omega
  | _ => exact one_le_length_dump _ _

end Json

/-! ## The letters of JSON text -/

/-- Printable ASCII. -/
def Printable (letter : CodePoint) : Prop :=
  32 ≤ letter.val ∧ letter.val < 127

instance (letter : CodePoint) : Decidable (Printable letter) := by
  unfold Printable
  infer_instance

theorem printable_digitText {digits : List (Fin 10)} : ∀ letter ∈ digitText digits,
    Printable letter := by
  intro letter member
  obtain ⟨digit, _, rfl⟩ := List.mem_map.mp member
  have := digit.isLt
  simp only [Printable, Fin.ofNat]
  omega

theorem printable_sign {negative : Prop} [Decidable negative] :
    ∀ letter ∈ (if negative then [code '-'] else []), Printable letter := by
  intro letter member
  split at member
  · rw [List.mem_singleton.mp member]
    decide
  · simp at member

theorem printable_intText (number : Int) : ∀ letter ∈ intText number, Printable letter := by
  intro letter member
  rcases List.mem_append.mp member with sign | digits
  · exact printable_sign letter sign
  · exact printable_digitText letter digits

theorem printable_exponentText (exponent : Int) :
    ∀ letter ∈ exponentText exponent, Printable letter := by
  intro letter member
  simp only [exponentText, List.mem_cons] at member
  rcases member with rfl | rfl | digits
  · decide
  · split <;> decide
  · exact printable_digitText letter digits

theorem printable_decimal (decimal : Decimal) : ∀ letter ∈ decimal.text, Printable letter := by
  intro letter member
  simp only [Decimal.text, List.mem_append] at member
  rcases member with ((sign | digits) | fraction) | exponent
  · exact printable_sign letter sign
  · exact printable_digitText letter digits
  · split at fraction
    · simp at fraction
    · rcases List.mem_cons.mp fraction with rfl | digits
      · decide
      · exact printable_digitText letter digits
  · cases is : decimal.exponent with
    | none => simp [is] at exponent
    | some value =>
        rw [is] at exponent
        exact printable_exponentText value letter exponent

theorem printable_text {literal : String} (printable : (text literal).all (decide <| Printable ·)) :
    ∀ letter ∈ text literal, Printable letter := by
  intro letter member
  simpa using List.all_eq_true.mp printable letter member

theorem printable_floatText (bits : BitVec 64) :
    ∀ letter ∈ floatText floats bits, Printable letter := by
  unfold floatText
  split
  · exact printable_text (by decide)
  · split <;> exact printable_text (by decide)
  · exact printable_decimal _

theorem printable_hexDigit {number : ℕ} (small : number < 16) : Printable (hexDigit number) := by
  interval_cases number <;> decide

theorem printable_unicodeEscape (unit : ℕ) : ∀ letter ∈ unicodeEscape unit, Printable letter := by
  intro letter member
  have below (number : ℕ) : number % 16 < 16 := Nat.mod_lt _ (by decide)
  simp only [unicodeEscape, List.mem_cons, List.not_mem_nil, or_false] at member
  rcases member with rfl | rfl | rfl | rfl | rfl | rfl
  · decide
  · decide
  · exact printable_hexDigit (below _)
  · exact printable_hexDigit (below _)
  · exact printable_hexDigit (below _)
  · exact printable_hexDigit (below _)

theorem printable_escape (point : CodePoint) : ∀ letter ∈ escape point, Printable letter := by
  have pair {letter : Char} (printable : Printable (code letter)) :
      ∀ point ∈ [code '\\', code letter], Printable point := by
    intro point member
    simp only [List.mem_cons, List.not_mem_nil, or_false] at member
    rcases member with rfl | rfl
    · decide
    · exact printable
  unfold escape
  split_ifs with _ _ _ _ _ _ _ plain small
  any_goals exact pair (by decide)
  · intro letter member
    rw [List.mem_singleton.mp member]
    exact plain
  · exact printable_unicodeEscape _
  · intro letter member
    rcases List.mem_append.mp member with first | second
    · exact printable_unicodeEscape _ letter first
    · exact printable_unicodeEscape _ letter second

theorem printable_stringText (string : Text) : ∀ letter ∈ stringText string, Printable letter := by
  intro letter member
  simp only [stringText, List.mem_cons, List.mem_append, List.mem_flatMap, List.not_mem_nil,
    or_false] at member
  rcases member with rfl | ⟨point, _, member⟩ | rfl
  · decide
  · exact printable_escape point letter member
  · decide

/-- The letters that a style puts between tokens. -/
def JsonStyle.Uses (style : JsonStyle) (letter : CodePoint) : Prop :=
  letter ∈ style.afterComma ∨ letter ∈ style.afterColon ∨ ∃ level, letter ∈ style.gap level

theorem JsonStyle.Uses.blank {letter : CodePoint} (uses : style.Uses letter) :
    isBlank letter = true := by
  rcases uses with comma | colon | ⟨level, gap⟩
  · exact style.afterComma_blank letter comma
  · exact style.afterColon_blank letter colon
  · exact style.gap_blank level letter gap

theorem JsonStyle.not_uses_compact (letter : CodePoint) : ¬ compact.Uses letter := by
  rintro (comma | colon | ⟨level, gap⟩)
  · simp [compact] at comma
  · simp [compact] at colon
  · simp [compact, JsonStyle.gap] at gap

namespace Json

theorem letters_dumpItems {items : List Json} (level : ℕ)
    (letters : ∀ item ∈ items, ∀ level, ∀ letter ∈ item.dump floats style level,
      Printable letter ∨ style.Uses letter) :
    ∀ letter ∈ dumpItems floats style level items, Printable letter ∨ style.Uses letter := by
  induction items with
  | nil => simp [dumpItems]
  | cons item items ih =>
      intro letter member
      simp only [dumpItems, List.mem_cons, List.mem_append] at member
      rcases member with rfl | ((comma | gap) | first) | rest
      · exact Or.inl (by decide)
      · exact Or.inr (Or.inl comma)
      · exact Or.inr (Or.inr (Or.inr ⟨level, gap⟩))
      · exact letters item List.mem_cons_self level letter first
      · exact ih (fun item member => letters item (List.mem_cons_of_mem _ member)) letter rest

theorem letters_dumpFields {fields : List (Text × Json)} (level : ℕ)
    (letters : ∀ field ∈ fields, ∀ level, ∀ letter ∈ field.2.dump floats style level,
      Printable letter ∨ style.Uses letter) :
    ∀ letter ∈ dumpFields floats style level fields, Printable letter ∨ style.Uses letter := by
  induction fields with
  | nil => simp [dumpFields]
  | cons field fields ih =>
      intro letter member
      simp only [dumpFields, List.mem_cons, List.mem_append] at member
      rcases member with rfl | ((((comma | gap) | key) | rfl | colon) | first) | rest
      · exact Or.inl (by decide)
      · exact Or.inr (Or.inl comma)
      · exact Or.inr (Or.inr (Or.inr ⟨level, gap⟩))
      · exact Or.inl (printable_stringText _ letter key)
      · exact Or.inl (by decide)
      · exact Or.inr (Or.inr (Or.inl colon))
      · exact letters field List.mem_cons_self level letter first
      · exact ih (fun field member => letters field (List.mem_cons_of_mem _ member)) letter rest

/-- Apart from the blanks of the style, JSON text is printable ASCII. -/
theorem letters_dump (level : ℕ) (value : Json) :
    ∀ letter ∈ value.dump floats style level, Printable letter ∨ style.Uses letter := by
  induction value using Json.induct generalizing level with
  | null => exact fun letter member => Or.inl (printable_text (by decide) letter member)
  | bool value =>
      cases value <;>
        exact fun letter member => Or.inl (printable_text (by decide) letter member)
  | int number => exact fun letter member => Or.inl (printable_intText number letter member)
  | float bits => exact fun letter member => Or.inl (printable_floatText bits letter member)
  | str string => exact fun letter member => Or.inl (printable_stringText string letter member)
  | arr items letters =>
      intro letter member
      cases items with
      | nil =>
          simp only [dump, List.mem_cons, List.not_mem_nil, or_false] at member
          rcases member with rfl | rfl <;> exact Or.inl (by decide)
      | cons item items =>
          simp only [dump, List.mem_cons, List.mem_append, List.not_mem_nil, or_false] at member
          rcases member with rfl | (((gap | first) | rest) | gap) | rfl
          · exact Or.inl (by decide)
          · exact Or.inr (Or.inr (Or.inr ⟨_, gap⟩))
          · exact letters item List.mem_cons_self _ letter first
          · exact letters_dumpItems _
              (fun item member => letters item (List.mem_cons_of_mem _ member)) letter rest
          · exact Or.inr (Or.inr (Or.inr ⟨_, gap⟩))
          · exact Or.inl (by decide)
  | obj fields letters =>
      intro letter member
      rcases fields with _ | ⟨⟨key, item⟩, fields⟩
      · simp only [dump, List.mem_cons, List.not_mem_nil, or_false] at member
        rcases member with rfl | rfl <;> exact Or.inl (by decide)
      · simp only [dump, List.mem_cons, List.mem_append, List.not_mem_nil, or_false] at member
        rcases member with rfl | (((((gap | key) | rfl | colon) | first) | rest) | gap) | rfl
        · exact Or.inl (by decide)
        · exact Or.inr (Or.inr (Or.inr ⟨_, gap⟩))
        · exact Or.inl (printable_stringText _ letter key)
        · exact Or.inl (by decide)
        · exact Or.inr (Or.inr (Or.inl colon))
        · exact letters (_, item) List.mem_cons_self _ letter first
        · exact letters_dumpFields _
            (fun field member => letters field (List.mem_cons_of_mem _ member)) letter rest
        · exact Or.inr (Or.inr (Or.inr ⟨_, gap⟩))
        · exact Or.inl (by decide)

/-- Compact JSON text is printable ASCII. -/
theorem printable_dumps (value : Json) :
    ∀ letter ∈ value.dumps floats .compact, Printable letter := by
  intro letter member
  exact (letters_dump 0 value letter member).resolve_right (JsonStyle.not_uses_compact letter)

/-- JSON text is ASCII. -/
theorem ascii_dumps (value : Json) : ∀ letter ∈ value.dumps floats style, letter.val < 128 := by
  intro letter member
  rcases letters_dump 0 value letter member with printable | uses
  · have := printable.2
    omega
  · have blank := uses.blank
    simp only [isBlank, Bool.or_eq_true, decide_eq_true_eq] at blank
    rcases blank with ((rfl | rfl) | rfl) | rfl <;> decide

/-- What was written is read back, with blanks behind it or without. -/
theorem loads_dumps (value : Json) {blanks : Text}
    (blank : ∀ letter ∈ blanks, isBlank letter = true) :
    loads floats (value.dumps floats style ++ blanks) = some value.normalize := by
  obtain ⟨letter, later, starts, _⟩ := value.opens_dump floats style 0
  have stops : Stops blanks := by simpa using stops_blank blank stops_nil
  have enough : value.weight ≤ (value.dumps floats style ++ blanks).length + 1 := by
    have bound : value.weight ≤ (value.dump floats style 0).length := value.weight_le_length 0
    rw [List.length_append]
    exact le_add_right (le_add_right bound)
  have noMark : (value.dumps floats style ++ blanks).head? ≠ some 0xfeff := by
    have ascii : ∀ letter ∈ value.dumps floats style, letter.val < 128 := value.ascii_dumps
    rw [dumps, starts] at ascii ⊢
    intro mark
    simp only [List.cons_append, List.head?_cons, Option.some.injEq] at mark
    have small := ascii letter List.mem_cons_self
    rw [mark] at small
    exact absurd small (by decide)
  have parsed : parseValue floats ((value.dumps floats style ++ blanks).length + 1)
      (value.dumps floats style ++ blanks) = some (value.normalize, blanks) :=
    value.readsBack _ 0 blanks enough stops
  have opened : skip (value.dumps floats style ++ blanks) = value.dumps floats style ++ blanks :=
    value.skip_dump floats style 0 blanks
  have skipped : skip blanks = [] := by simpa [skip] using skip_append blank []
  rw [loads, if_neg noMark, opened, parsed, Option.bind_some, if_pos skipped]

/-! ## Values in normal form -/

theorem nanBits_normal : (float nanBits).normalize = float nanBits := by
  decide

theorem infinityBits_normal (negative : Bool) :
    (float (infinityBits negative)).normalize = float (infinityBits negative) := by
  cases negative <;> decide

theorem normalize_idem (value : Json) : value.normalize.normalize = value.normalize := by
  induction value using Json.induct with
  | float bits =>
      rw [normalize]
      cases is : doubleValue bits with
      | nan => exact nanBits_normal
      | infinite negative => exact infinityBits_normal negative
      | finite number => simp only [normalize, is]
  | str string => rw [normalize, normalize, mergeSurrogates_idem]
  | arr items idem =>
      rw [normalize, normalize, normalizeItems_eq_map, normalizeItems_eq_map, List.map_map]
      congr 1
      exact List.map_congr_left idem
  | obj fields idem =>
      have normal : ∀ field ∈ Fields.ofPairs (normalizeFields fields),
          (mergeSurrogates field.1, normalize field.2) = field := by
        rw [normalizeFields_eq_map]
        refine Fields.forall_mem_ofPairs ?_
        intro field mapped
        obtain ⟨field, member, rfl⟩ := List.mem_map.mp mapped
        simp only [mergeSurrogates_idem, idem field member]
      have same : normalizeFields (Fields.ofPairs (normalizeFields fields)) =
          Fields.ofPairs (normalizeFields fields) := by
        rw [normalizeFields_eq_map]
        exact (List.map_congr_left normal).trans (List.map_id' _)
      rw [normalize, normalize, same, Fields.ofPairs_of_ordered (Fields.ordered_ofPairs _)]
  | _ => rfl

/-- A value that is read back as it was. -/
def Plain (value : Json) : Prop := value.normalize = value

instance (value : Json) : Decidable value.Plain := by
  unfold Plain
  infer_instance

theorem plain_normalize (value : Json) : value.normalize.Plain := value.normalize_idem

@[simp] theorem plain_null : Plain .null := rfl

@[simp] theorem plain_bool (value : Bool) : Plain (.bool value) := rfl

@[simp] theorem plain_int (value : Int) : Plain (.int value) := rfl

@[simp] theorem plain_str {string : Text} :
    Plain (.str string) ↔ mergeSurrogates string = string := by
  rw [Plain, normalize, str.injEq]

theorem plain_arr {items : List Json} (plain : ∀ item ∈ items, item.Plain) :
    Plain (.arr items) := by
  rw [Plain, normalize, normalizeItems_eq_map, arr.injEq]
  exact (List.map_congr_left plain).trans (List.map_id _)

theorem plain_obj {fields : List (Text × Json)} (ordered : Fields.Ordered fields)
    (keys : ∀ field ∈ fields, mergeSurrogates field.1 = field.1)
    (values : ∀ field ∈ fields, field.2.Plain) : Plain (.obj fields) := by
  have same : normalizeFields fields = fields := by
    rw [normalizeFields_eq_map]
    refine (List.map_congr_left ?_).trans (List.map_id _)
    intro field member
    rw [keys field member, values field member, id]
  rw [Plain, normalize, same, Fields.ofPairs_of_ordered ordered]

/-- The items of an array that is read back as it was. -/
theorem Plain.item {items : List Json} (plain : Plain (.arr items)) :
    ∀ item ∈ items, item.Plain := by
  rw [Plain, normalize, normalizeItems_eq_map, arr.injEq] at plain
  intro item member
  obtain ⟨index, bound, rfl⟩ := List.mem_iff_getElem.mp member
  have same : items[index].normalize = items[index] := by
    simpa [List.getElem?_eq_getElem bound] using congrArg (·[index]?) plain
  exact same

/-- The fields of a dictionary that is read back as it was. -/
theorem Plain.field {fields : List (Text × Json)} (plain : Plain (.obj fields)) :
    Fields.Ordered fields ∧
      ∀ field ∈ fields, mergeSurrogates field.1 = field.1 ∧ field.2.Plain := by
  rw [Plain, normalize, obj.injEq] at plain
  refine ⟨plain ▸ Fields.ordered_ofPairs _, ?_⟩
  rw [← plain, normalizeFields_eq_map]
  refine Fields.forall_mem_ofPairs ?_
  intro field mapped
  obtain ⟨field, member, rfl⟩ := List.mem_map.mp mapped
  exact ⟨mergeSurrogates_idem _, field.2.plain_normalize⟩

/-- What stands under a key of a dictionary that is read back as it was. -/
theorem Plain.get? {value item : Json} (plain : value.Plain) {key : Text}
    (found : value.get? key = some item) : item.Plain := by
  obtain ⟨fields, is, found⟩ := Option.bind_eq_some_iff.mp found
  rw [obj?_eq_some] at is
  subst is
  exact (plain.field.2 _ (Fields.mem_of_get? found)).2

theorem Plain.get {value : Json} (plain : value.Plain) (key : Text) : (value.get key).Plain := by
  rw [Json.get, getD]
  cases found : value.get? key with
  | none => rfl
  | some item => exact plain.get? found

theorem Plain.set {fields : List (Text × Json)} (plain : Plain (.obj fields)) {key : Text}
    {value : Json} (keyPlain : mergeSurrogates key = key) (valuePlain : value.Plain) :
    Plain (.obj (Fields.set key value fields)) := by
  obtain ⟨ordered, parts⟩ := plain.field
  have all : ∀ field ∈ Fields.set key value fields,
      mergeSurrogates field.1 = field.1 ∧ field.2.Plain := by
    intro field member
    rcases Fields.mem_set member with rfl | old
    · exact ⟨keyPlain, valuePlain⟩
    · exact parts field old
  exact plain_obj ordered.set (fun field member => (all field member).1)
    (fun field member => (all field member).2)

theorem Plain.set_ {value item : Json} (plain : value.Plain) {key : Text}
    (keyPlain : mergeSurrogates key = key) (itemPlain : item.Plain) :
    (value.set key item).Plain := by
  cases value with
  | obj fields => exact plain.set keyPlain itemPlain
  | _ => exact plain

theorem Plain.erase {value : Json} (plain : value.Plain) (key : Text) : (value.erase key).Plain := by
  cases value with
  | obj fields =>
      obtain ⟨ordered, parts⟩ := plain.field
      exact plain_obj ordered.erase
        (fun field member => (parts field (List.mem_of_mem_filter member)).1)
        (fun field member => (parts field (List.mem_of_mem_filter member)).2)
  | _ => exact plain

theorem plain_ofPairs {pairs : List (Text × Json)}
    (all : ∀ pair ∈ pairs, mergeSurrogates pair.1 = pair.1 ∧ pair.2.Plain) :
    Plain (.obj (Fields.ofPairs pairs)) :=
  plain_obj (Fields.ordered_ofPairs pairs)
    (Fields.forall_mem_ofPairs fun pair member => (all pair member).1)
    (Fields.forall_mem_ofPairs fun pair member => (all pair member).2)

/-- What stands under a key after a round trip, in a dictionary with plain keys. -/
theorem get?_normalize {fields : List (Text × Json)} (ordered : Fields.Ordered fields)
    (keys : ∀ field ∈ fields, mergeSurrogates field.1 = field.1) (key : Text) :
    (normalize (.obj fields)).get? key = (Fields.get? key fields).map normalize := by
  have kept : normalizeFields fields = fields.map fun field => (field.1, field.2.normalize) := by
    rw [normalizeFields_eq_map]
    refine List.map_congr_left ?_
    intro field member
    rw [keys field member]
  have mapped : Fields.Ordered (fields.map fun field => (field.1, field.2.normalize)) :=
    List.pairwise_map.mpr ordered
  rw [normalize, kept, Fields.ofPairs_of_ordered mapped, Json.get?, obj?, Option.bind_some]
  clear kept mapped ordered keys
  induction fields with
  | nil => rfl
  | cons field rest ih =>
      rw [List.map_cons, Fields.get?, Fields.get?, ih]
      split <;> rfl

end Json

/-- Text without surrogates is read back as it was. -/
theorem mergeSurrogates_of_forall {string : Text} (low : ∀ letter ∈ string, isHigh letter = false) :
    mergeSurrogates string = string := by
  induction string using mergeSurrogates.induct with
  | case1 high low rest surrogates ih =>
      have := low high List.mem_cons_self
      simp [this] at surrogates
  | case2 high low rest surrogates ih =>
      rw [mergeSurrogates, if_neg surrogates,
        ih fun letter member => low letter (List.mem_cons_of_mem _ member)]
  | case3 short simple =>
      rcases short with _ | ⟨first, _ | ⟨second, rest⟩⟩
      · rfl
      · rfl
      · exact absurd rfl (simple first second rest)

@[simp] theorem mergeSurrogates_text (literal : String) :
    mergeSurrogates (text literal) = text literal := by
  apply mergeSurrogates_of_forall
  intro point member
  obtain ⟨letter, _, rfl⟩ := List.mem_map.mp member
  have valid := letter.valid
  simp only [UInt32.isValidChar, Nat.isValidChar] at valid
  have small : letter.toNat < 0x110000 := by
    simp only [Char.toNat]
    omega
  simp only [isHigh, Fin.ofNat, Nat.mod_eq_of_lt small, Bool.and_eq_false_iff,
    decide_eq_false_iff_not]
  simp only [Char.toNat]
  omega

/-! ## Compact text -/

/-- Compact text does not depend on the level. -/
theorem Json.dump_compact (floats : FloatText) (value : Json) (level other : ℕ) :
    value.dump floats .compact level = value.dump floats .compact other := by
  have gap (level : ℕ) : JsonStyle.compact.gap level = [] := rfl
  induction value using Json.induct generalizing level other with
  | arr items same =>
      have rest (items : List Json)
          (same : ∀ item ∈ items, ∀ level other, item.dump floats .compact level =
            item.dump floats .compact other) (level other : ℕ) :
          Json.dumpItems floats .compact level items = Json.dumpItems floats .compact other items := by
        induction items with
        | nil => rfl
        | cons item items ih =>
            obtain ⟨here, later⟩ := List.forall_mem_cons.mp same
            rw [Json.dumpItems, Json.dumpItems, gap, gap, here level other, ih later]
      cases items with
      | nil => rfl
      | cons item items =>
          obtain ⟨here, later⟩ := List.forall_mem_cons.mp same
          rw [Json.dump, Json.dump, here (level + 1) (other + 1),
            rest items later (level + 1) (other + 1)]
          simp only [gap]
  | obj fields same =>
      have rest (fields : List (Text × Json))
          (same : ∀ field ∈ fields, ∀ level other, field.2.dump floats .compact level =
            field.2.dump floats .compact other) (level other : ℕ) :
          Json.dumpFields floats .compact level fields =
            Json.dumpFields floats .compact other fields := by
        induction fields with
        | nil => rfl
        | cons field fields ih =>
            obtain ⟨here, later⟩ := List.forall_mem_cons.mp same
            rw [Json.dumpFields, Json.dumpFields, gap, gap, here level other, ih later]
      rcases fields with _ | ⟨⟨key, value⟩, fields⟩
      · rfl
      · obtain ⟨here, later⟩ := List.forall_mem_cons.mp same
        rw [Json.dump, Json.dump, here (level + 1) (other + 1),
          rest fields later (level + 1) (other + 1)]
        simp only [gap]
  | _ => rfl

/-! ## What is read -/

section

variable {floats : FloatText}

/-- Values whose dictionaries all have their keys in order. -/
inductive Json.Tidy : Json → Prop
  | leaf {value : Json} : value.arr? = none → value.obj? = none → Tidy value
  | arr {items : List Json} : (∀ item ∈ items, Tidy item) → Tidy (.arr items)
  | obj {fields : List (Text × Json)} : Fields.Ordered fields →
      (∀ field ∈ fields, Tidy field.2) → Tidy (.obj fields)

theorem Json.Tidy.item {items : List Json} (tidy : Tidy (.arr items)) : ∀ item ∈ items, item.Tidy := by
  cases tidy with
  | leaf none _ => cases none
  | arr all => exact all

theorem Json.Tidy.get? {value item : Json} (tidy : value.Tidy) {key : Text}
    (found : value.get? key = some item) : item.Tidy := by
  obtain ⟨fields, is, found⟩ := Option.bind_eq_some_iff.mp found
  rw [obj?_eq_some] at is
  subst is
  cases tidy with
  | leaf _ none => cases none
  | obj _ all => exact all _ (Fields.mem_of_get? found)

theorem tidy_of_scanConstant {input rest : Text} {value : Json}
    (found : scanConstant input = some (value, rest)) : value.Tidy := by
  obtain ⟨⟨word, constant⟩, member, is⟩ := List.exists_of_findSome?_eq_some found
  obtain ⟨_, is⟩ := Option.ite_none_right_eq_some.mp is
  obtain ⟨rfl, _⟩ := Prod.mk.inj (Option.some.inj is)
  simp only [constants, List.mem_cons, Prod.mk.injEq, List.not_mem_nil, or_false] at member
  rcases member with ⟨_, rfl⟩ | ⟨_, rfl⟩ | ⟨_, rfl⟩ | ⟨_, rfl⟩ | ⟨_, rfl⟩ | ⟨_, rfl⟩ <;>
    exact .leaf rfl rfl

theorem tidy_of_scanNumber {input rest : Text} {value : Json}
    (found : scanNumber floats input = some (value, rest)) : value.Tidy := by
  obtain ⟨whole, _, found⟩ := Option.bind_eq_some_iff.mp found
  simp only [Option.pure_def] at found
  split at found <;>
    · simp only [Option.some.injEq, Prod.mk.injEq] at found
      rw [← found.1]
      exact .leaf rfl rfl

theorem tidy_of_parse (fuel : ℕ) :
    (∀ {input rest : Text} {value : Json}, parseValue floats fuel input = some (value, rest) →
      value.Tidy) ∧
    (∀ {input rest : Text} {items : List Json}, parseItems floats fuel input = some (items, rest) →
      ∀ item ∈ items, item.Tidy) ∧
    (∀ {input rest : Text} {fields : List (Text × Json)},
      parseFields floats fuel input = some (fields, rest) → ∀ field ∈ fields, field.2.Tidy) := by
  induction fuel with
  | zero =>
      refine ⟨fun parsed => ?_, fun parsed => ?_, fun parsed => ?_⟩
      · rw [parseValue] at parsed
        cases parsed
      · rw [parseItems] at parsed
        cases parsed
      · rw [parseFields] at parsed
        cases parsed
  | succ fuel ih =>
      obtain ⟨values, items, fields⟩ := ih
      refine ⟨fun {input} _ _ parsed => ?_, fun {input} _ _ parsed => ?_,
        fun {input} _ _ parsed => ?_⟩
      · rcases input with _ | ⟨letter, input⟩
        · rw [parseValue] at parsed
          cases parsed
        · rw [parseValue] at parsed
          split at parsed
          · obtain ⟨_, _, is⟩ := Option.map_eq_some_iff.mp parsed
            cases is
            exact .leaf rfl rfl
          · split at parsed
            · split at parsed
              · cases parsed
                exact .arr (by simp)
              · obtain ⟨⟨read, _⟩, inner, is⟩ := Option.map_eq_some_iff.mp parsed
                cases is
                exact .arr (items inner)
            · split at parsed
              · split at parsed
                · cases parsed
                  exact .obj List.Pairwise.nil (by simp)
                · obtain ⟨⟨read, _⟩, inner, is⟩ := Option.map_eq_some_iff.mp parsed
                  cases is
                  exact .obj (Fields.ordered_ofPairs _) (Fields.forall_mem_ofPairs (fields inner))
              · cases constant : scanConstant (letter :: input) with
                | some found =>
                    rw [constant] at parsed
                    exact tidy_of_scanConstant (constant.trans parsed)
                | none =>
                    rw [constant] at parsed
                    exact tidy_of_scanNumber parsed
      · rw [parseItems] at parsed
        obtain ⟨⟨first, _⟩, here, parsed⟩ := Option.bind_eq_some_iff.mp parsed
        split at parsed
        · cases parsed
        · split at parsed
          · cases parsed
            simpa using values here
          · split at parsed
            · obtain ⟨⟨read, _⟩, inner, is⟩ := Option.map_eq_some_iff.mp parsed
              cases is
              exact List.forall_mem_cons.mpr ⟨values here, items inner⟩
            · cases parsed
      · rcases input with _ | ⟨quote, input⟩
        · rw [parseFields] at parsed
          cases parsed
        · rw [parseFields] at parsed
          split at parsed
          · obtain ⟨key, _, parsed⟩ := Option.bind_eq_some_iff.mp parsed
            split at parsed
            · cases parsed
            · split at parsed
              · obtain ⟨⟨first, _⟩, here, parsed⟩ := Option.bind_eq_some_iff.mp parsed
                split at parsed
                · cases parsed
                · split at parsed
                  · cases parsed
                    simpa using values here
                  · split at parsed
                    · obtain ⟨⟨read, _⟩, inner, is⟩ := Option.map_eq_some_iff.mp parsed
                      cases is
                      exact List.forall_mem_cons.mpr ⟨values here, fields inner⟩
                    · cases parsed
              · cases parsed
          · cases parsed

theorem tidy_of_loads {input : Text} {value : Json} (loaded : loads floats input = some value) :
    value.Tidy := by
  rw [loads] at loaded
  split at loaded
  · cases loaded
  · obtain ⟨parsed, is, rest⟩ := Option.bind_eq_some_iff.mp loaded
    split at rest
    · obtain ⟨value', rest'⟩ := parsed
      obtain rfl : value' = value := Option.some.inj rest
      exact (tidy_of_parse _).1 is
    · cases rest

/-- A dictionary that is read has its keys in order. -/
theorem ordered_of_loads {input : Text} {fields : List (Text × Json)}
    (loaded : loads floats input = some (.obj fields)) : Fields.Ordered fields := by
  cases tidy_of_loads loaded with
  | leaf _ none => cases none
  | obj ordered _ => exact ordered

end

end CarbonLab
