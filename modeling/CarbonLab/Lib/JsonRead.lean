import CarbonLab.Lib.Bytes

/-!
# Reading again what was read

A value that was read from a file is a fixed point of the round trip: UTF-8 holds no half of
a surrogate pair, and no two escapes that are a pair stay apart.
-/

namespace CarbonLab

/-! ## Strings -/

/-- No code point of a text is half of a pair. -/
def NoSurrogate (string : Text) : Prop :=
  ∀ letter ∈ string, isHigh letter = false ∧ isLow letter = false

theorem NoSurrogate.suffix {string rest : Text} (clean : NoSurrogate string)
    (suffix : rest <:+ string) : NoSurrogate rest :=
  fun letter member => clean letter (suffix.subset member)

theorem mergeSurrogates_cons {point : CodePoint} {rest : Text}
    (apart : ∀ low later, rest = low :: later → (isHigh point && isLow low) = false) :
    mergeSurrogates (point :: rest) = point :: mergeSurrogates rest := by
  cases rest with
  | nil => rfl
  | cons low later => rw [mergeSurrogates, if_neg (by simp [apart low later rfl])]

theorem joinSurrogates_astral {high low : CodePoint} (pair : (isHigh high && isLow low) = true) :
    isHigh (joinSurrogates high low) = false ∧ isLow (joinSurrogates high low) = false := by
  apply not_surrogate_of_astral
  simp only [isHigh, isLow, Bool.and_eq_true, decide_eq_true_eq] at pair
  simp only [joinSurrogates, Fin.ofNat]
  omega

/-- Units of which only escapes are halves of a pair. -/
def Escaped (units : List (Bool × CodePoint)) : Prop :=
  ∀ unit ∈ units, unit.1 = false → isHigh unit.2 = false ∧ isLow unit.2 = false

/-- What the joined units start with, if it is the second half of a pair. -/
theorem head_joinUnits {units : List (Bool × CodePoint)} {low : CodePoint} {later : Text}
    (begins : joinUnits units = low :: later) (isLow_ : isLow low = true) :
    ∃ escaped rest, units = (escaped, low) :: rest := by
  rcases units with _ | ⟨⟨escaped, point⟩, rest⟩
  · cases begins
  · refine ⟨escaped, rest, ?_⟩
    by_cases same : point = low
    · rw [same]
    · exfalso
      rw [joinUnits.eq_def] at begins
      split at begins
      · next high second others is =>
          split at begins
          · next pair =>
              rw [← (List.cons.inj begins).1, (joinSurrogates_astral pair).2] at isLow_
              cases isLow_
          · cases is
            exact same (List.cons.inj begins).1
      · next _ _ _ is =>
          cases is
          exact same (List.cons.inj begins).1
      · next is => cases is

theorem mergeSurrogates_joinUnits {units : List (Bool × CodePoint)} (escaped : Escaped units) :
    mergeSurrogates (joinUnits units) = joinUnits units := by
  induction units using joinUnits.induct with
  | case1 high low rest pair ih =>
      rw [joinUnits, if_pos pair, mergeSurrogates_cons, ih]
      · intro unit member
        exact escaped unit (List.mem_cons_of_mem _ (List.mem_cons_of_mem _ member))
      · intro _ _ _
        rw [(joinSurrogates_astral pair).1, Bool.false_and]
  | case2 high low rest apart ih =>
      rw [joinUnits, if_neg apart, mergeSurrogates_cons, ih]
      · intro unit member
        exact escaped unit (List.mem_cons_of_mem _ member)
      · intro second later begins
        by_contra both
        rw [Bool.not_eq_false, Bool.and_eq_true] at both
        obtain ⟨_, _, is⟩ := head_joinUnits begins both.2
        cases is
        exact apart (by rw [both.1, both.2]; rfl)
  | case3 escape_ point rest alone ih =>
      rw [joinUnits, mergeSurrogates_cons, ih]
      · intro unit member
        exact escaped unit (List.mem_cons_of_mem _ member)
      · intro low later begins
        by_contra both
        rw [Bool.not_eq_false, Bool.and_eq_true] at both
        obtain ⟨written, others, is⟩ := head_joinUnits begins both.2
        subst is
        cases escape_ with
        | false =>
            rw [(escaped _ List.mem_cons_self rfl).1] at both
            cases both.1
        | true =>
            cases written with
            | true => exact alone low others rfl rfl
            | false =>
                have low_ := (escaped (false, low) (by simp) rfl).2
                rw [low_] at both
                cases both.2
      · exact alone
  | case4 => rfl

/-! ## Scanners -/

theorem shortEscapes_noSurrogate {letter point : CodePoint}
    (known : shortEscapes.lookup letter = some point) : isHigh point = false ∧ isLow point = false := by
  have all : ∀ pair ∈ shortEscapes, isHigh pair.2 = false ∧ isLow pair.2 = false := by
    simp [shortEscapes, isHigh, isLow, code]
  obtain ⟨before, after, is, _⟩ := List.lookup_eq_some_iff.mp known
  exact all (letter, point) (by rw [is]; simp)

theorem escaped_cons {unit : Bool × CodePoint} {units : List (Bool × CodePoint)}
    (here : unit.1 = false → isHigh unit.2 = false ∧ isLow unit.2 = false)
    (later : Escaped units) : Escaped (unit :: units) :=
  List.forall_mem_cons.mpr ⟨here, later⟩

/-- A string that is scanned from text without surrogates has them only as escapes. -/
theorem escaped_of_scanUnits {input rest : Text} {units : List (Bool × CodePoint)}
    (clean : NoSurrogate input) (scanned : scanUnits input = some (units, rest)) :
    Escaped units ∧ rest <:+ input := by
  induction input using scanUnits.induct generalizing units rest with
  | case1 => cases scanned
  | case2 after =>
      rw [scanUnits.eq_def] at scanned
      simp only [↓reduceIte, Option.some.injEq, Prod.mk.injEq] at scanned
      obtain ⟨rfl, rfl⟩ := scanned
      exact ⟨by simp [Escaped], List.suffix_cons _ _⟩
  | case3 opened =>
      rw [scanUnits.eq_def] at scanned
      simp only [opened, ↓reduceIte] at scanned
      cases scanned
  | case4 first second third fourth after opened ih =>
      rw [scanUnits.eq_def] at scanned
      simp only [opened, ↓reduceIte, Option.bind_eq_bind, Option.bind_eq_some_iff] at scanned
      obtain ⟨unit, _, ⟨read, left⟩, inner, is⟩ := scanned
      cases is
      have suffix : after <:+ code '\\' :: code 'u' :: first :: second :: third :: fourth :: after :=
        ⟨[_, _, _, _, _, _], rfl⟩
      obtain ⟨escaped, ends⟩ := ih (clean.suffix suffix) inner
      exact ⟨escaped_cons (by simp) escaped, ends.trans suffix⟩
  | case5 after short opened =>
      rw [scanUnits.eq_def] at scanned
      simp only [opened, ↓reduceIte] at scanned
      cases scanned
  | case6 escape_ after other opened ih =>
      rw [scanUnits.eq_def] at scanned
      simp only [opened, other, ↓reduceIte, Option.bind_eq_bind, Option.bind_eq_some_iff] at scanned
      obtain ⟨point, known, ⟨read, left⟩, inner, is⟩ := scanned
      cases is
      have suffix : after <:+ code '\\' :: escape_ :: after := ⟨[_, _], rfl⟩
      obtain ⟨escaped, ends⟩ := ih (clean.suffix suffix) inner
      exact ⟨escaped_cons (fun _ => shortEscapes_noSurrogate known) escaped, ends.trans suffix⟩
  | case7 letter after quote slash low =>
      rw [scanUnits.eq_def] at scanned
      simp only [quote, slash, low, ↓reduceIte] at scanned
      cases scanned
  | case8 letter after quote slash low ih =>
      rw [scanUnits.eq_def] at scanned
      simp only [quote, slash, low, ↓reduceIte, Option.bind_eq_bind,
        Option.bind_eq_some_iff] at scanned
      obtain ⟨⟨read, left⟩, inner, is⟩ := scanned
      cases is
      have suffix : after <:+ letter :: after := List.suffix_cons _ _
      obtain ⟨escaped, ends⟩ := ih (clean.suffix suffix) inner
      exact ⟨escaped_cons (fun _ => clean letter List.mem_cons_self) escaped, ends.trans suffix⟩

theorem plain_of_scanString {input rest string : Text} (clean : NoSurrogate input)
    (scanned : scanString input = some (string, rest)) :
    mergeSurrogates string = string ∧ rest <:+ input := by
  obtain ⟨⟨units, left⟩, inner, is⟩ := Option.map_eq_some_iff.mp scanned
  cases is
  obtain ⟨escaped, ends⟩ := escaped_of_scanUnits clean inner
  exact ⟨mergeSurrogates_joinUnits escaped, ends⟩

theorem skip_suffix (input : Text) : skip input <:+ input := List.dropWhile_suffix _

theorem spanDigits_suffix (input : Text) : (spanDigits input).2 <:+ input := by
  induction input with
  | nil => exact List.suffix_rfl
  | cons letter rest ih =>
      unfold spanDigits
      split
      · exact ih.trans (List.suffix_cons _ _)
      · exact List.suffix_rfl

theorem scanWhole_suffix {input rest : Text} {whole : ℕ}
    (scanned : scanWhole input = some (whole, rest)) : rest <:+ input := by
  cases input with
  | nil => cases scanned
  | cons letter after =>
      rw [scanWhole] at scanned
      split at scanned
      · cases scanned
        exact List.suffix_cons _ _
      · split at scanned
        · cases scanned
          exact spanDigits_suffix _
        · cases scanned

theorem scanFraction_suffix (input : Text) : (scanFraction input).2 <:+ input := by
  cases input with
  | nil => exact List.suffix_rfl
  | cons letter rest =>
      rw [scanFraction]
      split
      · exact (spanDigits_suffix rest).trans (List.suffix_cons _ _)
      · exact List.suffix_rfl

theorem scanSign_suffix (input : Text) : (scanSign input).2 <:+ input := by
  cases input with
  | nil => exact List.suffix_rfl
  | cons letter rest =>
      rw [scanSign]
      split
      · exact List.suffix_cons _ _
      · split
        · exact List.suffix_cons _ _
        · exact List.suffix_rfl

theorem scanExponent_suffix (input : Text) : (scanExponent input).2 <:+ input := by
  cases input with
  | nil => exact List.suffix_rfl
  | cons letter rest =>
      simp only [scanExponent]
      split
      · exact ((spanDigits_suffix _).trans (scanSign_suffix rest)).trans (List.suffix_cons _ _)
      · exact List.suffix_rfl

theorem scanMinus_suffix (input : Text) : (scanMinus input).2 <:+ input := by
  cases input with
  | nil => exact List.suffix_rfl
  | cons letter rest =>
      rw [scanMinus]
      split
      · exact List.suffix_cons _ _
      · exact List.suffix_rfl

/-! ## Values -/

/-- Reading decimal text never gives a NaN. -/
def FloatText.Numeric (floats : FloatText) : Prop :=
  ∀ negative whole fraction exponent,
    (Json.float (floats.read negative whole fraction exponent)).Plain

variable {floats : FloatText}

theorem plain_of_scanNumber (numeric : floats.Numeric) {input rest : Text} {value : Json}
    (scanned : scanNumber floats input = some (value, rest)) : value.Plain ∧ rest <:+ input := by
  obtain ⟨⟨whole, after⟩, isWhole, scanned⟩ := Option.bind_eq_some_iff.mp scanned
  have ends : (scanExponent (scanFraction after).2).2 <:+ input :=
    (scanExponent_suffix _).trans ((scanFraction_suffix after).trans
      ((scanWhole_suffix isWhole).trans (scanMinus_suffix input)))
  simp only [Option.pure_def] at scanned
  split at scanned <;>
    simp only [Option.some.injEq, Prod.mk.injEq] at scanned <;>
    obtain ⟨rfl, rfl⟩ := scanned
  · exact ⟨Json.plain_int _, ends⟩
  · exact ⟨numeric _ _ _ _, ends⟩

theorem plain_of_scanConstant {input rest : Text} {value : Json}
    (found : scanConstant input = some (value, rest)) : value.Plain ∧ rest <:+ input := by
  obtain ⟨⟨word, constant⟩, member, is⟩ := List.exists_of_findSome?_eq_some found
  obtain ⟨_, is⟩ := Option.ite_none_right_eq_some.mp is
  obtain ⟨rfl, rfl⟩ := Prod.mk.inj (Option.some.inj is)
  refine ⟨?_, List.drop_suffix _ _⟩
  simp only [constants, List.mem_cons, Prod.mk.injEq, List.not_mem_nil, or_false] at member
  rcases member with ⟨_, rfl⟩ | ⟨_, rfl⟩ | ⟨_, rfl⟩ | ⟨_, rfl⟩ | ⟨_, rfl⟩ | ⟨_, rfl⟩
  · exact Json.plain_null
  · exact Json.plain_bool _
  · exact Json.plain_bool _
  · exact Json.nanBits_normal
  · exact Json.infinityBits_normal _
  · exact Json.infinityBits_normal _

theorem plain_of_parse (numeric : floats.Numeric) (fuel : ℕ) :
    (∀ {input rest : Text} {value : Json}, NoSurrogate input →
      parseValue floats fuel input = some (value, rest) → value.Plain ∧ rest <:+ input) ∧
    (∀ {input rest : Text} {items : List Json}, NoSurrogate input →
      parseItems floats fuel input = some (items, rest) →
        (∀ item ∈ items, item.Plain) ∧ rest <:+ input) ∧
    (∀ {input rest : Text} {fields : List (Text × Json)}, NoSurrogate input →
      parseFields floats fuel input = some (fields, rest) →
        (∀ field ∈ fields, mergeSurrogates field.1 = field.1 ∧ field.2.Plain) ∧
          rest <:+ input) := by
  induction fuel with
  | zero =>
      refine ⟨fun _ parsed => ?_, fun _ parsed => ?_, fun _ parsed => ?_⟩
      · rw [parseValue] at parsed
        cases parsed
      · rw [parseItems] at parsed
        cases parsed
      · rw [parseFields] at parsed
        cases parsed
  | succ fuel ih =>
      obtain ⟨values, items, fields⟩ := ih
      refine ⟨fun {input} _ _ clean parsed => ?_, fun {input} _ _ clean parsed => ?_,
        fun {input} _ _ clean parsed => ?_⟩
      · rcases input with _ | ⟨letter, input⟩
        · rw [parseValue] at parsed
          cases parsed
        · rw [parseValue] at parsed
          have behind : input <:+ letter :: input := List.suffix_cons _ _
          have inside : skip input <:+ letter :: input := (skip_suffix input).trans behind
          split at parsed
          · obtain ⟨⟨string, _⟩, scanned, is⟩ := Option.map_eq_some_iff.mp parsed
            cases is
            obtain ⟨merged, ends⟩ := plain_of_scanString (clean.suffix behind) scanned
            exact ⟨Json.plain_str.mpr merged, ends.trans behind⟩
          · split at parsed
            · split at parsed
              · cases parsed
                exact ⟨Json.plain_arr (by simp), (List.tail_suffix _).trans inside⟩
              · obtain ⟨⟨read, _⟩, inner, is⟩ := Option.map_eq_some_iff.mp parsed
                cases is
                obtain ⟨plain, ends⟩ := items (clean.suffix inside) inner
                exact ⟨Json.plain_arr plain, ends.trans inside⟩
            · split at parsed
              · split at parsed
                · cases parsed
                  exact ⟨Json.plain_obj List.Pairwise.nil (by simp) (by simp), (List.tail_suffix _).trans inside⟩
                · obtain ⟨⟨read, _⟩, inner, is⟩ := Option.map_eq_some_iff.mp parsed
                  cases is
                  obtain ⟨plain, ends⟩ := fields (clean.suffix inside) inner
                  exact ⟨Json.plain_ofPairs plain, ends.trans inside⟩
              · cases constant : scanConstant (letter :: input) with
                | some found =>
                    rw [constant] at parsed
                    exact plain_of_scanConstant (constant.trans parsed)
                | none =>
                    rw [constant] at parsed
                    exact plain_of_scanNumber numeric parsed
      · rw [parseItems] at parsed
        obtain ⟨⟨first, after⟩, here, parsed⟩ := Option.bind_eq_some_iff.mp parsed
        obtain ⟨plain, ends⟩ := values clean here
        split at parsed
        · cases parsed
        · next letter rest is =>
            have behind : rest <:+ input :=
              (List.suffix_cons letter rest).trans (is ▸ (skip_suffix after).trans ends)
            split at parsed
            · cases parsed
              exact ⟨by simpa using plain, behind⟩
            · split at parsed
              · obtain ⟨⟨read, _⟩, inner, is⟩ := Option.map_eq_some_iff.mp parsed
                cases is
                have inside : skip rest <:+ input := (skip_suffix rest).trans behind
                obtain ⟨later, ends⟩ := items (clean.suffix inside) inner
                exact ⟨List.forall_mem_cons.mpr ⟨plain, later⟩, ends.trans inside⟩
              · cases parsed
      · rcases input with _ | ⟨quote, input⟩
        · rw [parseFields] at parsed
          cases parsed
        · rw [parseFields] at parsed
          have opened : input <:+ quote :: input := List.suffix_cons _ _
          split at parsed
          · obtain ⟨⟨key, named⟩, scanned, parsed⟩ := Option.bind_eq_some_iff.mp parsed
            obtain ⟨merged, ends⟩ := plain_of_scanString (clean.suffix opened) scanned
            split at parsed
            · cases parsed
            · next colon rest is =>
                have behind : rest <:+ quote :: input := (List.suffix_cons colon rest).trans
                  (is ▸ (skip_suffix named).trans (ends.trans opened))
                split at parsed
                · obtain ⟨⟨first, after⟩, here, parsed⟩ := Option.bind_eq_some_iff.mp parsed
                  have inside : skip rest <:+ quote :: input := (skip_suffix rest).trans behind
                  obtain ⟨plain, ends⟩ := values (clean.suffix inside) here
                  split at parsed
                  · cases parsed
                  · next letter others is =>
                      have last : others <:+ quote :: input := (List.suffix_cons letter others).trans
                        (is ▸ (skip_suffix after).trans (ends.trans inside))
                      split at parsed
                      · cases parsed
                        exact ⟨by simpa using ⟨merged, plain⟩, last⟩
                      · split at parsed
                        · obtain ⟨⟨read, _⟩, inner, is⟩ := Option.map_eq_some_iff.mp parsed
                          cases is
                          have more : skip others <:+ quote :: input :=
                            (skip_suffix others).trans last
                          obtain ⟨later, ends⟩ := fields (clean.suffix more) inner
                          exact ⟨List.forall_mem_cons.mpr ⟨⟨merged, plain⟩, later⟩,
                            ends.trans more⟩
                        · cases parsed
                · cases parsed
          · cases parsed

theorem plain_of_loads (numeric : floats.Numeric) {input : Text} {value : Json}
    (clean : NoSurrogate input) (loaded : loads floats input = some value) : value.Plain := by
  rw [loads] at loaded
  split at loaded
  · cases loaded
  · obtain ⟨⟨read, after⟩, is, rest⟩ := Option.bind_eq_some_iff.mp loaded
    split at rest
    · cases rest
      exact ((plain_of_parse numeric _).1 (clean.suffix (skip_suffix input)) is).1
    · cases rest

/-! ## Files -/

theorem noSurrogate_of_decoded {least value : ℕ} {point : CodePoint}
    (decoded : decoded? false least value = some point) :
    isHigh point = false ∧ isLow point = false := by
  obtain ⟨⟨_, bound, outside⟩, is⟩ := Option.ite_none_right_eq_some.mp decoded
  cases is
  simp only [isHigh, isLow, Fin.ofNat, Bool.and_eq_false_iff, decide_eq_false_iff_not]
  simp only [Bool.false_eq_true, false_or] at outside
  omega

theorem noSurrogate_of_decode {bytes : Bytes} {string : Text}
    (decoded : decode false bytes = some string) : NoSurrogate string := by
  have cons {point : CodePoint} {later : Option Text} (here : isHigh point = false ∧ isLow point = false)
      (there : ∀ {text}, later = some text → NoSurrogate text) {string : Text}
      (is : later.map (point :: ·) = some string) : NoSurrogate string := by
    obtain ⟨text, found, rfl⟩ := Option.map_eq_some_iff.mp is
    exact List.forall_mem_cons.mpr ⟨here, there found⟩
  induction bytes using decode.induct generalizing string with
  | case1 =>
      cases decoded
      simp [NoSurrogate]
  | case2 first rest ascii ih =>
      rw [decode.eq_def] at decoded
      simp only [ascii, ↓reduceIte] at decoded
      refine cons ?_ ih decoded
      simp only [isHigh, isLow, Fin.ofNat, Bool.and_eq_false_iff, decide_eq_false_iff_not]
      omega
  | case3 first rest high low =>
      rw [decode.eq_def] at decoded
      simp only [high, low, ↓reduceIte] at decoded
      cases decoded
  | case4 first high higher =>
      rw [decode.eq_def] at decoded
      simp only [high, higher, ↓reduceIte] at decoded
      cases decoded
  | case5 first high higher second rest ih deeper =>
      rw [decode.eq_def] at decoded
      simp only [high, higher, ↓reduceIte] at decoded
      obtain ⟨_, _, decoded⟩ := Option.bind_eq_some_iff.mp decoded
      split at decoded
      · obtain ⟨point, here, is⟩ := Option.bind_eq_some_iff.mp decoded
        exact cons (noSurrogate_of_decoded here) ih is
      · cases rest with
        | nil => cases decoded
        | cons third rest =>
            obtain ⟨ih, deepest⟩ := deeper
            obtain ⟨_, _, decoded⟩ := Option.bind_eq_some_iff.mp decoded
            split at decoded
            · obtain ⟨point, here, is⟩ := Option.bind_eq_some_iff.mp decoded
              exact cons (noSurrogate_of_decoded here) ih is
            · cases rest with
              | nil => cases decoded
              | cons fourth rest =>
                  obtain ⟨_, _, decoded⟩ := Option.bind_eq_some_iff.mp decoded
                  obtain ⟨point, here, decoded⟩ := Option.bind_eq_some_iff.mp decoded
                  split at decoded
                  · exact cons (noSurrogate_of_decoded here) deepest decoded
                  · cases decoded

/-- What is read from a file is a fixed point of the round trip. -/
theorem plain_of_readJson (numeric : floats.Numeric) {bytes : Bytes} {value : Json}
    (reads : readJson floats bytes = some value) : value.Plain := by
  obtain ⟨input, decoded, loaded⟩ := Option.bind_eq_some_iff.mp reads
  exact plain_of_loads numeric (noSurrogate_of_decode decoded) loaded

end CarbonLab
