import CarbonLab.Lib.Program

/-!
# Conditions that requests keep

Rules for `Meets` where one condition holds in every state that a program visits: the
requests keep it, and so do the parts that a program is built from.
-/

namespace CarbonLab

namespace Program

variable {call : Type} {reply : call → Type} {ε α β σ : Type}
  {serve : (request : call) → σ → reply request × σ} {kept during : σ → Prop}
  {after : Except ε α → σ → Prop} {state : σ}

/-- The condition holds in every state that the program visits. -/
def Keeps (serve : (request : call) → σ → reply request × σ) (program : Program call reply ε α)
    (kept : σ → Prop) (state : σ) : Prop :=
  Meets serve program kept (fun _ _ => True) state

theorem Meets.during_run {program : Program call reply ε α}
    (meets : Meets serve program during after state) : during (program.run serve state).2 :=
  meets.1 _ program.visits_end

theorem Meets.keeps {program : Program call reply ε α}
    (meets : Meets serve program kept after state) : Keeps serve program kept state :=
  ⟨meets.1, trivial⟩

theorem Keeps.of_run {program : Program call reply ε α} {outcome : Except ε α} {final : σ}
    (keeps : Keeps serve program kept state)
    (ran : program.run serve state = (outcome, final)) : kept final := by
  have held := Meets.during_run keeps
  rwa [ran] at held

/-- What is known of a run may be added to what holds in the states it visits. -/
theorem Keeps.meets {program : Program call reply ε α} (keeps : Keeps serve program kept state)
    (ends : ∀ outcome final, program.run serve state = (outcome, final) → kept final →
      after outcome final) : Meets serve program kept after state :=
  ⟨keeps.1, ends _ _ rfl (Meets.during_run keeps)⟩

theorem Keeps.bind {program : Program call reply ε α} {next : α → Program call reply ε β}
    (keeps : Keeps serve program kept state)
    (later : ∀ value final, program.run serve state = (.ok value, final) → kept final →
      Keeps serve (next value) kept final) :
    Keeps serve (program >>= next) kept state := by
  refine Meets.bind (keeps.meets ?_)
  intro outcome final ran here
  cases outcome with
  | ok value => exact later value final ran here
  | error raised => trivial

theorem Asks.mono {allowed wider : call → Prop} {program : Program call reply ε α}
    (asks : program.Asks allowed) (weaker : ∀ request, allowed request → wider request) :
    program.Asks wider := by
  induction program with
  | pure value => trivial
  | raise error => trivial
  | act request next ih => exact ⟨weaker request asks.1, fun answer => ih answer (asks.2 answer)⟩

/-- The requests of a program keep a condition, whatever the answers are. -/
theorem Asks.keeps {allowed : call → Prop} {program : Program call reply ε α}
    (asks : program.Asks allowed)
    (served : ∀ request, allowed request → ∀ state, kept state → kept (serve request state).2)
    (start : kept state) : Keeps serve program kept state := by
  induction program generalizing state with
  | pure value => exact meets_pure.mpr ⟨start, trivial⟩
  | raise error => exact meets_raise.mpr ⟨start, trivial⟩
  | act request next ih =>
      exact meets_act.mpr ⟨start, ih _ (asks.2 _) (served request asks.1 _ start)⟩

/-- A loop: what holds of the items before one of them is carried over it. -/
theorem Meets.each {γ : Type} {program : γ → Program call reply ε α}
    {invariant : List γ → σ → Prop} {failed : Except ε (List α) → σ → Prop} {done items : List γ}
    (step : ∀ front item back, done ++ items = front ++ item :: back → ∀ state,
      invariant front state → Meets serve (program item) during
        (fun outcome state => match outcome with
          | .ok _ => invariant (front ++ [item]) state
          | .error raised => failed (.error raised) state) state)
    (visited : ∀ front state, invariant front state → during state)
    (start : invariant done state) :
    Meets serve (each program items) during
      (fun outcome state => match outcome with
        | .ok _ => invariant (done ++ items) state
        | .error raised => failed (.error raised) state) state := by
  induction items generalizing done state with
  | nil =>
      rw [List.append_nil]
      exact meets_pure.mpr ⟨visited _ _ start, start⟩
  | cons item items ih =>
      refine Meets.bind ((step done item items rfl state start).mono (fun _ here => here) ?_)
      intro outcome middle here ends
      cases outcome with
      | error raised => exact ends
      | ok value =>
          have rest := ih (fun front next back split => step front next back
            (by rw [← split, List.append_assoc]; rfl)) ends
          rw [List.append_assoc, List.singleton_append] at rest
          refine Meets.bind (rest.mono (fun _ here => here) ?_)
          intro outcome last here ends
          cases outcome with
          | error raised => exact ends
          | ok values => exact meets_pure.mpr ⟨here, ends⟩

/-- A loop whose items each keep a condition keeps it. -/
theorem Keeps.each {γ : Type} {program : γ → Program call reply ε α} {items : List γ}
    (step : ∀ item ∈ items, ∀ state, kept state → Keeps serve (program item) kept state)
    (start : kept state) : Keeps serve (Program.each program items) kept state := by
  have meets := @Meets.each call reply ε α σ serve kept state γ program (fun _ => kept)
    (fun _ _ => True) [] items
    (fun front item back split state here =>
      (step item (by rw [List.nil_append] at split; rw [split]; simp) state here).meets
        fun outcome final _ held => by cases outcome <;> first | exact held | trivial)
    (fun _ _ held => held) start
  exact meets.keeps

/-- A loop whose items all return without a change gives their values. -/
theorem run_each_same {γ : Type} {program : γ → Program call reply ε α} {value : γ → α}
    {items : List γ}
    (step : ∀ item ∈ items, (program item).run serve state = (.ok (value item), state)) :
    (each program items).run serve state = (.ok (items.map value), state) := by
  induction items with
  | nil => rfl
  | cons item items ih =>
      obtain ⟨here, later⟩ := List.forall_mem_cons.mp step
      exact (run_bind_ok here).trans (run_bind_ok (ih later))

/-- A loop without changes returns all its values, or an item raises. -/
theorem run_each_or {γ : Type} {program : γ → Program call reply ε α} (value : γ → α)
    {items : List γ}
    (step : ∀ item ∈ items, (program item).run serve state = (.ok (value item), state) ∨
      ∃ raised, (program item).run serve state = (.error raised, state)) :
    (∀ item ∈ items, (program item).run serve state = (.ok (value item), state)) ∨
      ∃ raised, (each program items).run serve state = (.error raised, state) := by
  induction items with
  | nil => exact Or.inl (by simp)
  | cons item items ih =>
      obtain ⟨here, later⟩ := List.forall_mem_cons.mp step
      rcases here with here | ⟨raised, here⟩
      · rcases ih later with all | ⟨raised, rest⟩
        · exact Or.inl (List.forall_mem_cons.mpr ⟨here, all⟩)
        · exact Or.inr ⟨raised, (run_bind_ok here).trans (run_bind_error rest)⟩
      · exact Or.inr ⟨raised, run_bind_error here⟩

/-- A loop that returned ran the items before and behind each of them. -/
theorem exists_of_run_each {γ : Type} {program : γ → Program call reply ε α} {front back : List γ}
    {item : γ} {values : List α} {last : σ}
    (ran : (each program (front ++ item :: back)).run serve state = (.ok values, last)) :
    ∃ earlier before value middle later,
      (each program front).run serve state = (.ok earlier, before) ∧
      (program item).run serve before = (.ok value, middle) ∧
      (each program back).run serve middle = (.ok later, last) := by
  induction front generalizing state values with
  | nil =>
      obtain ⟨value, middle, here, ran⟩ := exists_of_run_bind ran
      obtain ⟨later, _, ran, ends⟩ := exists_of_run_bind ran
      cases ends
      exact ⟨[], state, value, middle, later, rfl, here, ran⟩
  | cons one front ih =>
      obtain ⟨done, first, ranOne, ran⟩ := exists_of_run_bind ran
      obtain ⟨rest, _, ran, ends⟩ := exists_of_run_bind ran
      cases ends
      obtain ⟨earlier, before, value, middle, later, ranFront, here, behind⟩ := ih ran
      exact ⟨done :: earlier, before, value, middle, later,
        (run_bind_ok ranOne).trans (run_bind_ok ranFront), here, behind⟩

end Program

end CarbonLab
