import Mathlib

/-!
# Programs that call an environment

A program makes requests, one after the other, and returns a value or raises.  Its
environment serves one request at a time, so a program can be cut short between any two
of them: `Visits` are the states that a cut leaves behind.  `Meets` says of a run what
holds in all of them and what holds at the end, with one rule for each way to build a
program.
-/

namespace CarbonLab

/-- A program with requests of a type, typed replies and exceptions. -/
inductive Program (call : Type) (reply : call → Type) (ε α : Type)
  | pure (value : α)
  | raise (error : ε)
  | act (request : call) (next : reply request → Program call reply ε α)

namespace Program

variable {call : Type} {reply : call → Type} {ε α β σ : Type}

/-- Run a program and then another one on its value. -/
def bind : Program call reply ε α → (α → Program call reply ε β) → Program call reply ε β
  | .pure value, next => next value
  | .raise error, _ => .raise error
  | .act request rest, next => .act request fun answer => (rest answer).bind next

instance : Monad (Program call reply ε) where
  pure := .pure
  bind := .bind

/-- Run a program and handle what it raises. -/
def tryCatch : Program call reply ε α → (ε → Program call reply ε α) → Program call reply ε α
  | .pure value, _ => .pure value
  | .raise error, handler => handler error
  | .act request rest, handler => .act request fun answer => (rest answer).tryCatch handler

instance : MonadExceptOf ε (Program call reply ε) where
  throw := .raise
  tryCatch := tryCatch

/-- One request. -/
def send (request : call) : Program call reply ε (reply request) := .act request .pure

/-- `try: ... finally: ...` -/
def andFinally (program : Program call reply ε α) (cleanup : Program call reply ε Unit) :
    Program call reply ε α :=
  (program.tryCatch fun error => cleanup.bind fun _ => .raise error).bind fun value =>
    cleanup.bind fun _ => .pure value

/-- `[program(item) for item in items]` -/
def each {γ : Type} (program : γ → Program call reply ε α) : List γ → Program call reply ε (List α)
  | [] => .pure []
  | item :: items =>
      (program item).bind fun value => (each program items).bind fun values => .pure (value :: values)

/-! ## Runs -/

section

variable (serve : (request : call) → σ → reply request × σ)

/-- What a program returns or raises, and the state it leaves. -/
def run : Program call reply ε α → σ → Except ε α × σ
  | .pure value, state => (.ok value, state)
  | .raise error, state => (.error error, state)
  | .act request next, state =>
      (next (serve request state).1).run (serve request state).2

/-- The states between two requests, before the first one and after the last one. -/
def Visits : Program call reply ε α → σ → σ → Prop
  | .pure _, state, cut => cut = state
  | .raise _, state, cut => cut = state
  | .act request next, state, cut =>
      cut = state ∨ (next (serve request state).1).Visits (serve request state).2 cut

/-- The requests of a run, in order. -/
def requests : Program call reply ε α → σ → List call
  | .pure _, _ => []
  | .raise _, _ => []
  | .act request next, state =>
      request :: (next (serve request state).1).requests (serve request state).2

/-- All the states that a program visits satisfy one condition, its outcome and the
state it leaves another one. -/
def Meets (program : Program call reply ε α) (during : σ → Prop)
    (after : Except ε α → σ → Prop) (state : σ) : Prop :=
  (∀ cut, program.Visits serve state cut → during cut) ∧
    after (program.run serve state).1 (program.run serve state).2

end

variable {serve : (request : call) → σ → reply request × σ} {during : σ → Prop}
  {after : Except ε α → σ → Prop} {state : σ}

theorem visits_start (program : Program call reply ε α) : program.Visits serve state state := by
  cases program with
  | pure value => rfl
  | raise error => rfl
  | act request next => exact Or.inl rfl

theorem visits_end (program : Program call reply ε α) :
    program.Visits serve state (program.run serve state).2 := by
  induction program generalizing state with
  | pure value => rfl
  | raise error => rfl
  | act request next ih => exact Or.inr (ih _)

/-- The cuts of the first part of a sequence are cuts of the sequence. -/
theorem Visits.bind_left {program : Program call reply ε α} {next : α → Program call reply ε β}
    {cut : σ} (visits : program.Visits serve state cut) :
    (program.bind next).Visits serve state cut := by
  induction program generalizing state with
  | pure value =>
      rw [show cut = state from visits]
      exact visits_start (next value)
  | raise error => exact visits
  | act request rest ih =>
      rcases visits with here | later
      · exact Or.inl here
      · exact Or.inr (ih _ later)

/-- The cuts of the second part of a sequence are cuts of the sequence. -/
theorem Visits.bind_right {program : Program call reply ε α} {next : α → Program call reply ε β}
    {value : α} {middle cut : σ} (ran : program.run serve state = (.ok value, middle))
    (visits : (next value).Visits serve middle cut) :
    (program.bind next).Visits serve state cut := by
  induction program generalizing state with
  | pure value =>
      cases ran
      exact visits
  | raise error => cases ran
  | act request rest ih => exact Or.inr (ih _ ran)

/-- The states of `Visits`, in order. -/
def cuts (serve : (request : call) → σ → reply request × σ) : Program call reply ε α → σ → List σ
  | .pure _, state => [state]
  | .raise _, state => [state]
  | .act request next, state =>
      state :: (next (serve request state).1).cuts serve (serve request state).2

theorem visits_of_mem_cuts {program : Program call reply ε α} {cut : σ}
    (member : cut ∈ program.cuts serve state) : program.Visits serve state cut := by
  induction program generalizing state with
  | pure value => exact List.mem_singleton.mp member
  | raise error => exact List.mem_singleton.mp member
  | act request next ih =>
      rcases List.mem_cons.mp member with here | later
      · exact Or.inl here
      · exact Or.inr (ih _ later)

/-- What no request of a run changes is the same wherever the run is cut short. -/
theorem Visits.unchanged {β : Type} (view : σ → β) {program : Program call reply ε α} {cut : σ}
    (visits : program.Visits serve state cut)
    (kept : ∀ request ∈ program.requests serve state, ∀ state,
      view (serve request state).2 = view state) : view cut = view state := by
  induction program generalizing state with
  | pure value => rw [show cut = state from visits]
  | raise error => rw [show cut = state from visits]
  | act request next ih =>
      obtain ⟨here, later⟩ := List.forall_mem_cons.mp kept
      rcases visits with first | rest
      · rw [first]
      · exact (ih _ rest later).trans (here state)

/-- What no request of a run changes, the run does not change. -/
theorem run_unchanged {β : Type} {view : σ → β} {program : Program call reply ε α}
    (kept : ∀ request ∈ program.requests serve state, ∀ state,
      view (serve request state).2 = view state) :
    view (program.run serve state).2 = view state := by
  induction program generalizing state with
  | pure value => rfl
  | raise error => rfl
  | act request next ih =>
      obtain ⟨here, later⟩ := List.forall_mem_cons.mp kept
      exact (ih _ later).trans (here state)

@[simp] theorem meets_pure {value : α} :
    Meets serve (.pure value) during after state ↔ during state ∧ after (.ok value) state := by
  simp [Meets, Visits, run]

@[simp] theorem meets_raise {error : ε} :
    Meets serve (.raise error) during after state ↔
      during state ∧ after (.error error) state := by
  simp [Meets, Visits, run]

@[simp] theorem meets_act {request : call} {next : reply request → Program call reply ε α} :
    Meets serve (.act request next) during after state ↔
      during state ∧
        Meets serve (next (serve request state).1) during after (serve request state).2 := by
  simp only [Meets, Visits, run, forall_eq_or_imp, and_assoc]

theorem Meets.mono {program : Program call reply ε α} {during' : σ → Prop}
    {after' : Except ε α → σ → Prop} (meets : Meets serve program during after state)
    (weaker : ∀ state, during state → during' state)
    (later : ∀ outcome state, during state → after outcome state → after' outcome state) :
    Meets serve program during' after' state :=
  ⟨fun cut visits => weaker cut (meets.1 cut visits),
    later _ _ (meets.1 _ program.visits_end) meets.2⟩

theorem run_bind (program : Program call reply ε α) (next : α → Program call reply ε β) :
    (program.bind next).run serve state =
      match program.run serve state with
      | (.ok value, state) => (next value).run serve state
      | (.error error, state) => (.error error, state) := by
  induction program generalizing state with
  | pure value => rfl
  | raise error => rfl
  | act request rest ih => exact ih _

/-- A run goes on with the answer to its first request. -/
theorem run_act {request : call} {next : reply request → Program call reply ε α}
    {answer : reply request} {middle : σ} (served : serve request state = (answer, middle)) :
    (Program.act request next).run serve state = (next answer).run serve middle := by
  rw [run, served]

/-- The second part of a sequence starts where the first part returned. -/
theorem run_bind_ok {program : Program call reply ε α} {next : α → Program call reply ε β}
    {value : α} {middle : σ} (ran : program.run serve state = (.ok value, middle)) :
    (program >>= next).run serve state = (next value).run serve middle := by
  refine (run_bind program next).trans ?_
  rw [ran]

/-- A sequence ends where its first part raised. -/
theorem run_bind_error {program : Program call reply ε α} {next : α → Program call reply ε β}
    {error : ε} {middle : σ} (ran : program.run serve state = (.error error, middle)) :
    (program >>= next).run serve state = (.error error, middle) := by
  refine (run_bind program next).trans ?_
  rw [ran]

/-- A sequence that returned ran both of its parts. -/
theorem exists_of_run_bind {program : Program call reply ε α}
    {next : α → Program call reply ε β} {result : β} {after : σ}
    (ran : (program >>= next).run serve state = (.ok result, after)) :
    ∃ value middle, program.run serve state = (.ok value, middle) ∧
      (next value).run serve middle = (.ok result, after) := by
  rcases first : program.run serve state with ⟨error | value, middle⟩
  · rw [run_bind_error first] at ran
    cases ran
  · rw [run_bind_ok first] at ran
    exact ⟨value, middle, rfl, ran⟩

theorem run_tryCatch (program : Program call reply ε α) (handler : ε → Program call reply ε α) :
    (program.tryCatch handler).run serve state =
      match program.run serve state with
      | (.ok value, state) => (.ok value, state)
      | (.error error, state) => (handler error).run serve state := by
  induction program generalizing state with
  | pure value => rfl
  | raise error => rfl
  | act request rest ih => exact ih _

/-- A sequence: what the first part leaves is where the second part starts. -/
theorem Meets.bind {program : Program call reply ε α} {next : α → Program call reply ε β}
    {after' : Except ε β → σ → Prop}
    (meets : Meets serve program during
      (fun outcome state => match outcome with
        | .ok value => Meets serve (next value) during after' state
        | .error error => after' (.error error) state) state) :
    Meets serve (program.bind next) during after' state := by
  induction program generalizing state with
  | pure value => exact meets.2
  | raise error =>
      obtain ⟨here, last⟩ := meets_raise.mp meets
      exact meets_raise.mpr ⟨here, last⟩
  | act request rest ih =>
      obtain ⟨here, later⟩ := meets_act.mp meets
      exact meets_act.mpr ⟨here, ih _ later⟩

/-- A handler starts where the exception was raised. -/
theorem Meets.tryCatch {program : Program call reply ε α}
    {handler : ε → Program call reply ε α}
    (meets : Meets serve program during
      (fun outcome state => match outcome with
        | .ok value => after (.ok value) state
        | .error error => Meets serve (handler error) during after state) state) :
    Meets serve (program.tryCatch handler) during after state := by
  induction program generalizing state with
  | pure value =>
      obtain ⟨here, last⟩ := meets_pure.mp meets
      exact meets_pure.mpr ⟨here, last⟩
  | raise error => exact meets.2
  | act request rest ih =>
      obtain ⟨here, later⟩ := meets_act.mp meets
      exact meets_act.mpr ⟨here, ih _ later⟩

/-! ## Requests of a kind -/

/-- Whatever the answers are, the requests of a program satisfy a condition. -/
def Asks (allowed : call → Prop) : Program call reply ε α → Prop
  | .pure _ => True
  | .raise _ => True
  | .act request next => allowed request ∧ ∀ answer, (next answer).Asks allowed

section

variable {allowed : call → Prop}

theorem Asks.bind {program : Program call reply ε α} {next : α → Program call reply ε β}
    (asks : program.Asks allowed) (later : ∀ value, (next value).Asks allowed) :
    (program >>= next).Asks allowed := by
  change (program.bind next).Asks allowed
  induction program with
  | pure value => exact later value
  | raise error => trivial
  | act request rest ih => exact ⟨asks.1, fun answer => ih answer (asks.2 answer)⟩

theorem Asks.each {γ : Type} {program : γ → Program call reply ε α} {items : List γ}
    (asks : ∀ item, (program item).Asks allowed) : (Program.each program items).Asks allowed := by
  induction items with
  | nil => trivial
  | cons item items ih => exact Asks.bind (asks item) fun _ => Asks.bind ih fun _ => trivial

/-- A program whose requests leave the state alone leaves it alone. -/
theorem Asks.run_state {program : Program call reply ε α} (asks : program.Asks allowed)
    (kept : ∀ request, allowed request → ∀ state, (serve request state).2 = state) :
    (program.run serve state).2 = state := by
  induction program generalizing state with
  | pure value => rfl
  | raise error => rfl
  | act request next ih =>
      rw [run, ih _ (asks.2 _), kept request asks.1]

end

/-! ## Loops -/

/-- A loop that returned ran every item's program. -/
theorem run_each_ok {γ : Type} {program : γ → Program call reply ε α} {items : List γ}
    {values : List α} {after : σ}
    (still : ∀ item state, ((program item).run serve state).2 = state)
    (ran : (each program items).run serve state = (.ok values, after)) :
    after = state ∧ List.Forall₂ (fun item value =>
      (program item).run serve state = (.ok value, state)) items values := by
  induction items generalizing values after with
  | nil =>
      cases ran
      exact ⟨rfl, .nil⟩
  | cons item items ih =>
      have here := still item state
      rw [each, run_bind] at ran
      rcases first : (program item).run serve state with ⟨error | value, middle⟩
      · rw [first] at ran
        cases ran
      · rw [first] at ran here
        obtain rfl : middle = state := here
        dsimp only at ran
        rw [run_bind] at ran
        rcases rest : (each program items).run serve middle with ⟨error | others, last⟩
        · rw [rest] at ran
          cases ran
        · rw [rest] at ran
          cases ran
          obtain ⟨rfl, all⟩ := ih rest
          exact ⟨rfl, .cons first all⟩

end Program

end CarbonLab
