import CarbonLab.Lib.Program
import Mathlib.Logic.Function.Basic
import Mathlib.Logic.Relation

/-!
# Programs side by side

Processes run programs on one shared state.  Each request is served at once, and those of
different processes come in any order.  A process relies on what the others keep and gives
them what they rely on: `Secures` says this of a program from a state on, and then every
state that the processes reach keeps the invariant.
-/

namespace CarbonLab

/-- Processes with their programs, and the state that they share. -/
structure Pool (ι call : Type) (reply : call → Type) (ε α σ : Type) where
  shared : σ
  program : ι → Option (Program call reply ε α)

variable {ι call : Type} {reply : call → Type} {ε α β σ : Type}

namespace Pool

section

variable [DecidableEq ι] (serves : ι → (request : call) → σ → reply request → σ → Prop)
  (commands : ι → Program call reply ε α → Prop)

/-- One step: a process starts, or a request of a process is served. -/
inductive Step : Pool ι call reply ε α σ → Pool ι call reply ε α σ → Prop
  | start {pool : Pool ι call reply ε α σ} {process : ι} {program : Program call reply ε α} :
      pool.program process = none → commands process program →
      Step pool { pool with program := Function.update pool.program process (some program) }
  | serve {pool : Pool ι call reply ε α σ} {process : ι} {request : call}
      {next : reply request → Program call reply ε α} {answer : reply request} {shared : σ} :
      pool.program process = some (.act request next) →
      serves process request pool.shared answer shared →
      Step pool ⟨shared, Function.update pool.program process (some (next answer))⟩

/-- What processes reach from a state in which none has started. -/
def Reaches (start : σ) : Pool ι call reply ε α σ → Prop :=
  Relation.ReflTransGen (Step serves commands) ⟨start, fun _ => none⟩

end

end Pool

namespace Program

section

variable (serves : ι → (request : call) → σ → reply request → σ → Prop) (inv : σ → Prop)
  (rely : ι → σ → σ → Prop)

/-- A program of a process from a state on: whatever the others do that the process relies
on, its own requests keep the invariant and what the others rely on, and its outcome is as
wanted. -/
def Secures (process : ι) : Program call reply ε α → (Except ε α → σ → Prop) → σ → Prop
  | .pure value, post, state => ∀ later, rely process state later → inv later → post (.ok value) later
  | .raise error, post, state =>
      ∀ later, rely process state later → inv later → post (.error error) later
  | .act request next, post, state => ∀ later, rely process state later → inv later →
      ∀ answer after, serves process request later answer after →
        inv after ∧ (∀ other ≠ process, rely other later after) ∧
          Secures process (next answer) post after

end

variable {serves : ι → (request : call) → σ → reply request → σ → Prop} {inv : σ → Prop}
  {rely : ι → σ → σ → Prop} {process : ι} {state : σ}

theorem Secures.mono {program : Program call reply ε α} {post post' : Except ε α → σ → Prop}
    (secures : Secures serves inv rely process program post state)
    (weaker : ∀ outcome state, inv state → post outcome state → post' outcome state) :
    Secures serves inv rely process program post' state := by
  induction program generalizing state with
  | pure value => exact fun later relies holds => weaker _ _ holds (secures later relies holds)
  | raise error => exact fun later relies holds => weaker _ _ holds (secures later relies holds)
  | act request next ih =>
      intro later relies holds answer after served
      obtain ⟨kept, given, goesOn⟩ := secures later relies holds answer after served
      exact ⟨kept, given, ih _ goesOn⟩

section

variable (follows : ∀ {process : ι} {first second third : σ}, rely process first second →
  rely process second third → rely process first third)
include follows

/-- What a process relies on may happen at any time. -/
theorem Secures.later {program : Program call reply ε α} {post : Except ε α → σ → Prop} {after : σ}
    (secures : Secures serves inv rely process program post state)
    (relies : rely process state after) : Secures serves inv rely process program post after := by
  cases program with
  | pure value => exact fun later next => secures later (follows relies next)
  | raise error => exact fun later next => secures later (follows relies next)
  | act request next => exact fun later next => secures later (follows relies next)

end

section

variable (stays : ∀ {process : ι} {state : σ}, rely process state state)
include stays

theorem secures_of_later {program : Program call reply ε α} {post : Except ε α → σ → Prop}
    (secures : ∀ later, rely process state later → inv later →
      Secures serves inv rely process program post later) :
    Secures serves inv rely process program post state := by
  cases program with
  | pure value => exact fun later relies holds => secures later relies holds later stays holds
  | raise error => exact fun later relies holds => secures later relies holds later stays holds
  | act request next => exact fun later relies holds => secures later relies holds later stays holds

/-- A sequence. -/
theorem Secures.bind {program : Program call reply ε α} {next : α → Program call reply ε β}
    {post : Except ε β → σ → Prop}
    (secures : Secures serves inv rely process program
      (fun outcome state => match outcome with
        | .ok value => Secures serves inv rely process (next value) post state
        | .error error => post (.error error) state) state) :
    Secures serves inv rely process (program.bind next) post state := by
  induction program generalizing state with
  | pure value => exact secures_of_later stays secures
  | raise error => exact secures
  | act request rest ih =>
      intro later relies holds answer after served
      obtain ⟨kept, given, goesOn⟩ := secures later relies holds answer after served
      exact ⟨kept, given, ih _ goesOn⟩

/-- A handler. -/
theorem Secures.tryCatch {program : Program call reply ε α}
    {handler : ε → Program call reply ε α} {post : Except ε α → σ → Prop}
    (secures : Secures serves inv rely process program
      (fun outcome state => match outcome with
        | .ok value => post (.ok value) state
        | .error error => Secures serves inv rely process (handler error) post state) state) :
    Secures serves inv rely process (program.tryCatch handler) post state := by
  induction program generalizing state with
  | pure value => exact secures
  | raise error => exact secures_of_later stays secures
  | act request rest ih =>
      intro later relies holds answer after served
      obtain ⟨kept, given, goesOn⟩ := secures later relies holds answer after served
      exact ⟨kept, given, ih _ goesOn⟩

/-- A cleanup, which is run whatever happens. -/
theorem Secures.andFinally {program : Program call reply ε α} {cleanup : Program call reply ε Unit}
    {post : Except ε α → σ → Prop}
    (secures : Secures serves inv rely process program
      (fun outcome state => Secures serves inv rely process cleanup
        (fun done state => ∀ later, rely process state later → inv later →
          match done with
          | .ok _ => post outcome later
          | .error error => post (.error error) later) state) state) :
    Secures serves inv rely process (program.andFinally cleanup) post state := by
  refine Secures.bind stays (Secures.tryCatch stays (secures.mono ?_))
  intro outcome state _ cleans
  cases outcome with
  | ok value =>
      refine Secures.bind stays (cleans.mono fun done state holds ends => ?_)
      cases done with
      | ok _ => exact ends
      | error error => exact ends state stays holds
  | error error =>
      refine Secures.bind stays (cleans.mono fun done state holds ends => ?_)
      cases done with
      | ok _ => exact ends
      | error error => exact ends state stays holds

end

end Program

/-- Processes that all secure their programs keep the invariant, whatever the order of
their requests. -/
theorem Pool.Reaches.secures [DecidableEq ι]
    {serves : ι → (request : call) → σ → reply request → σ → Prop}
    {commands : ι → Program call reply ε α → Prop} {inv : σ → Prop} {rely : ι → σ → σ → Prop}
    {post : ι → Except ε α → σ → Prop} {start : σ} {pool : Pool ι call reply ε α σ}
    (stays : ∀ {process : ι} {state : σ}, rely process state state)
    (follows : ∀ {process : ι} {first second third : σ}, rely process first second →
      rely process second third → rely process first third)
    (initially : inv start)
    (secured : ∀ process program state, commands process program → inv state →
      Program.Secures serves inv rely process program (post process) state)
    (reached : Pool.Reaches serves commands start pool) :
    inv pool.shared ∧ ∀ process program, pool.program process = some program →
      Program.Secures serves inv rely process program (post process) pool.shared := by
  induction reached with
  | refl => exact ⟨initially, fun _ _ started => by cases started⟩
  | tail _ step ih =>
      obtain ⟨holds, secures⟩ := ih
      cases step with
      | @start mover program idle allowed =>
          refine ⟨holds, fun process other is => ?_⟩
          dsimp only at is
          by_cases same : process = mover
          · subst same
            rw [Function.update_self, Option.some.injEq] at is
            exact is ▸ secured process program _ allowed holds
          · rw [Function.update_of_ne same] at is
            exact secures process other is
      | @serve mover request next answer shared runs served =>
          obtain ⟨kept, given, goesOn⟩ := secures mover _ runs _ stays holds answer shared served
          refine ⟨kept, fun process other is => ?_⟩
          dsimp only at is
          by_cases same : process = mover
          · subst same
            rw [Function.update_self, Option.some.injEq] at is
            exact is ▸ goesOn
          · rw [Function.update_of_ne same] at is
            exact (secures process other is).later @follows (given process same)

/-- The program that is left at the end of a run. -/
def Program.ended : Except ε α → Program call reply ε α
  | .ok value => .pure value
  | .error error => .raise error

/-- A process runs to its end while the others wait. -/
theorem Pool.Reaches.alone [DecidableEq ι]
    {serves : ι → (request : call) → σ → reply request → σ → Prop}
    {commands : ι → Program call reply ε α → Prop} {start : σ} {pool : Pool ι call reply ε α σ}
    {process : ι} {serve : (request : call) → σ → reply request × σ}
    (served : ∀ request state, serves process request state (serve request state).1
      (serve request state).2)
    {program : Program call reply ε α} (runs : pool.program process = some program)
    (reached : Pool.Reaches serves commands start pool) :
    ∃ last : Pool ι call reply ε α σ, Pool.Reaches serves commands start last ∧
      last.shared = (program.run serve pool.shared).2 ∧
      last.program process = some (.ended (program.run serve pool.shared).1) := by
  induction program generalizing pool with
  | pure value => exact ⟨pool, reached, rfl, runs⟩
  | raise error => exact ⟨pool, reached, rfl, runs⟩
  | act request next ih =>
      exact ih _ (Function.update_self _ _ _) (reached.tail (.serve runs (served request pool.shared)))

/-- A process is cut short while the others wait. -/
theorem Pool.Reaches.visits [DecidableEq ι]
    {serves : ι → (request : call) → σ → reply request → σ → Prop}
    {commands : ι → Program call reply ε α → Prop} {start : σ} {pool : Pool ι call reply ε α σ}
    {process : ι} {serve : (request : call) → σ → reply request × σ}
    (served : ∀ request state, serves process request state (serve request state).1
      (serve request state).2)
    {program : Program call reply ε α} (runs : pool.program process = some program) {cut : σ}
    (visits : program.Visits serve pool.shared cut)
    (reached : Pool.Reaches serves commands start pool) :
    ∃ last : Pool ι call reply ε α σ, Pool.Reaches serves commands start last ∧ last.shared = cut := by
  induction program generalizing pool with
  | pure value => exact ⟨pool, reached, visits.symm⟩
  | raise error => exact ⟨pool, reached, visits.symm⟩
  | act request next ih =>
      rcases visits with here | later
      · exact ⟨pool, reached, here.symm⟩
      · exact ih _ (Function.update_self _ _ _) later
          (reached.tail (.serve runs (served request pool.shared)))

end CarbonLab
