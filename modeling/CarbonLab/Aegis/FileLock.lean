import CarbonLab.Aegis.Host
import CarbonLab.Lib.Transition

/-!
# The process lock

`FileLock` of `locks.py`: a lock file that is created exclusively, holds its owner's
process, and is broken by whoever finds that process dead.  Lock objects of several
processes of one host take file system steps on one path, in any order.
-/

namespace CarbonLab.Aegis.FileLock

open Transition

/-- The processes of a host and the lock objects they have for one path. -/
structure Site (ι ρ : Type) where
  host : Host
  /-- `socket.gethostname()` -/
  hostname : Text
  pid : ρ → ℤ
  pid_pos : ∀ process, 0 < pid process
  /-- `_process_identity` -/
  identity : ρ → Option Text
  identity_plain : ∀ process, ∀ string ∈ identity process, mergeSurrogates string = string
  /-- The process that has a lock object. -/
  process : ι → ρ
  purpose : ι → Text

/-- One lock file, told apart from the others that stood at the path. -/
structure Handle (ι : Type) where
  serial : ℕ
  creator : ι
  deriving DecidableEq

/-- Where a lock object is in `acquire` and `release`. -/
inductive Phase (ι : Type)
  /-- No lease, `_owner is None`. -/
  | idle
  /-- In `acquire`, before `os.open`. -/
  | trying (payload : Json)
  /-- The lock file is created and still empty. -/
  | writing (payload : Json) (handle : Handle ι)
  /-- `acquire` returned. -/
  | holding (payload : Json) (handle : Handle ι)
  /-- The file was there; before `read_text` of `inspect`. -/
  | inspecting (payload : Json)
  /-- A record of this host was read; before `_pid_alive`. -/
  | probing (payload : Json) (handle : Handle ι) (record : Json)
  /-- The owner is dead; before `unlink`. -/
  | breaking (payload : Json) (handle : Handle ι)
  /-- Nothing to break; before the deadline is looked at. -/
  | waiting (payload : Json)
  /-- In `release`, before `inspect`. -/
  | leaving (payload : Json) (handle : Handle ι) (nonce : Option Text)
  /-- In `release`, before `unlink`. -/
  | unlinking (payload : Json) (handle : Handle ι)
  /-- `release` raised and left `_owner` as it was. -/
  | refused (payload : Json) (handle : Handle ι)
  deriving DecidableEq

/-- The lock file that a lock object created and may not have removed. -/
def Phase.handle? {ι : Type} : Phase ι → Option (Handle ι)
  | .writing _ handle | .holding _ handle | .leaving _ handle _ | .unlinking _ handle
  | .refused _ handle => some handle
  | _ => none

/-- The stale lock file that a lock object is about to unlink. -/
def Phase.stale? {ι : Type} : Phase ι → Option (Handle ι)
  | .breaking _ handle => some handle
  | _ => none

/-- `acquire` returned and `release` was not entered. -/
def Phase.isHolding {ι : Type} : Phase ι → Bool
  | .holding _ _ => true
  | _ => false

/-- The path of the lock, the processes and the lock objects. -/
structure State (ι ρ : Type) where
  file : Option (Handle ι × Bytes)
  serial : ℕ
  live : List ρ
  gone : List ρ
  phase : ι → Phase ι

/-- What happens next. -/
inductive Label (ι ρ : Type)
  | start (process : ρ)
  | crash (process : ρ)
  | acquire (lock : ι) (nonce created : Text)
  | create (lock : ι)
  | write (lock : ι)
  | read (lock : ι)
  | probe (lock : ι)
  | unlinkStale (lock : ι)
  | retry (lock : ι)
  | timeout (lock : ι)
  | release (lock : ι) (nonce : Option Text)
  | verify (lock : ι)
  | unlinkOwn (lock : ι)

section

variable {ι ρ : Type} (site : Site ι ρ)

/-- `process_identity` in a record. -/
def Site.identityJson (process : ρ) : Json :=
  match site.identity process with
  | some identity => .str identity
  | none => .null

/-- The record that `acquire` writes. -/
def Site.payload (lock : ι) (nonce created : Text) : Json :=
  .obj (Fields.ofPairs [("schema", .int 2), ("nonce", .str nonce),
    ("pid", .int (site.pid (site.process lock))),
    ("process_identity", site.identityJson (site.process lock)),
    ("host", .str site.hostname), ("created", .str created),
    ("purpose", .str (site.purpose lock))])

/-- `_pid_alive` -/
def Site.pidAlive (live : List ρ) (pid : ℤ) (identity : Json) : Bool :=
  0 < pid && live.any fun process => site.pid process = pid &&
    (identity = .null || site.identityJson process = .null ||
      (site.identityJson process).equal identity)

/-- What `inspect` reads before it looks at the process. -/
inductive Inspection
  | missing
  | corrupt
  | record (data : Json)

/-- The first part of `inspect`. -/
def Site.inspect (contents : Option Bytes) : Inspection :=
  match contents with
  | none => .missing
  | some bytes =>
      match readJson site.host.floats bytes with
      | some (.obj fields) =>
          if ((Json.obj fields).get "nonce").str?.isSome then .record (.obj fields) else .corrupt
      | _ => .corrupt

/-- The owner binding that `release` checks. -/
def Site.bound (lock : ι) (payload record : Json) (nonce : Option Text) : Except Raised Bool := do
  let expected := match nonce with
    | some given => if given = [] then payload.get "nonce" else .str given
    | none => payload.get "nonce"
  if ¬ (record.get "nonce").equal expected then return false
  if ¬ (record.get "nonce").equal (payload.get "nonce") then return false
  if ¬ (record.get "host").equal (payload.get "host") then return false
  let pid ← site.host.int (record.getD "pid" (.int (-1)))
  if pid ≠ site.pid (site.process lock) then return false
  return (record.get "process_identity").equal (payload.get "process_identity")

namespace State

variable (state : State ι ρ)

/-- The contents of the lock file. -/
def contents : Option Bytes := state.file.map (·.2)

variable [DecidableEq ι] [DecidableEq ρ]

/-- The state with a lock object elsewhere. -/
def move (lock : ι) (phase : Phase ι) : State ι ρ :=
  { state with phase := Function.update state.phase lock phase }

/-- Steps of a lock object; only a live process takes them. -/
def act (lock : ι) (next : Phase ι → Option (State ι ρ)) : Option (State ι ρ) :=
  if site.process lock ∈ state.live then next (state.phase lock) else none

/-- The step of a label. -/
def step (state : State ι ρ) : Label ι ρ → Option (State ι ρ)
  | .start process =>
      if process ∈ state.live ∨ process ∈ state.gone then none
      else some { state with live := process :: state.live }
  | .crash process =>
      if process ∈ state.live then
        some { state with
          live := state.live.filter (· ≠ process), gone := process :: state.gone }
      else none
  | .acquire lock nonce created =>
      state.act site lock fun
        | .idle => some (state.move lock (.trying (site.payload lock nonce created)))
        | _ => none
  | .create lock =>
      state.act site lock fun
        | .trying payload =>
            match state.file with
            | some _ => some (state.move lock (.inspecting payload))
            | none =>
                let handle := ⟨state.serial, lock⟩
                some { state.move lock (.writing payload handle) with
                  file := some (handle, []), serial := state.serial + 1 }
        | _ => none
  | .write lock =>
      state.act site lock fun
        | .writing payload handle =>
            -- The stream writes to the file it created, wherever the path points now.
            let file := state.file.map fun file =>
              if file.1 = handle then (handle, jsonLine site.host.floats .plain payload) else file
            some { state.move lock (.holding payload handle) with file }
        | _ => none
  | .read lock =>
      state.act site lock fun
        | .inspecting payload =>
            match state.file, site.inspect state.contents with
            | some (handle, _), .record data =>
                if (data.get "host").equal (.str site.hostname) then
                  some (state.move lock (.probing payload handle data))
                else some (state.move lock (.waiting payload))
            | _, _ => some (state.move lock (.waiting payload))
        | _ => none
  | .probe lock =>
      state.act site lock fun
        | .probing payload handle record =>
            match site.host.int (record.getD "pid" (.int (-1))) with
            | .error _ => some (state.move lock .idle)
            | .ok pid =>
                if site.pidAlive state.live pid (record.get "process_identity") then
                  some (state.move lock (.waiting payload))
                else some (state.move lock (.breaking payload handle))
        | _ => none
  | .unlinkStale lock =>
      state.act site lock fun
        | .breaking payload _ => some { state.move lock (.trying payload) with file := none }
        | _ => none
  | .retry lock =>
      state.act site lock fun
        | .waiting payload => some (state.move lock (.trying payload))
        | _ => none
  | .timeout lock =>
      state.act site lock fun
        | .waiting _ => some (state.move lock .idle)
        | _ => none
  | .release lock nonce =>
      state.act site lock fun
        | .holding payload handle | .refused payload handle =>
            some (state.move lock (.leaving payload handle nonce))
        | _ => none
  | .verify lock =>
      state.act site lock fun
        | .leaving payload handle nonce =>
            match site.inspect state.contents with
            | .missing => some (state.move lock .idle)
            | .corrupt => some (state.move lock (.refused payload handle))
            | .record data =>
                match site.bound lock payload data nonce with
                | .ok true => some (state.move lock (.unlinking payload handle))
                | _ => some (state.move lock (.refused payload handle))
        | _ => none
  | .unlinkOwn lock =>
      state.act site lock fun
        | .unlinking payload handle =>
            match state.file with
            | some _ => some { state.move lock .idle with file := none }
            | none => some (state.move lock (.refused payload handle))
        | _ => none

end State

/-- No lock file, no process yet. -/
def initial : State ι ρ := ⟨none, 0, [], [], fun _ => .idle⟩

/-- A live process that returned from `acquire` and did not enter `release`. -/
def State.Holds (state : State ι ρ) (lock : ι) : Prop :=
  site.process lock ∈ state.live ∧ (state.phase lock).isHolding = true

instance (state : State ι ρ) (lock : ι) [DecidableEq ρ] : Decidable (state.Holds site lock) := by
  unfold State.Holds
  infer_instance

/-- At most one lock object holds the lock. -/
def State.Exclusive (state : State ι ρ) : Prop :=
  ∀ first second, state.Holds site first → state.Holds site second → first = second

/-- The unlinking of a stale lock hits the file that was inspected, if any. -/
def Regular (state : State ι ρ) : Label ι ρ → Prop
  | .unlinkStale lock =>
      ∀ handle ∈ (state.phase lock).stale?, ∀ file ∈ state.file, file.1 = handle
  | _ => True

instance [DecidableEq ι] (state : State ι ρ) (label : Label ι ρ) :
    Decidable (Regular state label) := by
  cases label <;> unfold Regular <;> infer_instance

/-! ## What inspection finds -/

variable {site}

theorem getD_normalize_payload (lock : ι) (nonce created key : Text) (default : Json) :
    (site.payload lock nonce created).normalize.getD key default =
      (((site.payload lock nonce created).get? key).map Json.normalize).getD default := by
  have keys : ∀ field ∈ Fields.ofPairs [("schema", .int 2), ("nonce", .str nonce),
      ("pid", .int (site.pid (site.process lock))),
      ("process_identity", site.identityJson (site.process lock)),
      ("host", .str site.hostname), ("created", .str created),
      ("purpose", .str (site.purpose lock))], mergeSurrogates field.1 = field.1 := by
    refine Fields.forall_mem_ofPairs ?_
    simp
  rw [Json.getD, Site.payload, Json.get?_normalize (Fields.ordered_ofPairs _) keys]
  rfl

theorem plain_identityJson (process : ρ) : (site.identityJson process).Plain := by
  rw [Site.identityJson]
  cases named : site.identity process with
  | none => rfl
  | some identity => exact Json.plain_str.mpr (site.identity_plain process identity named)

/-- A live owner's record is not taken for a dead one's. -/
theorem pidAlive_of_mem {live : List ρ} {lock : ι} (alive : site.process lock ∈ live)
    (nonce created : Text) {pid : ℤ}
    (read : site.host.int ((site.payload lock nonce created).normalize.getD "pid" (.int (-1))) =
      .ok pid) :
    site.pidAlive live pid
      ((site.payload lock nonce created).normalize.get "process_identity") = true := by
  have named : (site.payload lock nonce created).normalize.get "process_identity" =
      site.identityJson (site.process lock) := by
    rw [Json.get, getD_normalize_payload]
    simp only [Site.payload, Json.get?, Json.obj?, Option.bind_some, Fields.ofPairs,
      List.foldl_cons, List.foldl_nil, Fields.get?_set, text_eq_text, String.reduceEq, reduceIte]
    exact plain_identityJson _
  have numbered : pid = site.pid (site.process lock) := by
    rw [getD_normalize_payload] at read
    simp only [Site.payload, Json.get?, Json.obj?, Option.bind_some, Fields.ofPairs,
      List.foldl_cons, List.foldl_nil, Fields.get?_set, text_eq_text, String.reduceEq, reduceIte,
      Option.map_some, Json.normalize, Option.getD_some, Host.int, Except.ok.injEq] at read
    exact read.symm
  have same : (site.identityJson (site.process lock)) = .null ∨
      (site.identityJson (site.process lock)).equal (site.identityJson (site.process lock)) = true := by
    rw [Site.identityJson]
    cases site.identity (site.process lock) with
    | none => exact Or.inl rfl
    | some identity => exact Or.inr (Json.equal_str.mpr rfl)
  rw [Site.pidAlive, named, numbered, Bool.and_eq_true, List.any_eq_true]
  refine ⟨by simpa using site.pid_pos _, site.process lock, alive, ?_⟩
  rcases same with none | equal
  · simp [none]
  · simp [equal]

/-- Only a whole record passes the inspection. -/
theorem inspect_record {bytes : Bytes} {lock : ι} {data : Json}
    (written : bytes = [] ∨ ∃ nonce created,
      bytes = jsonLine site.host.floats .plain (site.payload lock nonce created))
    (found : site.inspect (some bytes) = .record data) :
    ∃ nonce created, data = (site.payload lock nonce created).normalize := by
  rcases written with rfl | ⟨nonce, created, rfl⟩
  · have empty : readJson site.host.floats [] = none := rfl
    rw [Site.inspect, empty] at found
    cases found
  · refine ⟨nonce, created, ?_⟩
    rw [Site.inspect, readJson_jsonLine, Site.payload, Json.normalize] at found
    simp only at found
    split at found
    · cases found
      rw [Site.payload, Json.normalize]
    · cases found

/-! ## The invariant -/

/-- The record of a lock object that is still in `acquire`. -/
def Phase.request? : Phase ι → Option Json
  | .trying payload | .writing payload _ | .inspecting payload | .probing payload _ _
  | .breaking payload _ | .waiting payload => some payload
  | _ => none

/-- What the phase of a lock object says about the processes. -/
def Sound (site : Site ι ρ) (live gone : List ρ) (lock : ι) (phase : Phase ι) : Prop :=
  (∀ handle, phase.handle? = some handle → handle.creator = lock) ∧
    (∀ payload, phase.request? = some payload →
      ∃ nonce created, payload = site.payload lock nonce created) ∧
    match phase with
    | .probing _ handle record =>
        (site.process handle.creator ∈ live ∨ site.process handle.creator ∈ gone) ∧
          ∃ nonce created, record = (site.payload handle.creator nonce created).normalize
    | .breaking _ handle => site.process handle.creator ∈ gone
    | _ => True

/-- The lock file is empty or holds the record of its creator. -/
def Written (site : Site ι ρ) (live gone : List ρ) (file : Option (Handle ι × Bytes)) : Prop :=
  ∀ handle contents, file = some (handle, contents) →
    (site.process handle.creator ∈ live ∨ site.process handle.creator ∈ gone) ∧
      (contents = [] ∨ ∃ nonce created,
        contents = jsonLine site.host.floats .plain (site.payload handle.creator nonce created))

/-- The lock file is that of every live lock object that made one and did not remove
it. -/
structure Invariant (site : Site ι ρ) (state : State ι ρ) : Prop where
  apart : ∀ process ∈ state.gone, process ∉ state.live
  unborn : ∀ lock, site.process lock ∉ state.live → site.process lock ∉ state.gone →
    state.phase lock = .idle
  sound : ∀ lock, Sound site state.live state.gone lock (state.phase lock)
  written : Written site state.live state.gone state.file
  present : ∀ lock handle, site.process lock ∈ state.live →
    (state.phase lock).handle? = some handle → ∃ contents, state.file = some (handle, contents)

variable {state : State ι ρ}

/-- Whoever else has made the file is not alive. -/
theorem Invariant.sole (invariant : Invariant site state) {lock other : ι}
    {handle handle' : Handle ι} (live : site.process lock ∈ state.live)
    (made : (state.phase lock).handle? = some handle)
    (live' : site.process other ∈ state.live)
    (made' : (state.phase other).handle? = some handle') : other = lock := by
  obtain ⟨_, there⟩ := invariant.present lock handle live made
  obtain ⟨_, there'⟩ := invariant.present other handle' live' made'
  rw [there] at there'
  obtain rfl : handle = handle' := congrArg Prod.fst (Option.some.inj there')
  rw [← (invariant.sound lock).1 handle made, ← (invariant.sound other).1 handle made']

theorem invariant_initial : Invariant site (initial : State ι ρ) where
  apart := by simp [initial]
  unborn := by simp [initial]
  sound lock := by simp [initial, Sound, Phase.handle?, Phase.request?]
  written := by simp [initial, Written]
  present := by simp [initial, Phase.handle?]

/-- A new process. -/
theorem Invariant.start (invariant : Invariant site state) {process : ρ}
    (new : ¬ (process ∈ state.live ∨ process ∈ state.gone)) :
    Invariant site { state with live := process :: state.live } where
  apart gone member live := by
    rcases List.mem_cons.mp live with rfl | live
    · exact new (Or.inr member)
    · exact invariant.apart gone member live
  unborn lock absent gone :=
    invariant.unborn lock (fun live => absent (List.mem_cons_of_mem _ live)) gone
  sound lock := by
    obtain ⟨created, own, rest⟩ := invariant.sound lock
    refine ⟨created, own, ?_⟩
    cases phase : state.phase lock with
    | probing payload handle record =>
        rw [phase] at rest
        exact ⟨rest.1.imp (List.mem_cons_of_mem _) id, rest.2⟩
    | _ =>
        rw [phase] at rest
        exact rest
  written handle contents there := by
    obtain ⟨started, holds⟩ := invariant.written handle contents there
    exact ⟨started.imp (List.mem_cons_of_mem _) id, holds⟩
  present lock handle live made := by
    rcases List.mem_cons.mp live with same | live
    · rw [not_or, ← same] at new
      rw [invariant.unborn lock new.1 new.2] at made
      cases made
    · exact invariant.present lock handle live made

section

variable [DecidableEq ρ]

theorem State.act_eq_some {lock : ι} {next : Phase ι → Option (State ι ρ)} {after : State ι ρ} :
    state.act site lock next = some after ↔
      site.process lock ∈ state.live ∧ next (state.phase lock) = some after := by
  rw [State.act]
  split <;> simp_all

/-- Whoever was alive is alive or gone. -/
theorem mem_after_crash {live gone : List ρ} {process other : ρ}
    (started : other ∈ live ∨ other ∈ gone) :
    other ∈ live.filter (· ≠ process) ∨ other ∈ process :: gone := by
  by_cases same : other = process
  · exact Or.inr (same ▸ List.mem_cons_self)
  · rcases started with alive | dead
    · exact Or.inl (List.mem_filter.mpr ⟨alive, by simpa using same⟩)
    · exact Or.inr (List.mem_cons_of_mem _ dead)

/-- A process that is gone for good. -/
theorem Invariant.crash (invariant : Invariant site state) {process : ρ} :
    Invariant site
      { state with live := state.live.filter (· ≠ process), gone := process :: state.gone } where
  apart gone member live := by
    obtain ⟨live, other⟩ := List.mem_filter.mp live
    rcases List.mem_cons.mp member with rfl | member
    · simp at other
    · exact invariant.apart gone member live
  unborn lock absent notGone := by
    refine invariant.unborn lock ?_ fun gone => notGone (List.mem_cons_of_mem _ gone)
    intro live
    rcases mem_after_crash (Or.inl live) with live | gone
    · exact absent live
    · exact notGone gone
  sound lock := by
    obtain ⟨created, own, rest⟩ := invariant.sound lock
    refine ⟨created, own, ?_⟩
    cases phase : state.phase lock with
    | probing payload handle record =>
        rw [phase] at rest
        exact ⟨mem_after_crash rest.1, rest.2⟩
    | breaking payload handle =>
        rw [phase] at rest
        exact List.mem_cons_of_mem _ rest
    | _ => trivial
  written handle contents there := by
    obtain ⟨started, holds⟩ := invariant.written handle contents there
    exact ⟨mem_after_crash started, holds⟩
  present lock handle live made :=
    invariant.present lock handle (List.mem_filter.mp live).1 made

end

variable [DecidableEq ι]

/-- A step of one lock object that may change the file. -/
theorem Invariant.change (invariant : Invariant site state) {lock : ι} {phase : Phase ι}
    {file : Option (Handle ι × Bytes)} {serial : ℕ} (live : site.process lock ∈ state.live)
    (sound : Sound site state.live state.gone lock phase)
    (written : Written site state.live state.gone file)
    (own : ∀ handle, phase.handle? = some handle → ∃ contents, file = some (handle, contents))
    (others : ∀ other handle, other ≠ lock → site.process other ∈ state.live →
      (state.phase other).handle? = some handle → ∃ contents, file = some (handle, contents)) :
    Invariant site { state.move lock phase with file, serial } where
  apart := invariant.apart
  unborn other absent notGone := by
    have other_ne : other ≠ lock := fun same => absent (same ▸ live)
    simpa [State.move, other_ne] using invariant.unborn other absent notGone
  sound other := by
    by_cases same : other = lock
    · subst same
      simpa [State.move] using sound
    · simpa [State.move, same] using invariant.sound other
  written := written
  present other handle live made := by
    by_cases same : other = lock
    · subst same
      exact own handle (by simpa [State.move] using made)
    · exact others other handle same live (by simpa [State.move, same] using made)

/-- A step of one lock object that leaves the file as it is. -/
theorem Invariant.move (invariant : Invariant site state) {lock : ι} {phase : Phase ι}
    (live : site.process lock ∈ state.live)
    (sound : Sound site state.live state.gone lock phase)
    (own : ∀ handle, phase.handle? = some handle → (state.phase lock).handle? = some handle) :
    Invariant site (state.move lock phase) :=
  invariant.change live sound invariant.written
    (fun handle made => invariant.present lock handle live (own handle made))
    (fun other handle _ live made => invariant.present other handle live made)

variable [DecidableEq ρ]

theorem Invariant.create (invariant : Invariant site state) {lock : ι} {after : State ι ρ}
    (taken : state.step site (.create lock) = some after) : Invariant site after := by
  rw [State.step, State.act_eq_some] at taken
  obtain ⟨live, taken⟩ := taken
  split at taken
  · next payload trying =>
      have own := (invariant.sound lock).2.1 payload (by rw [trying]; rfl)
      split at taken
      · cases taken
        exact invariant.move live ⟨by simp [Phase.handle?], by simpa [Phase.request?] using own,
          trivial⟩ (by simp [Phase.handle?])
      · next empty =>
          cases taken
          refine invariant.change live ⟨?_, by simpa [Phase.request?] using own, trivial⟩ ?_ ?_ ?_
          · rintro handle ⟨⟩
            rfl
          · rintro handle contents ⟨⟩
            exact ⟨Or.inl live, Or.inl rfl⟩
          · rintro handle ⟨⟩
            exact ⟨[], rfl⟩
          · intro other handle _ otherLive made
            obtain ⟨_, there⟩ := invariant.present other handle otherLive made
            rw [empty] at there
            cases there
  · cases taken

theorem Invariant.write (invariant : Invariant site state) {lock : ι} {after : State ι ρ}
    (taken : state.step site (.write lock) = some after) : Invariant site after := by
  rw [State.step, State.act_eq_some] at taken
  obtain ⟨live, taken⟩ := taken
  split at taken
  · next payload handle writing =>
      cases taken
      have made : (state.phase lock).handle? = some handle := by rw [writing]; rfl
      have creator := (invariant.sound lock).1 handle made
      obtain ⟨nonce, created, own⟩ :=
        (invariant.sound lock).2.1 payload (by rw [writing]; rfl)
      obtain ⟨contents, there⟩ := invariant.present lock handle live made
      have file : state.file.map (fun file => if file.1 = handle
          then (handle, jsonLine site.host.floats .plain payload) else file) =
          some (handle, jsonLine site.host.floats .plain payload) := by
        rw [there]
        simp
      rw [file]
      refine invariant.change live ⟨?_, by simp [Phase.request?], trivial⟩ ?_ ?_ ?_
      · rintro handle ⟨⟩
        exact creator
      · rintro handle contents ⟨⟩
        exact ⟨Or.inl (creator.symm ▸ live), Or.inr ⟨nonce, created, by rw [creator, own]⟩⟩
      · rintro handle ⟨⟩
        exact ⟨_, rfl⟩
      · intro other handle' differs otherLive made'
        exact absurd (invariant.sole live made otherLive made') differs
  · cases taken

theorem Invariant.read (invariant : Invariant site state) {lock : ι} {after : State ι ρ}
    (taken : state.step site (.read lock) = some after) : Invariant site after := by
  rw [State.step, State.act_eq_some] at taken
  obtain ⟨live, taken⟩ := taken
  split at taken
  · next payload inspecting =>
      have own := (invariant.sound lock).2.1 payload (by rw [inspecting]; rfl)
      have waits : Invariant site (state.move lock (.waiting payload)) :=
        invariant.move live ⟨by simp [Phase.handle?], by simpa [Phase.request?] using own,
          trivial⟩ (by simp [Phase.handle?])
      split at taken
      · next handle contents data there found =>
          split at taken
          · cases taken
            obtain ⟨started, written⟩ := invariant.written handle contents there
            rw [State.contents, there] at found
            exact invariant.move live ⟨by simp [Phase.handle?],
              by simpa [Phase.request?] using own, started, inspect_record written found⟩
              (by simp [Phase.handle?])
          · cases taken
            exact waits
      · cases taken
        exact waits
  · cases taken

theorem Invariant.probe (invariant : Invariant site state) {lock : ι} {after : State ι ρ}
    (taken : state.step site (.probe lock) = some after) : Invariant site after := by
  rw [State.step, State.act_eq_some] at taken
  obtain ⟨live, taken⟩ := taken
  split at taken
  · next payload handle record probing =>
      obtain ⟨_, own, found⟩ := invariant.sound lock
      rw [probing] at own found
      obtain ⟨started, nonce, created, rfl⟩ := found
      replace own := own payload rfl
      split at taken
      · cases taken
        exact invariant.move live ⟨by simp [Phase.handle?], by simp [Phase.request?], trivial⟩
          (by simp [Phase.handle?])
      · next pid read =>
          split at taken
          · cases taken
            exact invariant.move live ⟨by simp [Phase.handle?],
              by simpa [Phase.request?] using own, trivial⟩ (by simp [Phase.handle?])
          · next dead =>
              cases taken
              -- A dead owner has started, so it is gone.
              have gone : site.process handle.creator ∈ state.gone :=
                started.resolve_left fun alive => dead (pidAlive_of_mem alive nonce created read)
              exact invariant.move live ⟨by simp [Phase.handle?],
                by simpa [Phase.request?] using own, gone⟩ (by simp [Phase.handle?])
  · cases taken

/-- Breaking a lock removes a file whose creator is gone. -/
theorem Invariant.unlinkStale (invariant : Invariant site state) {lock : ι} {after : State ι ρ}
    (regular : Regular state (.unlinkStale lock : Label ι ρ))
    (taken : state.step site (.unlinkStale lock) = some after) : Invariant site after := by
  rw [State.step, State.act_eq_some] at taken
  obtain ⟨live, taken⟩ := taken
  split at taken
  · next payload handle breaking =>
      cases taken
      obtain ⟨_, own, gone⟩ := invariant.sound lock
      rw [breaking] at own gone
      replace gone : site.process handle.creator ∈ state.gone := gone
      refine invariant.change live ⟨by simp [Phase.handle?],
        by simpa [Phase.request?] using own, trivial⟩ (by simp [Written])
        (by simp [Phase.handle?]) ?_
      intro other handle' _ otherLive made
      obtain ⟨contents, there⟩ := invariant.present other handle' otherLive made
      have same : handle' = handle := regular handle (by rw [breaking]; rfl) _ there
      have creator := (invariant.sound other).1 handle' made
      rw [← same, creator] at gone
      exact absurd otherLive (invariant.apart _ gone)
  · cases taken

theorem Invariant.unlinkOwn (invariant : Invariant site state) {lock : ι} {after : State ι ρ}
    (taken : state.step site (.unlinkOwn lock) = some after) : Invariant site after := by
  rw [State.step, State.act_eq_some] at taken
  obtain ⟨live, taken⟩ := taken
  split at taken
  · next payload handle unlinking =>
      have made : (state.phase lock).handle? = some handle := by rw [unlinking]; rfl
      split at taken
      · cases taken
        refine invariant.change live ⟨by simp [Phase.handle?], by simp [Phase.request?], trivial⟩
          (by simp [Written]) (by simp [Phase.handle?]) ?_
        intro other handle' differs otherLive made'
        exact absurd (invariant.sole live made otherLive made') differs
      · next empty =>
          obtain ⟨_, there⟩ := invariant.present lock handle live made
          rw [empty] at there
          cases there
  · cases taken

theorem Invariant.release (invariant : Invariant site state) {lock : ι} {nonce : Option Text}
    {after : State ι ρ} (taken : state.step site (.release lock nonce) = some after) :
    Invariant site after := by
  rw [State.step, State.act_eq_some] at taken
  obtain ⟨live, taken⟩ := taken
  split at taken
  all_goals
    first
    | next payload handle phase =>
        cases taken
        have creator := (invariant.sound lock).1 handle (by rw [phase]; rfl)
        exact invariant.move live ⟨by simpa [Phase.handle?] using creator,
          by simp [Phase.request?], trivial⟩ (by simp [phase, Phase.handle?])
    | cases taken

theorem Invariant.verify (invariant : Invariant site state) {lock : ι} {after : State ι ρ}
    (taken : state.step site (.verify lock) = some after) : Invariant site after := by
  rw [State.step, State.act_eq_some] at taken
  obtain ⟨live, taken⟩ := taken
  split at taken
  · next payload handle nonce leaving =>
      have creator := (invariant.sound lock).1 handle (by rw [leaving]; rfl)
      have refused : Invariant site (state.move lock (.refused payload handle)) :=
        invariant.move live ⟨by simpa [Phase.handle?] using creator,
          by simp [Phase.request?], trivial⟩ (by simp [leaving, Phase.handle?])
      split at taken
      · cases taken
        exact invariant.move live ⟨by simp [Phase.handle?], by simp [Phase.request?], trivial⟩
          (by simp [Phase.handle?])
      · cases taken
        exact refused
      · split at taken
        · cases taken
          exact invariant.move live ⟨by simpa [Phase.handle?] using creator,
            by simp [Phase.request?], trivial⟩ (by simp [leaving, Phase.handle?])
        · cases taken
          exact refused
  · cases taken

/-- Every regular step keeps the invariant. -/
theorem Invariant.step (invariant : Invariant site state) {label : Label ι ρ} {after : State ι ρ}
    (regular : Regular state label) (taken : state.step site label = some after) :
    Invariant site after := by
  cases label with
  | start process =>
      rw [State.step] at taken
      split at taken
      · cases taken
      · next new =>
          cases taken
          exact invariant.start new
  | crash process =>
      rw [State.step] at taken
      split at taken
      · cases taken
        exact invariant.crash
      · cases taken
  | acquire lock nonce created =>
      rw [State.step, State.act_eq_some] at taken
      obtain ⟨live, taken⟩ := taken
      split at taken
      · cases taken
        exact invariant.move live ⟨by simp [Phase.handle?],
          fun _ is => ⟨nonce, created, (Option.some.inj is).symm⟩, trivial⟩ (by simp [Phase.handle?])
      · cases taken
  | create lock => exact invariant.create taken
  | write lock => exact invariant.write taken
  | read lock => exact invariant.read taken
  | probe lock => exact invariant.probe taken
  | unlinkStale lock => exact invariant.unlinkStale regular taken
  | retry lock =>
      rw [State.step, State.act_eq_some] at taken
      obtain ⟨live, taken⟩ := taken
      split at taken
      · next payload waiting =>
          cases taken
          have own := (invariant.sound lock).2.1 payload (by rw [waiting]; rfl)
          exact invariant.move live ⟨by simp [Phase.handle?],
            by simpa [Phase.request?] using own, trivial⟩ (by simp [Phase.handle?])
      · cases taken
  | timeout lock =>
      rw [State.step, State.act_eq_some] at taken
      obtain ⟨live, taken⟩ := taken
      split at taken
      · cases taken
        exact invariant.move live ⟨by simp [Phase.handle?], by simp [Phase.request?], trivial⟩
          (by simp [Phase.handle?])
      · cases taken
  | release lock nonce => exact invariant.release taken
  | verify lock => exact invariant.verify taken
  | unlinkOwn lock => exact invariant.unlinkOwn taken

/-- At most one live process holds the lock, in every run in which whoever breaks a stale
lock removes the file it inspected. -/
theorem reachable_exclusive (site : Site ι ρ) {state : State ι ρ}
    (reached : Reachable (State.step site) Regular initial state) : state.Exclusive site := by
  have invariant : Invariant site state :=
    reached.invariant invariant_initial fun _ _ _ invariant regular taken =>
      invariant.step regular taken
  have file {lock : ι} (holding : (state.phase lock).isHolding = true) :
      ∃ handle, (state.phase lock).handle? = some handle := by
    cases phase : state.phase lock with
    | holding payload handle => exact ⟨handle, rfl⟩
    | _ => simp [phase, Phase.isHolding] at holding
  rintro first second ⟨live, holding⟩ ⟨live', holding'⟩
  obtain ⟨handle, made⟩ := file holding
  obtain ⟨handle', made'⟩ := file holding'
  exact invariant.sole live' made' live made

end

/-! ## Runs of three processes -/

/-- Three processes with one lock object each. -/
def threeProcesses : Site (Fin 3) (Fin 3) where
  host := tableHost []
  hostname := "laboratory"
  pid process := process.val + 100
  pid_pos process := by omega
  identity process := some (text "proc-start:" ++ digitText (digitsOf process.val))
  identity_plain := by decide
  process := id
  purpose _ := "evidence-ledger"

/-- The first process takes the lock and crashes; the other two find it dead. -/
def staleLock : List (Label (Fin 3) (Fin 3)) :=
  [.start 0, .start 1, .start 2, .acquire 0 "a" "t", .create 0, .write 0, .crash 0,
    .acquire 1 "b" "t", .create 1, .read 1, .probe 1, .acquire 2 "c" "t", .create 2, .read 2,
    .probe 2]

/-- Each of the two breaks the lock and takes it. -/
def bothBreak : List (Label (Fin 3) (Fin 3)) :=
  [.unlinkStale 1, .create 1, .write 1, .unlinkStale 2, .create 2, .write 2]

/-- A process can break the lock that another one has just taken. -/
theorem bothBreak_not_exclusive :
    ¬ ∀ state, Reachable (State.step threeProcesses) (fun _ _ => True) initial state →
      state.Exclusive threeProcesses := by
  intro exclusive
  have ran : (runLabels (State.step threeProcesses) (fun _ _ => true) initial
      (staleLock ++ bothBreak)).any (fun state =>
        state.Holds threeProcesses 1 ∧ state.Holds threeProcesses 2) = true := by
    decide +kernel
  obtain ⟨state, final, both⟩ := (Option.any_eq_true _ _).mp ran
  obtain ⟨first, second⟩ := of_decide_eq_true both
  have reached := (Reachable.of_runLabels Reachable.refl final).mono fun _ _ _ => trivial
  exact absurd (exclusive state reached 1 2 first second) (by decide)

/-- One process breaks the lock, takes it and gives it back before the other one breaks
and takes it. -/
def oneBreaks : List (Label (Fin 3) (Fin 3)) :=
  [.unlinkStale 1, .create 1, .write 1, .release 1 none, .verify 1, .unlinkOwn 1,
    .unlinkStale 2, .create 2, .write 2]

theorem reachable_exclusive_oneBreaks :
    ∃ state, Reachable (State.step threeProcesses) Regular initial state ∧
      state.Holds threeProcesses 2 ∧ state.Exclusive threeProcesses := by
  have ran : (runLabels (State.step threeProcesses) (fun state label => Regular state label)
      initial (staleLock ++ oneBreaks)).any (fun state => state.Holds threeProcesses 2) = true := by
    decide +kernel
  obtain ⟨state, final, holds⟩ := (Option.any_eq_true _ _).mp ran
  have reached := (Reachable.of_runLabels Reachable.refl final).mono
    fun _ _ allowed => of_decide_eq_true allowed
  exact ⟨state, reached, of_decide_eq_true holds, reachable_exclusive threeProcesses reached⟩

end CarbonLab.Aegis.FileLock
