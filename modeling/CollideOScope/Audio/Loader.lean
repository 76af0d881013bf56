import CollideOScope.Support.Machine
import CollideOScope.Support.Words
import Mathlib.Data.List.Nodup

/-!
# The loader of audio clips

One worker decodes and one request waits.  A completion is delivered if its
generation is current; the death of a worker is reported without that check.
-/

namespace CollideOScope.Audio

structure AudioClipLoadResult (C : Type) where
  generation : ℕ
  path : String
  result : Except String C

inductive AudioClipLoadState
  | idle
  | loading
  deriving DecidableEq

inductive LoadReceiver (C : Type)
  | empty
  | completion (result : Except String C)
  | disconnected

def LoadReceiver.running {C : Type} : LoadReceiver C → ℕ
  | .empty => 1
  | _ => 0

/-- The active worker has the path of its request.  `running` counts the workers
that have not ended. -/
structure AudioClipLoader (C : Type) where
  generation : ℕ := 0
  requestedPath : String := ""
  activeReceiver : Option (String × LoadReceiver C) := none
  activeGeneration : ℕ := 0
  queued : Option (ℕ × String) := none
  spawnError : Option (AudioClipLoadResult C) := none
  running : ℕ := 0

namespace AudioClipLoader

variable {C : Type} (s : AudioClipLoader C)

/-- `spawned` is what the system answers: a thread, or an error. -/
def startRequest (generation : ℕ) (path : String) (spawned : Except String Unit) :
    AudioClipLoader C :=
  match spawned with
  | .ok _ => { s with
    activeReceiver := some (path, .empty)
    activeGeneration := generation
    running := s.running + 1 }
  | .error error => { s with
    spawnError := some ⟨generation, s.requestedPath,
      .error s!"cannot start audio clip loader: {error}"⟩ }

def nextGeneration : ℕ := max ((s.generation + 1) % 2 ^ 64) 1

def request (path : String) (spawned : Except String Unit) : AudioClipLoader C :=
  let generation := s.nextGeneration
  let s := { s with generation, requestedPath := path, spawnError := none }
  if s.activeReceiver.isSome then { s with queued := some (generation, path) }
  else s.startRequest generation path spawned

def cancel : AudioClipLoader C :=
  { s with
    generation := s.nextGeneration
    requestedPath := ""
    queued := none
    spawnError := none }

def state : AudioClipLoadState :=
  if s.spawnError.isSome ∨
      (s.activeReceiver.isSome ∧ s.activeGeneration = s.generation) ∨
      s.queued.isSome then .loading
  else .idle

def startQueued (spawned : Except String Unit) : AudioClipLoader C :=
  let idle := { s with activeReceiver := none, activeGeneration := 0, queued := none }
  s.queued.elim idle fun (generation, path) => idle.startRequest generation path spawned

def poll (spawned : Except String Unit) : Option (AudioClipLoadResult C) × AudioClipLoader C :=
  match s.spawnError, s.activeReceiver with
  | some error, _ => (some error, { s with spawnError := none })
  | none, none | none, some (_, .empty) => (none, s)
  | none, some (path, .completion result) =>
    let next := s.startQueued spawned
    (if s.activeGeneration = s.generation ∧ path = s.requestedPath ∧
        next.activeReceiver.isNone then
      some ⟨s.activeGeneration, path, result⟩ else none, next)
  | none, some (_, .disconnected) =>
    (if s.queued.isSome then none else
      some ⟨s.activeGeneration, s.requestedPath,
        .error "audio clip loader stopped unexpectedly"⟩, s.startQueued spawned)

/-- The running workers are those that the receiver waits for. -/
def Running : Prop := s.running = s.activeReceiver.elim 0 (·.2.running)

variable {s}

theorem nextGeneration_of_lt (h : s.generation + 1 < 2 ^ 64) :
    s.nextGeneration = s.generation + 1 := by
  rw [nextGeneration, Nat.mod_eq_of_lt h]
  omega

theorem running_startRequest (h : s.running = 0) (hactive : s.activeReceiver = none)
    (generation : ℕ) (path : String) (spawned : Except String Unit) :
    (s.startRequest generation path spawned).Running := by
  cases spawned with
  | ok _ => exact congrArg (· + 1) h
  | error _ => simpa [Running, startRequest, hactive] using h

theorem Running.request (h : s.Running) (path : String)
    (spawned : Except String Unit) : (s.request path spawned).Running := by
  simp only [AudioClipLoader.request]
  split
  · exact h
  · rename_i hactive
    have hnone := Option.not_isSome_iff_eq_none.mp hactive
    apply running_startRequest
    · simpa [Running, hnone] using h
    · exact hnone

theorem Running.poll (h : s.Running) (spawned : Except String Unit) :
    (s.poll spawned).2.Running := by
  unfold AudioClipLoader.poll
  split
  · exact h
  · exact h
  · exact h
  all_goals
    have hrunning : s.running = 0 := by
      rw [h, ‹s.activeReceiver = _›]
      rfl
    unfold startQueued
    cases s.queued with
    | none => exact hrunning
    | some _ =>
      apply running_startRequest
      · exact hrunning
      · rfl

/-- The request that is neither cancelled nor delivered, by where it is held. -/
inductive Holds (s : AudioClipLoader C) : Option (ℕ × String) → Prop
  | idle (error : s.spawnError = none) (active : s.activeReceiver = none)
      (queued : s.queued = none) : Holds s none
  | failed (error : AudioClipLoadResult C) (held : s.spawnError = some error)
      (active : s.activeReceiver = none) (queued : s.queued = none)
      (current : error.generation = s.generation) :
      Holds s (some (error.generation, error.path))
  | active (receiver : LoadReceiver C) (error : s.spawnError = none)
      (held : s.activeReceiver = some (s.requestedPath, receiver))
      (queued : s.queued = none) (current : s.activeGeneration = s.generation) :
      Holds s (some (s.generation, s.requestedPath))
  | abandoned (worker : String × LoadReceiver C) (error : s.spawnError = none)
      (held : s.activeReceiver = some worker) (queued : s.queued = none)
      (older : s.activeGeneration < s.generation) : Holds s none
  | waiting (worker : String × LoadReceiver C) (error : s.spawnError = none)
      (held : s.activeReceiver = some worker)
      (queued : s.queued = some (s.generation, s.requestedPath))
      (older : s.activeGeneration < s.generation) :
      Holds s (some (s.generation, s.requestedPath))

/-- No worker that is abandoned with nothing queued behind it has died. -/
def ReportsCurrent (s : AudioClipLoader C) : Prop :=
  ∀ path, s.activeReceiver = some (path, .disconnected) → s.queued = none →
    s.activeGeneration = s.generation

variable {wanted : Option (ℕ × String)}

theorem Holds.start {spawned : Except String Unit} (error : s.spawnError = none)
    (active : s.activeReceiver = none) (queued : s.queued = none) :
    Holds (s.startRequest s.generation s.requestedPath spawned)
      (some (s.generation, s.requestedPath)) := by
  cases spawned with
  | ok _ => exact .active .empty error rfl queued rfl
  | error _ => exact .failed ⟨_, _, _⟩ rfl active queued rfl

theorem Holds.active_le (h : s.Holds wanted) (hactive : s.activeReceiver.isSome) :
    s.activeGeneration ≤ s.generation := by
  cases h with
  | idle _ active | failed _ _ active => simp [active] at hactive
  | active _ _ _ _ current => exact current.le
  | abandoned _ _ _ _ older | waiting _ _ _ _ older => exact older.le

theorem Holds.queued_none (h : s.Holds wanted) (hactive : s.activeReceiver = none) :
    s.queued = none := by
  cases h with
  | idle _ _ queued | failed _ _ _ queued => exact queued
  | active _ _ held | abandoned _ _ held | waiting _ _ held => simp [hactive] at held

theorem Holds.request (h : s.Holds wanted) (hgen : s.generation + 1 < 2 ^ 64)
    (path : String) (spawned : Except String Unit) :
    Holds (s.request path spawned) (some (s.nextGeneration, path)) := by
  simp only [AudioClipLoader.request]
  split
  · rename_i hactive
    obtain ⟨worker, hworker⟩ := Option.isSome_iff_exists.mp hactive
    exact .waiting worker rfl hworker rfl
      ((Nat.lt_succ_of_le (h.active_le hactive)).trans_eq (nextGeneration_of_lt hgen).symm)
  · rename_i hactive
    have hnone := Option.not_isSome_iff_eq_none.mp hactive
    exact Holds.start (s := { s with
      generation := s.nextGeneration, requestedPath := path, spawnError := none })
      rfl hnone (h.queued_none hnone)

theorem Holds.cancel (h : s.Holds wanted) (hgen : s.generation + 1 < 2 ^ 64) :
    Holds s.cancel none := by
  cases hactive : s.activeReceiver with
  | none => exact .idle rfl hactive rfl
  | some worker =>
    have hle := h.active_le (by simp [hactive])
    exact .abandoned worker rfl hactive rfl
      ((Nat.lt_succ_of_le hle).trans_eq (nextGeneration_of_lt hgen).symm)

theorem Holds.poll (h : s.Holds wanted) (hkeep : s.ReportsCurrent) (spawned : Except String Unit) :
    (∃ result, (s.poll spawned).1 = some result ∧ result.generation = s.generation ∧
        wanted = some (result.generation, result.path) ∧
        Holds (s.poll spawned).2 none) ∨
      (s.poll spawned).1 = none ∧ Holds (s.poll spawned).2 wanted ∧
        (wanted.isSome → (∃ path, s.activeReceiver = some (path, .empty)) ∨
          s.queued.isSome ∧ (s.poll spawned).2.queued = none) := by
  have hidle (queued : s.queued = none) : s.startQueued spawned =
      { s with activeReceiver := none, activeGeneration := 0, queued := none } := by
    simp [startQueued, queued]
  cases h with
  | idle error active queued =>
    refine .inr ?_
    simp only [AudioClipLoader.poll, error, active]
    exact ⟨trivial, .idle error active queued, fun h => by cases h⟩
  | failed error held active queued current =>
    refine .inl ⟨error, ?_⟩
    simp only [AudioClipLoader.poll, held]
    exact ⟨trivial, current, trivial, .idle rfl active queued⟩
  | active receiver error held queued current =>
    cases receiver with
    | empty =>
      refine .inr ?_
      simp only [AudioClipLoader.poll, error, held]
      exact ⟨trivial, .active _ error held queued current, fun _ => .inl ⟨_, rfl⟩⟩
    | completion result =>
      refine .inl ⟨⟨s.activeGeneration, s.requestedPath, result⟩, ?_⟩
      simp only [AudioClipLoader.poll, error, held, hidle queued]
      exact ⟨by simp [current], current, by rw [current], .idle rfl rfl rfl⟩
    | disconnected =>
      refine .inl ⟨⟨s.activeGeneration, s.requestedPath,
        .error "audio clip loader stopped unexpectedly"⟩, ?_⟩
      simp only [AudioClipLoader.poll, error, held, hidle queued]
      exact ⟨by simp [queued], current, by rw [current], .idle rfl rfl rfl⟩
  | abandoned worker error held queued older =>
    obtain ⟨path, receiver⟩ := worker
    refine .inr ?_
    cases receiver with
    | empty =>
      simp only [AudioClipLoader.poll, error, held]
      exact ⟨trivial, .abandoned _ error held queued older, fun h => by cases h⟩
    | completion result =>
      simp only [AudioClipLoader.poll, error, held, hidle queued, ne_of_lt older,
        false_and, if_false]
      exact ⟨trivial, .idle rfl rfl rfl, fun h => by cases h⟩
    | disconnected => exact absurd (hkeep path held queued) (ne_of_lt older)
  | waiting worker error held queued older =>
    have hstart : Holds (s.startQueued spawned) (some (s.generation, s.requestedPath)) := by
      simp only [startQueued, queued, Option.elim_some]
      exact Holds.start (s := { s with
        activeReceiver := none, activeGeneration := 0, queued := none }) error rfl rfl
    have hstarted : (s.startQueued spawned).queued = none := by
      simp only [startQueued, queued]
      cases spawned <;> rfl
    obtain ⟨path, receiver⟩ := worker
    refine .inr ?_
    cases receiver with
    | empty =>
      simp only [AudioClipLoader.poll, error, held]
      exact ⟨trivial, .waiting _ error held queued older, fun _ => .inl ⟨_, rfl⟩⟩
    | completion result =>
      simp only [AudioClipLoader.poll, error, held, ne_of_lt older, false_and, if_false]
      exact ⟨trivial, hstart, fun _ => .inr ⟨by simp [queued], hstarted⟩⟩
    | disconnected =>
      simp only [AudioClipLoader.poll, error, held, queued, Option.isSome_some, if_true]
      exact ⟨trivial, hstart, fun _ => .inr ⟨trivial, hstarted⟩⟩

theorem Holds.ends (h : s.Holds wanted) {path : String}
    (hempty : s.activeReceiver = some (path, .empty)) (receiver : LoadReceiver C) :
    Holds { s with activeReceiver := some (path, receiver), running := s.running - 1 } wanted := by
  cases h with
  | idle error active | failed _ _ active => simp [active] at hempty
  | active _ error held queued current =>
    rw [held] at hempty
    cases hempty
    exact .active _ error rfl queued current
  | abandoned _ error held queued older => exact .abandoned _ error rfl queued older
  | waiting _ error held queued older => exact .waiting _ error rfl queued older

theorem Holds.state_eq (h : s.Holds wanted) : s.state = .loading ↔ wanted.isSome := by
  cases h with
  | idle error active queued | failed _ error active queued => simp [state, error, active, queued]
  | active _ error held queued current => simp [state, error, held, queued, current]
  | abandoned _ error held queued older | waiting _ error held queued older =>
    simp [state, error, held, queued, ne_of_lt older]

theorem Holds.wanted_current (h : s.Holds wanted) : ∀ w ∈ wanted, w.1 = s.generation := by
  cases h with
  | idle | abandoned => simp
  | active | waiting => simp
  | failed _ _ _ _ current => simpa using current

theorem request_generation (path : String) (spawned : Except String Unit) :
    (s.request path spawned).generation = s.nextGeneration := by
  simp only [request]
  split
  · rfl
  · cases spawned <;> rfl

theorem poll_generation (spawned : Except String Unit) :
    (s.poll spawned).2.generation = s.generation := by
  have hstart : (s.startQueued spawned).generation = s.generation := by
    unfold startQueued
    cases s.queued <;> cases spawned <;> rfl
  unfold AudioClipLoader.poll
  split <;> first | rfl | exact hstart

end AudioClipLoader

/-- A loader with the request that is neither cancelled nor delivered, and the
results delivered, latest first. -/
structure LoaderHost (C : Type) where
  loader : AudioClipLoader C := {}
  wanted : Option (ℕ × String) := none
  delivered : List (ℕ × String) := []

inductive LoaderCall (C : Type)
  | request (path : String) (spawned : Except String Unit)
  | cancel
  | poll (spawned : Except String Unit)
  | ends (outcome : Option (Except String C))

/-- A worker ends with a completion or without one. -/
def loaderMachine (C : Type) : Machine (LoaderHost C) (LoaderCall C) where
  start s := s = {}
  step s
    | .request path spawned => some { s with
        loader := s.loader.request path spawned
        wanted := some (s.loader.nextGeneration, path) }
    | .cancel => some { s with loader := s.loader.cancel, wanted := none }
    | .poll spawned =>
      let polled := s.loader.poll spawned
      some (polled.1.elim { s with loader := polled.2 } fun result =>
        ⟨polled.2, none, (result.generation, result.path) :: s.delivered⟩)
    | .ends outcome =>
      match s.loader.activeReceiver with
      | some (path, .empty) => some { s with
        loader.activeReceiver := some (path, outcome.elim .disconnected .completion)
        loader.running := s.loader.running - 1 }
      | _ => none

namespace LoaderHost

open Nat Option List AudioClipLoader

variable {C : Type} {s : LoaderHost C}

structure Sound (s : LoaderHost C) : Prop where
  holds : s.loader.Holds s.wanted
  running : s.loader.Running
  once : (s.delivered.map Prod.fst).Nodup
  older : ∀ d ∈ s.delivered, d.1 ≤ s.loader.generation
  fresh : s.wanted.isSome → s.loader.generation ∉ s.delivered.map Prod.fst

/-- A poll reports what is current, and the generations do not wrap. -/
def KeepsGeneration (s : LoaderHost C) : LoaderCall C → Prop
  | .request .. | .cancel => s.loader.generation + 1 < 2 ^ 64
  | .poll _ => s.loader.ReportsCurrent
  | .ends _ => True

theorem Sound.later (h : s.Sound) (hgen : s.loader.generation + 1 < 2 ^ 64)
    {generation : ℕ} (heq : generation = s.loader.nextGeneration) :
    (∀ d ∈ s.delivered, d.1 ≤ generation) ∧ generation ∉ s.delivered.map Prod.fst := by
  rw [nextGeneration_of_lt hgen] at heq
  refine ⟨fun d hd => ?_, fun hmem => ?_⟩
  · have := h.older d hd
    omega
  · obtain ⟨d, hd, hfst⟩ := mem_map.mp hmem
    have := h.older d hd
    omega

theorem Sound.step (h : s.Sound) {call : LoaderCall C} {next : LoaderHost C}
    (hkeep : s.KeepsGeneration call)
    (hstep : (loaderMachine C).step s call = some next) : next.Sound := by
  cases call with
  | request path spawned =>
    cases hstep
    obtain ⟨hle, hnew⟩ := h.later hkeep (request_generation path spawned)
    exact ⟨h.holds.request hkeep path spawned, h.running.request path spawned,
      h.once, hle, fun _ => hnew⟩
  | cancel =>
    cases hstep
    obtain ⟨hle, -⟩ := h.later hkeep rfl
    exact ⟨h.holds.cancel hkeep, h.running, h.once, hle, fun h => by cases h⟩
  | poll spawned =>
    have hgen := poll_generation (s := s.loader) spawned
    have hrunning := h.running.poll spawned
    rcases h.holds.poll hkeep spawned with
      ⟨result, hres, hcurrent, hwanted, hholds⟩ | ⟨hres, hholds, -⟩
    · simp only [loaderMachine, hres, Option.elim_some] at hstep
      cases hstep
      refine ⟨hholds, hrunning, nodup_cons.mpr ⟨?_, h.once⟩, ?_, fun h => by cases h⟩
      · rw [hcurrent]
        exact h.fresh (by simp [hwanted])
      · rintro d (_ | ⟨_, hd⟩)
        · exact le_of_eq (hcurrent.trans hgen.symm)
        · exact hgen.symm ▸ h.older d hd
    · simp only [loaderMachine, hres, elim_none] at hstep
      cases hstep
      exact ⟨hholds, hrunning, h.once, fun d hd => hgen.symm ▸ h.older d hd,
        fun hw => hgen.symm ▸ h.fresh hw⟩
  | ends outcome =>
    simp only [loaderMachine] at hstep
    split at hstep
    · rename_i path hempty
      cases hstep
      refine ⟨h.holds.ends hempty _, ?_, h.once, h.older, h.fresh⟩
      have hone := h.running
      rw [Running, hempty] at hone
      rw [Running, hone]
      cases outcome <;> rfl
    · cases hstep

theorem sound_of_reachable (h : (loaderMachine C).ReachableBy KeepsGeneration s) : s.Sound := by
  refine h.invariant ?_ fun _ _ _ hs hkeep hstep => hs.step hkeep hstep
  rintro _ rfl
  refine ⟨.idle rfl rfl rfl, rfl, ?_, ?_, ?_⟩ <;> simp

/-- **A poll delivers the latest request and nothing else**, but for the death of
an abandoned worker. -/
theorem loader_delivers (h : (loaderMachine C).ReachableBy KeepsGeneration s) :
    s.loader.running ≤ 1 ∧
    (s.delivered.map Prod.fst).Nodup ∧
    (s.loader.state = .loading ↔ s.wanted.isSome) ∧
    (∀ w ∈ s.wanted, w.1 = s.loader.generation ∧ w.1 ∉ s.delivered.map Prod.fst) ∧
    (s.loader.ReportsCurrent → ∀ spawned,
      (∀ result ∈ (s.loader.poll spawned).1, s.wanted = some (result.generation, result.path)) ∧
      (s.wanted.isSome → (s.loader.poll spawned).1.isSome ∨
        (∃ path, s.loader.activeReceiver = some (path, .empty)) ∨
        s.loader.queued.isSome ∧ (s.loader.poll spawned).2.queued = none)) := by
  have hs := sound_of_reachable h
  refine ⟨?_, hs.once, hs.holds.state_eq, fun w hw => ?_, fun hkeep spawned => ?_⟩
  · rw [hs.running]
    cases s.loader.activeReceiver with
    | none => exact zero_le _
    | some worker => obtain ⟨_, _ | _ | _⟩ := worker <;> simp [LoadReceiver.running]
  · have hgen := hs.holds.wanted_current w hw
    exact ⟨hgen, hgen ▸ hs.fresh (by simp [mem_def.mp hw])⟩
  · rcases hs.holds.poll hkeep spawned with ⟨_, hres, -, hwanted, -⟩ | ⟨hnone, -, hlive⟩
    · rw [hres]
      refine ⟨?_, fun _ => .inl rfl⟩
      rintro _ ⟨⟩
      exact hwanted
    · rw [hnone]
      refine ⟨?_, fun h => .inr (hlive h)⟩
      rintro _ ⟨⟩

theorem loader_delivers_started :
    (AudioClipLoader.request ({} : AudioClipLoader Unit) "kick.wav" (.ok ())).running ≤ 1 :=
  (loader_delivers (s := ⟨.request {} "kick.wav" (.ok ()), some (1, "kick.wav"), []⟩)
    ⟨{}, rfl, .tail (.refl _) (e := .request "kick.wav" (.ok ()))
      (Nat.one_lt_two_pow (by decide)) rfl⟩).1

/-- A cancelled request whose worker dies. -/
theorem abandoned_death_reported :
    ¬ ∀ s : LoaderHost Unit, (loaderMachine Unit).Reachable s →
      ∀ spawned, ∀ result ∈ (s.loader.poll spawned).1, result.generation = s.loader.generation := by
  intro h
  have hrun : (loaderMachine Unit).exec {}
      [.request "kick.wav" (.ok ()), .cancel, .ends none] = some _ := rfl
  have := h _ (Machine.reachable_of_exec rfl hrun) (.ok ()) _ rfl
  cases this

end LoaderHost

end CollideOScope.Audio
