import CollideOScope.Support.Words
import Mathlib.Data.List.Induction

/-!
# The latest-only gate

Workers finish after their work was superseded or cancelled.  A gate hands out
tokens and publishes only the newest one that is still wanted.

A run is told by its events, the latest one first.  What the gate has to do is
said by the events alone; its four fields are then related to them.
-/

namespace CollideOScope.Publication

open List Nat

structure PublicationToken where
  (epoch generation : ℕ)
  deriving DecidableEq

structure LatestOnlyPublicationGate where
  (epoch nextGeneration : ℕ)
  requested : Option PublicationToken
  publishedGeneration : Option ℕ

inductive GateCall
  | request | claimLatest | cancelAll
  | tryPublish (token : PublicationToken)

inductive GateEvent
  | requested (token : PublicationToken)
  | claimed (token : Option PublicationToken)
  | cancelled
  | published (token : PublicationToken)
  | refused (token : PublicationToken)

/-- `wrapping_add(1)` on 64 bits. -/
def wrappingSucc (value : ℕ) : ℕ := (value + 1) % 2 ^ 64

theorem wrappingSucc_of_lt {value : ℕ} (h : value + 1 < 2 ^ 64) : wrappingSucc value = value + 1 :=
  mod_eq_of_lt h

namespace LatestOnlyPublicationGate

def default : LatestOnlyPublicationGate := ⟨0, 0, none, none⟩

def request (gate : LatestOnlyPublicationGate) : PublicationToken × LatestOnlyPublicationGate :=
  let generation := max (wrappingSucc gate.nextGeneration) 1
  let token := ⟨gate.epoch, generation⟩
  (token, { gate with nextGeneration := generation, requested := some token })

def claimLatest (gate : LatestOnlyPublicationGate) : Option PublicationToken := gate.requested

def cancelAll (gate : LatestOnlyPublicationGate) : LatestOnlyPublicationGate :=
  { gate with epoch := wrappingSucc gate.epoch, requested := none }

def tryPublish (gate : LatestOnlyPublicationGate) (token : PublicationToken) :
    Bool × LatestOnlyPublicationGate :=
  if gate.requested ≠ some token ∨ token.epoch ≠ gate.epoch then (false, gate)
  else if gate.publishedGeneration.any (token.generation ≤ ·) then (false, gate)
  else
    (true, { gate with
      publishedGeneration := some token.generation
      requested := none })

def perform (gate : LatestOnlyPublicationGate) : GateCall → GateEvent × LatestOnlyPublicationGate
  | .request => ((.requested gate.request.1), gate.request.2)
  | .claimLatest => (.claimed gate.claimLatest, gate)
  | .cancelAll => (.cancelled, gate.cancelAll)
  | .tryPublish token =>
    ((if (gate.tryPublish token).1 then .published token else .refused token),
      (gate.tryPublish token).2)

end LatestOnlyPublicationGate

def gateRun (calls : List GateCall) : List GateEvent × LatestOnlyPublicationGate :=
  calls.foldl (fun run call =>
    ((run.2.perform call).1 :: run.1, (run.2.perform call).2)) ([], .default)

def GateEvent.keepsRequest : GateEvent → Prop
  | requested _ | cancelled => False
  | claimed _ | published _ | refused _ => True

/-- The token is the newest requested one, nothing was cancelled since, and it
was not published. -/
def Outstanding (events : List GateEvent) (token : PublicationToken) : Prop :=
  (∃ after before, events = after ++ .requested token :: before ∧
    ∀ event ∈ after, event.keepsRequest) ∧
  GateEvent.published token ∉ events

def GateEvent.publishedGeneration : GateEvent → Option ℕ
  | published token => some token.generation
  | _ => none

/-- Exactly outstanding tokens are published, each once, by increasing
generations. -/
structure LatestOnly (events : List GateEvent) : Prop where
  published : ∀ after token before,
    events = after ++ .published token :: before → Outstanding before token
  refused : ∀ after token before,
    events = after ++ .refused token :: before → ¬Outstanding before token
  once : (events.filterMap GateEvent.publishedGeneration).Nodup
  increasing : (events.filterMap GateEvent.publishedGeneration).Pairwise (· > ·)

variable {token : PublicationToken} {events : List GateEvent}

open GateEvent

theorem outstanding_requested
    {given : PublicationToken} (hnew : GateEvent.published given ∉ events) :
    Outstanding (.requested given :: events) token ↔ given = token := by
  constructor
  · rintro ⟨⟨after, before, hevs, hkeeps⟩, -⟩
    cases after with
    | nil =>
      obtain ⟨hhead, -⟩ := cons.inj hevs
      exact requested.inj hhead
    | cons event after =>
      obtain ⟨rfl, -⟩ := cons.inj hevs
      exact (hkeeps _ mem_cons_self).elim
  · rintro rfl
    refine ⟨⟨[], events, rfl, fun _ h => absurd h not_mem_nil⟩, ?_⟩
    simpa using hnew

theorem not_outstanding_cancelled : ¬Outstanding (.cancelled :: events) token := by
  rintro ⟨⟨after, before, hevs, hkeeps⟩, -⟩
  cases after with
  | nil => cases hevs
  | cons event after =>
    obtain ⟨rfl, -⟩ := cons.inj hevs
    exact hkeeps _ mem_cons_self

variable {event : GateEvent}

theorem outstanding_keeps (hkeeps : event.keepsRequest) :
    Outstanding (event :: events) token ↔ Outstanding events token ∧ event ≠ .published token := by
  constructor
  · rintro ⟨⟨after, before, hevs, hafter⟩, hnew⟩
    rw [mem_cons, not_or] at hnew
    refine ⟨⟨?_, hnew.2⟩, Ne.symm hnew.1⟩
    cases after with
    | nil =>
      obtain ⟨rfl, -⟩ := cons.inj hevs
      exact hkeeps.elim
    | cons first after =>
      obtain ⟨-, htail⟩ := cons.inj hevs
      exact ⟨after, before, htail, fun other h => hafter other (mem_cons_of_mem _ h)⟩
  · rintro ⟨⟨⟨after, before, rfl, hafter⟩, hnew⟩, hev⟩
    refine ⟨⟨event :: after, before, rfl, ?_⟩, ?_⟩
    · intro other hother
      rcases mem_cons.mp hother with rfl | hmem
      · exact hkeeps
      · exact hafter other hmem
    · rw [mem_cons, not_or]
      exact ⟨Ne.symm hev, hnew⟩

/-- How the fields are related to the events of fewer than `2 ^ 64` calls. -/
structure GateSound (events : List GateEvent) (gate : LatestOnlyPublicationGate) : Prop where
  epoch_le : gate.epoch ≤ events.length
  generation_le : gate.nextGeneration ≤ events.length
  outstanding : ∀ token, gate.requested = some token ↔ Outstanding events token
  newest : ∀ token ∈ gate.requested, token = ⟨gate.epoch, gate.nextGeneration⟩
  fresh : ∀ token ∈ gate.requested, ∀ g ∈ gate.publishedGeneration, g < token.generation
  published_le : ∀ g ∈ gate.publishedGeneration, g ≤ gate.nextGeneration
  publishedGenerations :
    ∀ g ∈ events.filterMap GateEvent.publishedGeneration,
      ∃ last ∈ gate.publishedGeneration, g ≤ last
  latestOnly : LatestOnly events

theorem latestOnly_cons (h : LatestOnly events)
    (hpub : ∀ token, event = .published token →
      Outstanding events token ∧
      ∀ g ∈ events.filterMap GateEvent.publishedGeneration, g < token.generation)
    (href : ∀ token, event = .refused token → ¬Outstanding events token) :
    LatestOnly (event :: events) := by
  have hinc : ((event :: events).filterMap publishedGeneration).Pairwise (· > ·) := by
    rw [filterMap_cons]
    split
    · exact h.increasing
    · next g hg =>
        cases event with
        | published token =>
          cases hg
          exact pairwise_cons.mpr ⟨(hpub token rfl).2, h.increasing⟩
        | _ => cases hg
  refine ⟨?_, ?_, hinc.imp fun hlt => ne_of_gt hlt, hinc⟩
  · intro after token before hevs
    cases after with
    | nil =>
      obtain ⟨rfl, rfl⟩ := cons.inj hevs
      exact (hpub token rfl).1
    | cons first after => exact h.published after token before (cons.inj hevs).2
  · intro after token before hevs
    cases after with
    | nil =>
      obtain ⟨rfl, rfl⟩ := cons.inj hevs
      exact href token rfl
    | cons first after => exact h.refused after token before (cons.inj hevs).2

theorem gateSound_default : GateSound [] .default := by
  have hemp : LatestOnly [] := by
    refine ⟨?_, ?_, nodup_nil, List.Pairwise.nil⟩
    · simp
    · simp
  refine ⟨le_refl _, le_refl _, ?_, ?_, ?_, ?_, ?_, hemp⟩
  · simp [LatestOnlyPublicationGate.default, Outstanding]
  · intro token h
    cases h
  · intro token h
    cases h
  · intro g h
    cases h
  · intro g h
    cases h

namespace GateSound

variable {events : List GateEvent} {gate : LatestOnlyPublicationGate}

variable (h : GateSound events gate)
include h

theorem published_lt {n : ℕ} (hn : gate.nextGeneration < n) :
    ∀ g ∈ events.filterMap GateEvent.publishedGeneration, g < n := by
  intro g hg
  obtain ⟨last, hlast, hle⟩ := h.publishedGenerations g hg
  exact (hle.trans (h.published_le last hlast)).trans_lt hn

theorem request (hcalls : events.length + 1 < 2 ^ 64) :
    GateSound (.requested gate.request.1 :: events) gate.request.2 := by
  have hnext : max (wrappingSucc gate.nextGeneration) 1 = gate.nextGeneration + 1 := by
    rw [wrappingSucc_of_lt (by have := h.generation_le; omega)]
    exact max_eq_left (succ_pos _)
  have hreq : gate.request =
      (⟨gate.epoch, gate.nextGeneration + 1⟩,
        { gate with
          nextGeneration := gate.nextGeneration + 1
          requested := some ⟨gate.epoch, gate.nextGeneration + 1⟩ }) := by
    simp only [LatestOnlyPublicationGate.request, hnext]
  rw [hreq]
  have hbelow := h.published_lt (lt_succ_self gate.nextGeneration)
  have hnew : published ⟨gate.epoch, gate.nextGeneration + 1⟩ ∉
      events := by
    intro hmem
    have hlt := hbelow _ (mem_filterMap.mpr ⟨_, hmem, rfl⟩)
    exact absurd hlt (lt_irrefl _)
  refine ⟨?_, ?_, ?_, ?_, ?_, ?_, ?_, ?_⟩
  · exact h.epoch_le.trans (le_succ _)
  · exact succ_le_succ h.generation_le
  · intro token
    rw [outstanding_requested hnew, Option.some.injEq]
  · intro token htok
    exact (Option.some.inj htok).symm
  · intro token htok g hg
    cases htok
    exact lt_succ_of_le (h.published_le g hg)
  · intro g hg
    exact (h.published_le g hg).trans (le_succ _)
  · exact h.publishedGenerations
  · exact latestOnly_cons h.latestOnly (fun _ he => by cases he)
      fun _ he => by cases he

theorem cancelAll (hcalls : events.length + 1 < 2 ^ 64) :
    GateSound (.cancelled :: events) gate.cancelAll := by
  have hepoch : wrappingSucc gate.epoch = gate.epoch + 1 :=
    wrappingSucc_of_lt (by have := h.epoch_le; omega)
  refine ⟨?_, ?_, ?_, ?_, ?_, h.published_le, h.publishedGenerations, ?_⟩
  · rw [LatestOnlyPublicationGate.cancelAll, hepoch]
    exact succ_le_succ h.epoch_le
  · exact h.generation_le.trans (le_succ _)
  · intro token
    exact iff_of_false (fun he => by cases he) not_outstanding_cancelled
  · intro token htok
    cases htok
  · intro token htok
    cases htok
  · exact latestOnly_cons h.latestOnly (fun _ he => by cases he)
      fun _ he => by cases he

theorem unchanged {event : GateEvent} (hkeeps : event.keepsRequest)
    (hnone : event.publishedGeneration = none)
    (href : ∀ token, event = .refused token → ¬Outstanding events token) :
    GateSound (event :: events) gate := by
  have hpub : ∀ token, event ≠ .published token := by
    rintro token rfl
    cases hnone
  refine ⟨h.epoch_le.trans (le_succ _), h.generation_le.trans (le_succ _), ?_, h.newest, h.fresh,
    h.published_le, ?_, ?_⟩
  · intro token
    rw [outstanding_keeps hkeeps, and_iff_left (hpub token)]
    exact h.outstanding token
  · rw [filterMap_cons, hnone]
    exact h.publishedGenerations
  · exact latestOnly_cons h.latestOnly (fun token he => absurd he (hpub token)) href

theorem tryPublish_cases (token : PublicationToken) :
    (Outstanding events token ∧ gate.tryPublish token =
      (true, { gate with
        publishedGeneration := some token.generation
        requested := none })) ∨
    (¬Outstanding events token ∧ gate.tryPublish token = (false, gate)) := by
  unfold LatestOnlyPublicationGate.tryPublish
  by_cases hreq : gate.requested = some token
  · left
    refine ⟨(h.outstanding token).mp hreq, ?_⟩
    have hepoch : token.epoch = gate.epoch := by rw [h.newest token hreq]
    have hfresh : gate.publishedGeneration.any (token.generation ≤ ·) = false := by
      rw [Option.any_eq_false]
      intro g hg
      simpa using h.fresh token hreq g hg
    rw [if_neg (by simp [hreq, hepoch]), if_neg (by simp [hfresh])]
  · right
    refine ⟨fun hout => hreq ((h.outstanding token).mpr hout), ?_⟩
    rw [if_pos (.inl hreq)]

theorem tryPublish (token : PublicationToken) :
    GateSound ((gate.perform (.tryPublish token)).1 :: events)
      (gate.perform (.tryPublish token)).2 := by
  unfold LatestOnlyPublicationGate.perform
  rcases h.tryPublish_cases token with ⟨hout, hpublish⟩ | ⟨hout, hrefuse⟩
  · have hreq := (h.outstanding token).mpr hout
    have hnew := h.newest token hreq
    have hbelow : ∀ g ∈ events.filterMap publishedGeneration, g < token.generation := by
      intro g hg
      obtain ⟨last, hlast, hle⟩ := h.publishedGenerations g hg
      exact hle.trans_lt (h.fresh token hreq last hlast)
    simp only [hpublish, if_true]
    refine ⟨h.epoch_le.trans (le_succ _), h.generation_le.trans (le_succ _), ?_, ?_, ?_, ?_, ?_, ?_⟩
    · intro other
      have hkeeps : (published token).keepsRequest := trivial
      rw [outstanding_keeps hkeeps]
      refine iff_of_false (fun he => by cases he) ?_
      rintro ⟨hother, hne⟩
      have hsame := (h.outstanding other).mpr hother
      rw [hreq] at hsame
      exact hne (congrArg published (Option.some.inj hsame))
    · intro other he
      cases he
    · intro other he
      cases he
    · intro g hg
      cases hg
      rw [hnew]
    · intro g hg
      refine ⟨token.generation, rfl, ?_⟩
      rcases mem_cons.mp hg with rfl | hmem
      · exact le_refl _
      · exact (hbelow g hmem).le
    · refine latestOnly_cons h.latestOnly ?_ fun _ he => by cases he
      intro other he
      obtain rfl := published.inj he
      exact ⟨hout, hbelow⟩
  · simp only [hrefuse, Bool.false_eq_true, if_false]
    refine h.unchanged trivial rfl ?_
    intro other he
    obtain rfl := refused.inj he
    exact hout

theorem perform (hcalls : events.length + 1 < 2 ^ 64) (call : GateCall) :
    GateSound ((gate.perform call).1 :: events) (gate.perform call).2 := by
  cases call with
  | request => exact h.request hcalls
  | claimLatest => exact h.unchanged trivial rfl fun _ he => by cases he
  | cancelAll => exact h.cancelAll hcalls
  | tryPublish token => exact h.tryPublish token

end GateSound

theorem gateRun_append (calls : List GateCall) (call : GateCall) :
    gateRun (calls ++ [call]) =
      (((gateRun calls).2.perform call).1 :: (gateRun calls).1,
        ((gateRun calls).2.perform call).2) := by
  simp [gateRun]

theorem gateSound_run (calls : List GateCall) (hcalls : calls.length < 2 ^ 64) :
    (gateRun calls).1.length = calls.length ∧ GateSound (gateRun calls).1 (gateRun calls).2 := by
  induction calls using reverseRecOn with
  | nil => exact ⟨rfl, gateSound_default⟩
  | append_singleton calls call ih =>
    rw [length_append, length_singleton] at hcalls
    obtain ⟨hlen, hsound⟩ := ih (lt_of_succ_lt hcalls)
    rw [gateRun_append]
    refine ⟨?_, hsound.perform (hlen ▸ hcalls) call⟩
    rw [length_cons, hlen, length_append, length_singleton]

/-- Over fewer than `2 ^ 64` calls in any order, an attempt succeeds exactly for
the newest requested token that was neither cancelled nor published, no
generation is published twice, and the published ones increase. -/
theorem stale_work_is_never_published (calls : List GateCall)
    (hcalls : calls.length < 2 ^ 64) : LatestOnly (gateRun calls).1 :=
  (gateSound_run calls hcalls).2.latestOnly

theorem stale_work_is_never_published_twice :
    [GateCall.request, .request, .tryPublish ⟨0, 1⟩, .tryPublish ⟨0, 2⟩,
      .tryPublish ⟨0, 2⟩, .cancelAll, .request].length < 2 ^ 64 ∧
    LatestOnly (gateRun [.request, .request, .tryPublish ⟨0, 1⟩,
      .tryPublish ⟨0, 2⟩, .tryPublish ⟨0, 2⟩, .cancelAll, .request]).1 :=
  ⟨by decide, stale_work_is_never_published _ (by decide)⟩

end CollideOScope.Publication
