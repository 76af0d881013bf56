import CollideOScope.Midi.Decoder
import Mathlib.Data.List.MinMax

/-!
# MIDI feedback

The host queues wire messages in a map keyed by status and data byte, so a newer
value of a control replaces a pending older one.  The MIDI worker pops the first
entry, sends it, and puts it back if the send fails.  Each access of the map is
its own critical section, so a run is any interleaving of them.

The lock is free whenever it is tried.
-/

namespace CollideOScope.Midi

open Function Option List

open CollideOScope.Control
open FloatOps (isFinite)

def midiFeedbackKeysCapacity : ℕ := 256

structure FeedbackKey where
  (status data : UInt8)
  deriving DecidableEq

def WireBytes.key (bytes : WireBytes) : FeedbackKey := ⟨bytes.status, bytes.data⟩

abbrev PendingFeedback := AList fun _ : FeedbackKey => WireBytes

namespace PendingFeedback

def len (pending : PendingFeedback) : ℕ := pending.entries.length

def rank (key : FeedbackKey) : ℕ := key.status.toNat * 256 + key.data.toNat

def popFirst (pending : PendingFeedback) : Option ((FeedbackKey × WireBytes) × PendingFeedback) :=
  (pending.keys.argmin rank).bind fun key =>
    (pending.lookup key).map fun bytes => ((key, bytes), pending.erase key)

variable {pending : PendingFeedback} {key : FeedbackKey}

theorem popFirst_eq_some {rest : PendingFeedback} {bytes : WireBytes}
    (h : popFirst pending = some ((key, bytes), rest)) :
    pending.lookup key = some bytes ∧ rest = pending.erase key := by
  simp only [popFirst, bind_eq_some_iff, map_eq_some_iff, Prod.mk.injEq] at h
  obtain ⟨least, -, found, hlook, ⟨rfl, rfl⟩, rfl⟩ := h
  exact ⟨hlook, rfl⟩

theorem exists_popFirst (pending : PendingFeedback) (h : 0 < pending.len) :
    ∃ key bytes, popFirst pending = some ((key, bytes), pending.erase key) := by
  cases hleast : pending.keys.argmin rank with
  | none =>
    have hnil : pending.entries = [] := by simpa [AList.keys, keys] using argmin_eq_none.mp hleast
    rw [len, hnil] at h
    cases h
  | some key =>
    have hkey : key ∈ pending := argmin_mem hleast
    obtain ⟨bytes, hbytes⟩ := isSome_iff_exists.mp (AList.lookup_isSome.mpr hkey)
    exact ⟨key, bytes, by simp [popFirst, hleast, hbytes]⟩

theorem len_erase (h : key ∈ pending) : len (pending.erase key) + 1 = pending.len := by
  have hkeys : (pending.erase key).keys.length + 1 = pending.keys.length := by
    rw [AList.keys_erase]
    exact length_erase_add_one h
  simpa [len, AList.keys, keys] using hkeys

theorem lookup_eq_none_of_len (h : pending.len = 0) (key : FeedbackKey) :
    pending.lookup key = none := by
  rw [AList.lookup_eq_none, AList.mem_keys, AList.keys, length_eq_zero_iff.mp h]
  exact not_mem_nil

end PendingFeedback

inductive FeedbackWorker
  | idle | admitted
  | sending (key : FeedbackKey) (bytes : WireBytes)
  | failed (key : FeedbackKey) (bytes : WireBytes)
  deriving DecidableEq

/-- Host counters saturate, the worker's atomic ones wrap. -/
structure FeedbackCounters where
  (loopSuppressed feedbackDropped feedbackCoalesced feedbackQueued : ℕ)
  (workerSent workerDropped rateLimited disconnects : UInt64)

structure FeedbackState where
  pending : PendingFeedback
  /-- What the running `queue_feedback` has yet to insert. -/
  writes : List WireBytes
  worker : FeedbackWorker
  /-- The worker has an output connection. -/
  connected : Bool
  recent : List WireBytes
  counters : FeedbackCounters

def FeedbackState.initial : FeedbackState := ⟨∅, [], .idle, false, [], ⟨0, 0, 0, 0, 0, 0, 0, 0⟩⟩

inductive FeedbackLabel (F : Type)
  | queueFeedback (address : RuntimeControlAddress) (value : F)
      (origin : AutomationOrigin)
  | writeNext
  | rescan (found : Bool)
  | tick (ready : Bool)
  | popFirst | sendOk | sendErr | restore

def FeedbackLabel.IsWorker {F : Type} : FeedbackLabel F → Prop
  | queueFeedback _ _ _ => False
  | writeNext => False
  | _ => True

namespace FeedbackState

section

variable {F : Type} [MidiFloat F]

/-- `queue_feedback` up to its loop. -/
def queueFeedback (profile : ResolvedControllerProfile F) (s : FeedbackState)
    (address : RuntimeControlAddress) (value : F) (origin : AutomationOrigin) : FeedbackState :=
  if origin = .midi ∨ isFinite value = false then
    { s with
      counters :=
        { s.counters with loopSuppressed := saturatingAddU64 s.counters.loopSuppressed 1 } }
  else { s with writes := (profile.feedbackBytes address value).map (·.1) }

end

/-- The map takes a message whose key is pending or for which it has room. -/
def Accepts (s : FeedbackState) (bytes : WireBytes) : Prop :=
  bytes.key ∈ s.pending ∨ s.pending.len < midiFeedbackKeysCapacity

instance (s : FeedbackState) (bytes : WireBytes) : Decidable (s.Accepts bytes) :=
  inferInstanceAs (Decidable (_ ∨ _))

/-- The loop body of `queue_feedback`. -/
def insert (s : FeedbackState) (bytes : WireBytes) (rest : List WireBytes) : FeedbackState :=
  if s.Accepts bytes then
    { s with
      pending := s.pending.insert bytes.key bytes
      writes := rest
      counters :=
        { s.counters with
          feedbackCoalesced :=
            if bytes.key ∈ s.pending then saturatingAddU64 s.counters.feedbackCoalesced 1
            else s.counters.feedbackCoalesced
          feedbackQueued := saturatingAddU64 s.counters.feedbackQueued 1 } }
  else
    { s with
      writes := rest
      counters :=
        { s.counters with feedbackDropped := saturatingAddU64 s.counters.feedbackDropped 1 } }

/-- The worker looks whether anything is pending and whether it may send. -/
def tick (s : FeedbackState) (ready : Bool) : FeedbackState :=
  if 0 < s.pending.len ∧ s.connected then
    if ready then { s with worker := .admitted }
    else { s with counters := { s.counters with rateLimited := s.counters.rateLimited + 1 } }
  else s

def popFirst (s : FeedbackState) : FeedbackState :=
  match s.pending.popFirst with
  | some ((key, bytes), rest) => { s with pending := rest, worker := .sending key bytes }
  | none => { s with worker := .idle }

/-- A send that succeeds is remembered against its echo. -/
def sent (s : FeedbackState) (bytes : WireBytes) : FeedbackState :=
  { s with
    worker := .idle
    recent :=
      (if s.recent.length = midiFeedbackKeysCapacity then s.recent.tail
        else s.recent) ++ [bytes]
    counters := { s.counters with workerSent := s.counters.workerSent + 1 } }

/-- A send that failed is put back, and the connection is given up. -/
def restore (s : FeedbackState) (key : FeedbackKey) (bytes : WireBytes) : FeedbackState :=
  if s.pending.len ≥ midiFeedbackKeysCapacity then
    { s with
      worker := .idle
      connected := false
      counters :=
        { s.counters with
          workerDropped := s.counters.workerDropped + 1
          disconnects := s.counters.disconnects + 1 } }
  else
    { s with
      pending := s.pending.insert key bytes
      worker := .idle
      connected := false
      counters := { s.counters with disconnects := s.counters.disconnects + 1 } }

variable {F : Type} [MidiFloat F]

def step (profile : ResolvedControllerProfile F) (s : FeedbackState) :
    FeedbackLabel F → Option FeedbackState
  | .queueFeedback address value origin =>
    match s.writes with
    | [] => some (s.queueFeedback profile address value origin)
    | _ :: _ => none
  | .writeNext =>
    match s.writes with
    | bytes :: rest => some (s.insert bytes rest)
    | [] => none
  | .rescan found => if s.worker = .idle then some { s with connected := found } else none
  | .tick ready => if s.worker = .idle then some (s.tick ready) else none
  | .popFirst => if s.worker = .admitted then some s.popFirst else none
  | .sendOk =>
    match s.worker with
    | .sending _ bytes => some (s.sent bytes)
    | _ => none
  | .sendErr =>
    match s.worker with
    | .sending key bytes => some { s with worker := .failed key bytes }
    | _ => none
  | .restore =>
    match s.worker with
    | .failed key bytes => some (s.restore key bytes)
    | _ => none

end FeedbackState

/-- Host calls and worker steps in any order. -/
def feedbackMachine {F : Type} [MidiFloat F] (profile : ResolvedControllerProfile F) :
    Machine FeedbackState (FeedbackLabel F) where
  start s := s = .initial
  step := FeedbackState.step profile

/-- What the host's calls and the worker's sends have been so far.  Pending and
held bytes carry the position at which they were accepted. -/
structure FeedbackHistory where
  accepted : List WireBytes
  sent : List (WireBytes × ℕ)
  pendingOrigin : FeedbackKey → ℕ
  heldOrigin : ℕ

namespace FeedbackHistory

def empty : FeedbackHistory := ⟨[], [], fun _ => 0, 0⟩

def next {F : Type} (h : FeedbackHistory) (s : FeedbackState)
    (label : FeedbackLabel F) (_ : FeedbackState) : FeedbackHistory :=
  match label, s.writes, s.worker with
  | .writeNext, bytes :: _, _ =>
    if s.Accepts bytes then
      { h with
        accepted := h.accepted ++ [bytes]
        pendingOrigin := update h.pendingOrigin bytes.key h.accepted.length }
    else h
  | .popFirst, _, _ =>
    match s.pending.popFirst with
    | some ((key, _), _) => { h with heldOrigin := h.pendingOrigin key }
    | none => h
  | .sendOk, _, .sending _ bytes => { h with sent := h.sent ++ [(bytes, h.heldOrigin)] }
  | .restore, _, .failed key _ =>
    { h with pendingOrigin := update h.pendingOrigin key h.heldOrigin }
  | _, _, _ => h

end FeedbackHistory

abbrev recordedFeedback {F : Type} [MidiFloat F] (profile : ResolvedControllerProfile F) :
    Machine (FeedbackState × FeedbackHistory) (FeedbackLabel F) :=
  (feedbackMachine profile).observe .empty FeedbackHistory.next

end CollideOScope.Midi
