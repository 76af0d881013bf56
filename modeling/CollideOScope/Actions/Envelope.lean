import CollideOScope.Support.Words

/-!
# Action identities

Every transport adapter mints an identity for an action at its ingress: a
sequence number of one process-wide sequencer, the class of the source and the
instant of ingress.  Instants are counted in nanoseconds of the process's
monotonic clock.
-/

namespace CollideOScope.Actions

abbrev Instant := ℕ

abbrev Duration := ℕ

abbrev ActionSequence := {value : ℕ // 0 < value ∧ value ≤ u64Max}

inductive ActionSourceClass
  | browser | phone | native | midi | osc | automation | replay
  deriving DecidableEq

structure ActionIdentity where
  sequence : ActionSequence
  source : ActionSourceClass
  ingress : Instant
  deriving DecidableEq

inductive ActionDisposition
  | presented | coalesced | refused | superseded | quantized | notYetPresented

/-- A payload with the identity it was minted with. -/
structure ActionEnvelope (T : Type) where
  identity : ActionIdentity
  payload : T

structure ActionSequencer where
  next : ℕ
  bounded : next ≤ u64Max

namespace ActionSequencer

def default : ActionSequencer := ⟨1, by unfold u64Max; omega⟩

/-- The number minted now: `fetch_update` returns the previous value. -/
def current (sequencer : ActionSequencer) : ActionSequence :=
  ⟨max sequencer.next 1, by
    have := sequencer.bounded
    unfold u64Max at *
    omega⟩

/-- The sequencer after a mint; the number after the largest is one. -/
def advance (sequencer : ActionSequencer) : ActionSequencer :=
  if h : sequencer.next = u64Max then ⟨1, by unfold u64Max; omega⟩
  else ⟨sequencer.next + 1, by
    have := sequencer.bounded
    omega⟩

def envelopeAt {T : Type} (sequencer : ActionSequencer)
    (source : ActionSourceClass) (ingress : Instant) (payload : T) :
    ActionEnvelope T × ActionSequencer :=
  (⟨⟨sequencer.current, source, ingress⟩, payload⟩, sequencer.advance)

end ActionSequencer

end CollideOScope.Actions
