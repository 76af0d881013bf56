import CollideOScope.Support.Table
import CollideOScope.Video.Mailbox

/-!
# The decoder supervisor

The supervisor owns the handle of every decoder thread.  A decoder keeps a
token, and a reaper joins the threads of retired workers that have finished.
The times that only the status shows are left out.
-/

namespace CollideOScope.Video

open Function

abbrev DecoderSourceFingerprint := Vector UInt8 16

structure DecoderRetirementIdentity where
  workerId : ℕ
  source : DecoderSourceFingerprint
  sourceGeneration : ℕ

/-- The limits, as `DecoderRetirementSupervisor::new` asserts them. -/
structure SupervisorConfig where
  (hardCap churnCap : ℕ)
  hardCap_pos : 0 < hardCap
  churnCap_pos : 0 < churnCap
  churnCap_le : churnCap ≤ hardCap

def SupervisorConfig.production : SupervisorConfig where
  hardCap := 320
  churnCap := 64
  hardCap_pos := by decide
  churnCap_pos := by decide
  churnCap_le := by decide

inductive WorkerLifecycle
  | starting | active | retiring | stuck

def WorkerLifecycle.isRetired : WorkerLifecycle → Bool
  | .starting | .active => false
  | .retiring | .stuck => true

structure JoinHandle where
  worker : ℕ

/-- A record; `cancel` and `mailbox` are shared with the worker and the owner of
its token. -/
structure WorkerRecord where
  identity : DecoderRetirementIdentity
  lifecycle : WorkerLifecycle
  cancel : Bool
  mailbox : DecodeCommandMailbox
  handle : Option JoinHandle

def DecodeCommandMailbox.finish (mailbox : DecodeCommandMailbox) : Critical → DecodeCommandMailbox
  | .free => mailbox
  | .select generation epoch =>
    { mailbox with currentGeneration := generation, currentEpoch := epoch }
  | .stop epoch => { mailbox with stopped := true, currentEpoch := epoch }
  | .selectEpoch epoch | .stopEpoch epoch => { mailbox with currentEpoch := epoch }

/-- A whole call of `stop`. -/
def DecodeCommandMailbox.stopWhole (mailbox : DecodeCommandMailbox) : DecodeCommandMailbox :=
  mailbox.stop.1.finish mailbox.stop.2

/-- What the worker and the owner of the token do with what they share. -/
inductive WorkerUse
  | cancel
  | select (request : SelectRequest)
  | stop | recv

def WorkerRecord.use (record : WorkerRecord) : WorkerUse → WorkerRecord
  | .cancel => { record with cancel := true }
  | .select request =>
    let (mailbox, critical, _) := record.mailbox.select request
    { record with mailbox := mailbox.finish critical }
  | .stop => { record with mailbox := record.mailbox.stopWhole }
  | .recv =>
    { record with
      mailbox := { record.mailbox with state := { record.mailbox.state with pending := none } } }

def WorkerRecord.retired (record : WorkerRecord) (sourceGeneration : ℕ) : WorkerRecord :=
  let mailbox := record.mailbox.stopWhole
  { record with
    cancel := true
    mailbox
    identity := { record.identity with
      sourceGeneration := max sourceGeneration mailbox.currentGeneration }
    lifecycle :=
      match record.lifecycle with
      | .starting | .active => .retiring
      | lifecycle => lifecycle }

structure SupervisorState where
  records : Table ℕ WorkerRecord
  nextWorkerId : ℕ
  completedWorkers : ℕ
  (panickedWorkers admissionRefusals peakOwnedWorkers peakRetiringWorkers : ℕ)
  acceptingNewWorkers : Bool

namespace SupervisorState

def default : SupervisorState where
  records := .empty
  nextWorkerId := 0
  completedWorkers := 0
  panickedWorkers := 0
  admissionRefusals := 0
  peakOwnedWorkers := 0
  peakRetiringWorkers := 0
  acceptingNewWorkers := true

def retiringCount (state : SupervisorState) : ℕ :=
  state.records.total fun record => record.lifecycle.isRetired.toNat

def updateRetirementPeak (state : SupervisorState) : SupervisorState :=
  { state with peakRetiringWorkers := max state.peakRetiringWorkers state.retiringCount }

def refusal (config : SupervisorConfig) (state : SupervisorState) : Option String :=
  if ¬state.acceptingNewWorkers then some "decoder supervisor is draining for shutdown"
  else if config.hardCap ≤ state.records.size then
    some (s!"decoder worker ownership reached its {config.hardCap}-handle " ++ "hard cap")
  else if config.churnCap ≤ state.retiringCount then
    some (s!"decoder retirement backlog reached its {config.churnCap}-worker " ++ "churn cap")
  else none

/-- `admit`, and the worker of the token. -/
def admitWorker (config : SupervisorConfig) (state : SupervisorState)
    (source : DecoderSourceFingerprint) (cancel : Bool)
    (mailbox : DecodeCommandMailbox) : SupervisorState × Except String ℕ :=
  match state.refusal config with
  | some refusal =>
    ({ state with admissionRefusals := saturatingAddU64 state.admissionRefusals 1 }, .error refusal)
  | none =>
    match checkedAddU64 state.nextWorkerId 1 with
    | none => (state, .error "decoder worker identity exhausted")
    | some workerId =>
      let records := state.records.insert workerId
        { identity := ⟨workerId, source, 0⟩
          lifecycle := .starting
          cancel
          mailbox
          handle := none }
      ({ state with
          nextWorkerId := workerId
          records
          peakOwnedWorkers := max state.peakOwnedWorkers records.size },
        .ok workerId)

/-- `DecoderWorkerToken::attach`; an error is a failed expectation. -/
def attach (state : SupervisorState) (workerId : ℕ) (handle : JoinHandle) :
    Except String SupervisorState :=
  match state.records.find workerId with
  | none => .error "an admitted decoder token retains its supervisor record"
  | some record =>
    if record.handle.isSome then .error "decoder handle attached twice"
    else
      .ok { state with
        records := state.records.adjust workerId fun record =>
          { record with
            handle := some handle
            lifecycle :=
              match record.lifecycle with
              | .starting => .active
              | lifecycle => lifecycle } }

/-- `DecoderWorkerToken::abandon`; an error is a failed expectation. -/
def abandon (state : SupervisorState) (workerId : ℕ) : Except String SupervisorState :=
  match state.records.find workerId with
  | none => .error "an unspawned decoder reservation remains registered"
  | some record =>
    if record.handle.isSome then .error "spawned decoder cannot be abandoned"
    else .ok { state with records := state.records.erase workerId }

def retireWorker (state : SupervisorState) (workerId sourceGeneration : ℕ) : SupervisorState :=
  match state.records.find workerId with
  | none => state
  | some _ =>
    { state with
      records := state.records.adjust workerId fun record =>
        record.retired sourceGeneration }.updateRetirementPeak

/-- The first locked part of `drain_with_deadline`. -/
def beginDrain (state : SupervisorState) : SupervisorState :=
  { state with
    acceptingNewWorkers := false
    records := state.records.mapValues fun record =>
      record.retired record.identity.sourceGeneration }.updateRetirementPeak

/-- The last locked part of `drain_with_deadline`: whether it is complete. -/
def endDrain (state : SupervisorState) : SupervisorState × Bool :=
  if state.records.size = 0 then (state, true)
  else
    ({ state with
        records := state.records.mapValues fun record =>
          { record with lifecycle := .stuck } }.updateRetirementPeak,
      false)

def ready (finished : JoinHandle → Bool) (record : WorkerRecord) : Bool :=
  record.lifecycle.isRetired && record.handle.any finished

/-- The reaper takes the handles of retired workers that have finished. -/
def collect (state : SupervisorState) (finished : JoinHandle → Bool) :
    SupervisorState × List (ℕ × JoinHandle) :=
  ({ state with
      records := state.records.mapValues fun record =>
        if ready finished record then { record with handle := none }
        else record },
    state.records.entries.filterMap fun (workerId, record) =>
      if ready finished record then record.handle.map fun handle => (workerId, handle)
      else none)

def remove (state : SupervisorState) (workerId : ℕ) (panicked : Bool) : SupervisorState :=
  match state.records.find workerId with
  | none => state
  | some _ =>
    { state with
      records := state.records.erase workerId
      completedWorkers := saturatingAddU64 state.completedWorkers 1
      panickedWorkers := saturatingAddU64 state.panickedWorkers panicked.toNat }

end SupervisorState

/-- What has become of a token; it is reserved until its thread is spawned. -/
inductive TokenPhase
  | absent | reserved | spawned | attached | gone
  deriving DecidableEq

inductive ThreadPhase
  | unspawned | running
  | finished (panicked : Bool)
  deriving DecidableEq

/-- The supervisor, the tokens, the decoder threads and the reaper. -/
structure Supervision where
  state : SupervisorState
  tokens : ℕ → TokenPhase
  threads : ℕ → ThreadPhase
  /-- The handles that the reaper has taken. -/
  ready : List (ℕ × JoinHandle)
  /-- The worker that the reaper has joined and is about to remove. -/
  joining : Option (ℕ × Bool)
  drains : ℕ
  /-- A failed expectation. -/
  failure : Option String
  /-- Every worker that the reaper has joined, and whether it panicked. -/
  joined : List (ℕ × Bool)

inductive SupervisionLabel
  | admitWorker (source : DecoderSourceFingerprint) (cancel : Bool)
      (mailbox : DecodeCommandMailbox)
  | spawn (workerId : ℕ)
  | attach (workerId : ℕ)
  | abandon (workerId : ℕ)
  /-- `retire`, or the drop of a token with generation 0. -/
  | retire (workerId sourceGeneration : ℕ)
  | beginDrain | endDrain
  | exit (workerId : ℕ) (panicked : Bool)
  | use (workerId : ℕ) (use : WorkerUse)
  | collect | join | remove

namespace Supervision

def opened : Supervision where
  state := .default
  tokens _ := .absent
  threads _ := .unspawned
  ready := []
  joining := none
  drains := 0
  failure := none
  joined := []

def isFinished (s : Supervision) (handle : JoinHandle) : Bool :=
  match s.threads handle.worker with
  | .finished _ => true
  | _ => false

/-- The supervisor after a call that may fail an expectation. -/
def expect (s : Supervision) : Except String SupervisorState → Supervision
  | .ok state => { s with state }
  | .error failure => { s with failure := some failure }

/-- One step of an owner, a worker, a drain or the reaper. -/
def step (config : SupervisorConfig) (s : Supervision) : SupervisionLabel → Option Supervision
  | .admitWorker source cancel mailbox =>
    match s.state.admitWorker config source cancel mailbox with
    | (state, .error _) => some { s with state }
    | (state, .ok workerId) =>
      some { s with
        state
        tokens := update s.tokens workerId .reserved }
  | .spawn workerId =>
    if s.tokens workerId = .reserved then
      some { s with
        tokens := update s.tokens workerId .spawned
        threads := update s.threads workerId .running }
    else none
  | .attach workerId =>
    if s.tokens workerId = .spawned then
      some ({ s with
        tokens := update s.tokens workerId .attached }.expect (s.state.attach workerId ⟨workerId⟩))
    else none
  | .abandon workerId =>
    if s.tokens workerId = .reserved then
      some ({ s with tokens := update s.tokens workerId .gone }.expect (s.state.abandon workerId))
    else none
  | .retire workerId sourceGeneration =>
    if s.tokens workerId = .reserved ∨ s.tokens workerId = .attached then
      some { s with
        tokens := update s.tokens workerId .gone
        state := s.state.retireWorker workerId sourceGeneration }
    else none
  | .beginDrain => some { s with state := s.state.beginDrain, drains := s.drains + 1 }
  | .endDrain =>
    if 0 < s.drains then some { s with state := s.state.endDrain.1, drains := s.drains - 1 }
    else none
  | .exit workerId panicked =>
    if s.threads workerId = .running then
      some { s with threads := update s.threads workerId (.finished panicked) }
    else none
  | .use workerId use =>
    some { s with
      state := { s.state with
        records := s.state.records.adjust workerId fun record => record.use use } }
  | .collect =>
    if s.ready = [] ∧ s.joining = none then
      let (state, ready) := s.state.collect s.isFinished
      some { s with state, ready }
    else none
  | .join =>
    match s.joining, s.ready with
    | none, (workerId, handle) :: ready =>
      match s.threads handle.worker with
      | .finished panicked =>
        some { s with
          ready
          joining := some (workerId, panicked)
          joined := s.joined ++ [(workerId, panicked)] }
      | _ => none
    | _, _ => none
  | .remove =>
    match s.joining with
    | some (workerId, panicked) =>
      some { s with
        state := s.state.remove workerId panicked
        joining := none }
    | none => none

end Supervision

def retirementMachine (config : SupervisorConfig) : Machine Supervision SupervisionLabel where
  start s := s = .opened
  step := Supervision.step config

end CollideOScope.Video
