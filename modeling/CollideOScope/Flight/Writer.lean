import CollideOScope.Support.Machine
import CollideOScope.Support.Words
import Mathlib.Data.List.Sort

/-!
# Rotation files

The recorder writes one file at a time: a header, events, and a completion
marker.  The file carries the active name while it is written and is renamed to
the completed name once it is whole and durable.  The bytes of a record are
given by an encoder from outside.

A file keeps the bytes that have been synced apart from those a crash may tear.
It also lists the events that were appended to it, which nothing reads.
-/

namespace CollideOScope.Flight

/-- `WireRecord`: `E` is a queued event, `C` the cached snapshots, and `B` the
identity of the build. -/
inductive WireRecord (E C B : Type)
  | header (rotation : ℕ) (buildIdentity : B) (snapshots : C)
  | event (queued : E)
  | complete (eventCount droppedFull : ℕ)

/-- What the recorder is given: the encoder of lines, the cache that observes
events, and the configured byte cap. -/
structure RecorderFormat (E C B : Type) where
  encodeLine : WireRecord E C B → Bytes
  emptyCache : C
  observe : C → E → C
  totalByteCap : ℕ

def retainedCompletedRotations : ℕ := 2

def completeRecordReserve : ℕ := 512

variable {E C B : Type}

def RecorderFormat.perRotationByteCap (format : RecorderFormat E C B) : ℕ :=
  format.totalByteCap / (retainedCompletedRotations + 1)

def RecorderFormat.eventLines (format : RecorderFormat E C B) (events : List E) : Bytes :=
  events.flatMap fun queued => format.encodeLine (.event queued)

structure Artifact (E : Type) where
  rotation : ℕ
  (synced unsynced : Bytes)
  events : List E

namespace Artifact

def bytes (file : Artifact E) : Bytes := file.synced ++ file.unsynced

/-- `create_new`. -/
def created (rotation : ℕ) : Artifact E := ⟨rotation, [], [], []⟩

/-- `write_all`. -/
def write (file : Artifact E) (bytes : Bytes) : Artifact E :=
  { file with unsynced := file.unsynced ++ bytes }

/-- `write_all` of the line of an event. -/
def append (file : Artifact E) (queued : E) (bytes : Bytes) : Artifact E :=
  { file.write bytes with events := file.events ++ [queued] }

/-- `sync_all`. -/
def sync (file : Artifact E) : Artifact E :=
  { file with
    synced := file.bytes
    unsynced := [] }

/-- A crash keeps what was synced and tears the rest. -/
def torn (file : Artifact E) (bytes : Bytes) : Artifact E :=
  { file with
    synced := file.synced ++ bytes.take file.unsynced.length
    unsynced := [] }

end Artifact

structure Directory (E : Type) where
  (completed active : List (Artifact E))

namespace Directory

/-- `completed_artifacts`: the oldest first. -/
def completedArtifacts (directory : Directory E) : List (Artifact E) :=
  directory.completed.insertionSort fun a b => a.rotation ≤ b.rotation

def activeRotationAfter (directory : Directory E) : ℕ :=
  match directory.completedArtifacts.getLast? with
  | none => 1
  | some artifact => saturatingAddU64 artifact.rotation 1

/-- The greatest number of a file, zero when there is none. -/
def highest (directory : Directory E) : ℕ :=
  ((directory.completed ++ directory.active).map Artifact.rotation).foldl max 0

/-- The numbers that `retain_latest_completed` removes, the oldest first. -/
def excess (directory : Directory E) : List ℕ :=
  (directory.completedArtifacts.take
    (directory.completedArtifacts.length - retainedCompletedRotations)).map Artifact.rotation

def removeCompleted (directory : Directory E) (rotation : ℕ) : Directory E :=
  { directory with completed := directory.completed.filter fun file => file.rotation ≠ rotation }

def removeActive (directory : Directory E) (rotation : ℕ) : Directory E :=
  { directory with active := directory.active.filter fun file => file.rotation ≠ rotation }

def activeFile (directory : Directory E) (rotation : ℕ) : Option (Artifact E) :=
  directory.active.find? fun file => file.rotation = rotation

def setActive (directory : Directory E) (file : Artifact E) : Directory E :=
  { directory with
    active := directory.active.map fun other =>
      if other.rotation = file.rotation then file else other }

/-- `create_new` refuses a name that is taken. -/
def create (directory : Directory E) (rotation : ℕ) : Option (Directory E) :=
  match directory.activeFile rotation with
  | some _ => none
  | none => some { directory with active := directory.active ++ [.created rotation] }

/-- `rename` from the active to the completed name, over a file that is there. -/
def publish (directory : Directory E) (file : Artifact E) : Directory E where
  completed := (directory.removeCompleted file.rotation).completed ++ [file]
  active := (directory.removeActive file.rotation).active

def torn (directory : Directory E) (bytes : Bytes) : Directory E where
  completed := directory.completed.map fun file => file.torn bytes
  active := directory.active.map fun file => file.torn bytes

def totalBytes (directory : Directory E) : ℕ :=
  ((directory.completed ++ directory.active).map fun file => file.bytes.length).sum

end Directory

/-!
## The writer of the flight recorder

One step of the writer is one file operation, so a crash can fall between any
two.  Its four reasons to seal a rotation (a deadline met by an event, a byte cap, an
idle timeout and the shutdown) share the steps that follow: complete, sync,
rename, prune, and create the next file with its header.

A restart first discards active files, then prunes, then opens a rotation.  Time
and the queue are given by the labels.  An operation that fails ends the writer,
as an encoder or a bound that refuses does.
-/

/-- `RotationFile`. -/
structure RotationFile where
  (rotation bytesWritten eventCount : ℕ)

def RotationFile.canAppend (file : RotationFile) (encodedLength byteCap : ℕ) : Bool :=
  file.bytesWritten + encodedLength + completeRecordReserve ≤ byteCap

/-- An event that has been dequeued and is not written yet; `mayRotate` tells
whether the byte cap may still start another rotation for it. -/
structure PendingEvent (E : Type) where
  queued : E
  mayRotate : Bool

inductive After (E : Type)
  | start (rotation : ℕ)
  | reopen (pending : Option (PendingEvent E))
  | stop

inductive Phase (E : Type)
  | down
  | discarding (stale : List ℕ) (first : ℕ)
  | pruning (excess : List ℕ) (after : After E)
  | creating (rotation : ℕ) (pending : Option (PendingEvent E))
  | heading (rotation : ℕ) (pending : Option (PendingEvent E))
  | syncingHead (file : RotationFile) (pending : Option (PendingEvent E))
  | appending (file : RotationFile) (pending : PendingEvent E)
  | ready (file : RotationFile)
  | completing (file : RotationFile) (after : After E)
  | syncing (file : RotationFile) (after : After E)
  | renaming (file : RotationFile) (after : After E)

/-- The directory and the process.  `published` lists every file that was ever
renamed, `first` the first rotation of the running process, `dequeued` its
events, and `history` the events of all processes; no step reads these. -/
structure State (E C B : Type) where
  directory : Directory E
  phase : Phase E
  cache : C
  build : Option B
  published : List (Artifact E)
  first : ℕ
  (dequeued history : List E)

inductive Label (E B : Type)
  | restart (build : B)
  | dequeue (queued : E) (late : Bool)
  | timeout | disconnect
  | proceed (droppedFull : ℕ)
  | crash (bytes : Bytes)

namespace State

variable (format : RecorderFormat E C B)

def goTo (s : State E C B) (phase : Phase E) : State E C B := { s with phase := phase }

/-- The start of `start_at`: `prepare_artifacts` reads the directory. -/
def restart (build : B) (s : State E C B) : State E C B :=
  { s with
    phase := .discarding (s.directory.active.map Artifact.rotation)
      (saturatingAddU64 s.directory.highest 1)
    cache := format.emptyCache
    build := some build
    first := saturatingAddU64 s.directory.highest 1
    dequeued := [] }

/-- An event leaves the queue; a late one finds the deadline passed. -/
def dequeue (file : RotationFile) (queued : E) (late : Bool) (s : State E C B) : State E C B :=
  { s with
    phase :=
      if late then .completing file (.reopen (some ⟨queued, true⟩))
      else .appending file ⟨queued, true⟩
    dequeued := s.dequeued ++ [queued]
    history := s.history ++ [queued] }

/-- The directory is read again once a step needs it: by
`retain_latest_completed`. -/
def prune (after : After E) (s : State E C B) : State E C B :=
  s.goTo (.pruning s.directory.excess after)

def afterPruning (after : After E) (s : State E C B) : State E C B :=
  match after with
  | .start rotation => s.goTo (.creating rotation none)
  | .reopen pending => s.goTo (.creating s.directory.activeRotationAfter pending)
  | .stop => s.goTo .down

/-- `open_private_new`. -/
def create (rotation : ℕ) (pending : Option (PendingEvent E)) (s : State E C B) : State E C B :=
  match s.directory.create rotation with
  | none => s.goTo .down
  | some directory =>
    { s with
      directory := directory
      phase := .heading rotation pending }

def headerLine (rotation : ℕ) (build : B) (s : State E C B) : Bytes :=
  format.encodeLine (.header rotation build s.cache)

/-- A write to the active file of a number; without the file the writer ends. -/
def writeActive (rotation : ℕ) (change : Artifact E → Artifact E)
    (phase : Phase E) (s : State E C B) : State E C B :=
  match s.directory.activeFile rotation with
  | none => s.goTo .down
  | some file =>
    { s with
      directory := s.directory.setActive (change file)
      phase := phase }

/-- The header is written unless it exceeds the cap of a rotation. -/
def head (rotation : ℕ) (pending : Option (PendingEvent E)) (build : B)
    (s : State E C B) : State E C B :=
  let header := s.headerLine format rotation build
  if format.perRotationByteCap < header.length + completeRecordReserve then s.goTo .down
  else
    s.writeActive rotation (fun file => file.write header)
      (.syncingHead ⟨rotation, header.length, 0⟩ pending)

def opened (file : RotationFile) (pending : Option (PendingEvent E))
    (s : State E C B) : State E C B :=
  s.writeActive file.rotation Artifact.sync (match pending with
    | none => .ready file
    | some pending => .appending file pending)

def append (file : RotationFile) (pending : PendingEvent E) (s : State E C B) : State E C B :=
  let encoded := format.encodeLine (.event pending.queued)
  if file.canAppend encoded.length format.perRotationByteCap then
    { s.writeActive file.rotation
        (fun active => active.append pending.queued encoded)
        (.ready
          ⟨file.rotation, file.bytesWritten + encoded.length,
            file.eventCount + 1⟩) with
      cache := format.observe s.cache pending.queued }
  else if pending.mayRotate then s.goTo (.completing file (.reopen (some ⟨pending.queued, false⟩)))
  else s.goTo .down

/-- The completion marker, unless it exceeds its reserve. -/
def complete (file : RotationFile) (after : After E) (droppedFull : ℕ)
    (s : State E C B) : State E C B :=
  let marker := format.encodeLine (.complete file.eventCount droppedFull)
  if format.perRotationByteCap < file.bytesWritten + marker.length then s.goTo .down
  else s.writeActive file.rotation (fun active => active.write marker) (.syncing file after)

/-- `fs::rename`, and the pruning that follows. -/
def rename (file : RotationFile) (after : After E) (s : State E C B) : State E C B :=
  match s.directory.activeFile file.rotation with
  | none => s.goTo .down
  | some active =>
    { s with
      directory := s.directory.publish active
      published := s.published ++ [active] }.prune after

def proceed (droppedFull : ℕ) (s : State E C B) : Option (State E C B) :=
  match s.phase with
  | .down => none
  | .discarding (rotation :: rest) first =>
    some
      { s with
        directory := s.directory.removeActive rotation
        phase := .discarding rest first }
  | .discarding [] first => some (s.prune (.start first))
  | .pruning (rotation :: rest) after =>
    some
      { s with
        directory := s.directory.removeCompleted rotation
        phase := .pruning rest after }
  | .pruning [] after => some (s.afterPruning after)
  | .creating rotation pending => some (s.create rotation pending)
  | .heading rotation pending => s.build.map fun build => s.head format rotation pending build
  | .syncingHead file pending => some (s.opened file pending)
  | .appending file pending => some (s.append format file pending)
  | .ready _ => none
  | .completing file after => some (s.complete format file after droppedFull)
  | .syncing file after => some (s.writeActive file.rotation Artifact.sync (.renaming file after))
  | .renaming file after => some (s.rename file after)

def crash (bytes : Bytes) (s : State E C B) : State E C B :=
  { s with
    directory := s.directory.torn bytes
    phase := .down }

def step (s : State E C B) : Label E B → Option (State E C B)
  | .restart build =>
    match s.phase with
    | .down => some (s.restart format build)
    | _ => none
  | .dequeue queued late =>
    match s.phase with
    | .ready file => some (s.dequeue file queued late)
    | _ => none
  | .timeout =>
    match s.phase with
    | .ready file => some (s.goTo (.completing file (.reopen none)))
    | _ => none
  | .disconnect =>
    match s.phase with
    | .ready file => some (s.goTo (.completing file .stop))
    | _ => none
  | .proceed droppedFull => s.proceed format droppedFull
  | .crash bytes => some (s.crash bytes)

def initial (format : RecorderFormat E C B) : State E C B where
  directory := ⟨[], []⟩
  phase := .down
  cache := format.emptyCache
  build := none
  published := []
  first := 0
  dequeued := []
  history := []

end State

def recorder (format : RecorderFormat E C B) : Machine (State E C B) (Label E B) where
  start s := s = .initial format
  step s label := s.step format label

end CollideOScope.Flight
