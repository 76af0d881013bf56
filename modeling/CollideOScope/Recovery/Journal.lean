import CollideOScope.Support.Machine
import CollideOScope.Recovery.Scan

/-!
# The recovery journal

`RecoveryJournal` keeps the limits, the cached scan and the next sequence
number of one journal file.  The file itself is an `Option Bytes`: it may be
missing.  A commit touches the file through exactly one durable write, either
an append or an atomic replacement, so a crash of a commit leaves the file as
the write's crash relation says.
-/

namespace CollideOScope.Recovery

open Nat List

variable {Patch : Type} (sha : Sha256) (codec : PatchCodec Patch)

/-- `scan_path`: a missing file scans as the default, and at most one byte more
than the file limit is read. -/
def scanPath (limits : RecoveryLimits) : Option Bytes → RecoveryScan Patch
  | none => RecoveryScan.default
  | some bytes =>
    let oversized := decide (bytes.length > limits.maxFileBytes)
    let readLimit := limits.maxFileBytes + 1
    scanBytes sha codec limits oversized (bytes.take readLimit)

/-- `checked_add(1).unwrap_or(0)`. -/
def sequenceAfter (sequence : UInt64) : UInt64 :=
  if sequence.toNat + 1 < 2 ^ 64 then sequence + 1 else 0

def nextSequenceOf (scan : RecoveryScan Patch) : UInt64 :=
  match scan.latest with
  | none => 1
  | some checkpoint => sequenceAfter checkpoint.sequence

structure RecoveryJournal (Patch : Type) where
  limits : RecoveryLimits
  scan : RecoveryScan Patch
  nextSequence : UInt64

structure JournalAppendReceipt where
  sequence : UInt64
  (payloadBytes journalBytes : ℕ)
  compacted : Bool

/-- A journal together with the file at its path. -/
structure JournalWorld (Patch : Type) where
  journal : RecoveryJournal Patch
  file : Option Bytes

def openWithLimits (file : Option Bytes) (limits : RecoveryLimits) :
    Except RecoveryJournalError (RecoveryJournal Patch) := do
  let limits ← limits.bounded
  let scan := scanPath sha codec limits file
  return { limits := limits, scan := scan, nextSequence := nextSequenceOf scan }

def rescan (world : JournalWorld Patch) : JournalWorld Patch :=
  let scan := scanPath sha codec world.journal.limits world.file
  { world with
    journal := { world.journal with
      scan := scan
      nextSequence := nextSequenceOf scan } }

def validatePayload (limits : RecoveryLimits) (payload : Bytes) :
    Except RecoveryJournalError Unit :=
  if payload.length > limits.maxPayloadBytes then
    .error (.payloadTooLarge payload.length limits.maxPayloadBytes)
  else if recordHeaderBytes + payload.length > limits.maxFileBytes then
    .error (.recordTooLarge (recordHeaderBytes + payload.length) limits.maxFileBytes)
  else .ok ()

/-- The two ways in which the journal changes its file: `append_record` and
`write_atomic_replacement`. -/
inductive FileWrite where
  | append (record : Bytes)
  | replace (bytes : Bytes)

def FileWrite.apply : FileWrite → Option Bytes → Option Bytes
  | .append record, file => file.map (· ++ record)
  | .replace bytes, _ => some bytes

/-- The files that a crash during a write may leave. -/
inductive FileWrite.CrashAt : FileWrite → Option Bytes → Option Bytes → Prop
  | torn {record bytes torn : Bytes} (h : torn <+: record) :
      CrashAt (.append record) (some bytes) (some (bytes ++ torn))
  | before {bytes : Bytes} (file : Option Bytes) : CrashAt (.replace bytes) file file
  | after {bytes : Bytes} (file : Option Bytes) : CrashAt (.replace bytes) file (some bytes)

/-- Everything `append_patch` decides before it touches the file. -/
structure AppendPlan where
  sequence : UInt64
  (payload record : Bytes)
  compact : Bool

/-- The single durable write of a planned commit. -/
def AppendPlan.write (plan : AppendPlan) : FileWrite :=
  if plan.compact then .replace plan.record else .append plan.record

/-- The part of `append_patch` before the write. -/
def planAppend (world : JournalWorld Patch) (patch : Patch) :
    Except RecoveryJournalError AppendPlan :=
  let journal := world.journal
  let sequence := journal.nextSequence
  if sequence = 0 then .error .sequenceExhausted
  else do
    let payload ← (codec.toString patch).mapError .serialize
    validatePayload journal.limits payload
    let _ ← (codec.fromSlice payload).mapError .serialize
    let record ← encodeRecord sha sequence payload
    let currentFileBytes := world.file.elim 0 length
    let projected := saturatingAddU64 currentFileBytes record.length
    let compact := world.file.isNone || journal.scan.hasBadTail
      || decide (journal.scan.validEntries ≥ journal.limits.maxEntries)
      || decide (projected > journal.limits.maxFileBytes)
    return { sequence, payload, record, compact }

/-- `append_patch` without I/O faults. -/
def appendPatch (world : JournalWorld Patch) (patch : Patch) :
    Except RecoveryJournalError JournalAppendReceipt × JournalWorld Patch :=
  match planAppend sha codec world patch with
  | .error error => (.error error, world)
  | .ok plan =>
    let file := plan.write.apply world.file
    let scan := scanPath sha codec world.journal.limits file
    let accepted := scan.latest.any (·.sequence = plan.sequence)
      && !scan.hasBadTail
    if accepted then
      (.ok
        { sequence := plan.sequence
          payloadBytes := plan.payload.length
          journalBytes := file.elim 0 length
          compacted := plan.compact },
        { journal := { world.journal with
            scan := scan
            nextSequence := sequenceAfter plan.sequence }
          file := file })
    else
      (.error (.io "verify committed recovery checkpoint" "checkpoint was not readable"),
        { journal := { world.journal with scan := scan }, file := file })

/-- The files that a crash of `append_patch` may leave. -/
def AppendCrash (world : JournalWorld Patch) (patch : Patch) (crashed : Option Bytes) : Prop :=
  match planAppend sha codec world patch with
  | .error _ => crashed = world.file
  | .ok plan => plan.write.CrashAt world.file crashed

/-- `compact_to_latest` without I/O faults. -/
def compactToLatest (world : JournalWorld Patch) :
    Except RecoveryJournalError Unit × JournalWorld Patch :=
  let bytes : Except RecoveryJournalError Bytes :=
    match world.journal.scan.latest with
    | none => .ok []
    | some checkpoint => encodeRecord sha checkpoint.sequence checkpoint.payload
  match bytes with
  | .error error => (.error error, world)
  | .ok bytes =>
    (.ok (), rescan sha codec { world with file := (FileWrite.replace bytes).apply world.file })

/-- `discard` without I/O faults. -/
def discard (world : JournalWorld Patch) : JournalWorld Patch :=
  { journal := { world.journal with
      scan := RecoveryScan.default
      nextSequence := 1 }
    file := (FileWrite.replace []).apply world.file }

variable {sha codec}
variable {limits : RecoveryLimits} {hlimits : limits.Admissible}
  {records : List (AcceptedCheckpoint codec limits)}

variable {bytes : Bytes}

theorem take_readLimit (h : bytes.length ≤ limits.maxFileBytes) :
    bytes.take (limits.maxFileBytes + 1) = bytes :=
  take_of_length_le (le_succ_of_le h)

theorem scanPath_of_log (hord : OrderedLog codec limits records)
    (hsize : ((recordCode sha codec hlimits).write records).length ≤ limits.maxFileBytes) :
    let scan := scanPath sha codec limits
      (some ((recordCode sha codec hlimits).write records))
    Describes sha codec hlimits scan records ∧ scan.tailStatus = .clean := by
  intro scan
  have hsmall : decide (((recordCode sha codec hlimits).write
      records).length > limits.maxFileBytes) = false :=
    decide_eq_false (not_lt.mpr hsize)
  obtain ⟨accepted, hmax, hdesc, hclean⟩ := scanBytes_describes sha codec
    hlimits false ((recordCode sha codec hlimits).write records)
  obtain rfl := hmax.eq_of_write (orderedLog_hereditary codec) hord
  have hscan : scan = scanBytes sha codec limits false
      ((recordCode sha codec hlimits).write accepted) := by
    simp only [scan, scanPath, hsmall, take_readLimit hsize]
  rw [hscan]
  exact ⟨hdesc, hclean.mpr ⟨rfl, rfl⟩⟩

theorem scanPath_of_torn (hord : OrderedLog codec limits records)
    {r : AcceptedCheckpoint codec limits} {torn : Bytes}
    (htorn : torn <+: recordBytes sha r.val.sequence r.val.payload)
    (hne : torn ≠ recordBytes sha r.val.sequence r.val.payload)
    (hsize : ((recordCode sha codec hlimits).write records ++ torn).length ≤ limits.maxFileBytes) :
    Describes sha codec hlimits (scanPath sha codec limits
      (some ((recordCode sha codec hlimits).write records ++ torn)))
      records := by
  have hsmall : decide (((recordCode sha codec hlimits).write
      records ++ torn).length > limits.maxFileBytes) = false :=
    decide_eq_false (not_lt.mpr hsize)
  obtain ⟨accepted, hmax, hdesc, -⟩ := scanBytes_describes sha codec
    hlimits false ((recordCode sha codec hlimits).write records ++ torn)
  obtain rfl := hmax.eq_of_torn (orderedLog_hereditary codec) hord (r := r) htorn hne
  simp only [scanPath, hsmall, take_readLimit hsize]
  exact hdesc

theorem exists_log_of_clean (hlimits : limits.Admissible)
    (hclean : (scanPath sha codec limits (some bytes)).tailStatus = .clean) :
    ∃ records : List (AcceptedCheckpoint codec limits),
      OrderedLog codec limits records ∧
      bytes = (recordCode sha codec hlimits).write records ∧
      Describes sha codec hlimits (scanPath sha codec limits (some bytes))
        records := by
  obtain ⟨accepted, hmax, hdesc, hiff⟩ := scanBytes_describes sha codec
    hlimits (decide (bytes.length > limits.maxFileBytes))
    (bytes.take (limits.maxFileBytes + 1))
  obtain ⟨hsmall, hwrite⟩ := hiff.mp hclean
  have hsize : bytes.length ≤ limits.maxFileBytes := not_lt.mp (of_decide_eq_false hsmall)
  refine ⟨accepted, hmax.admissible, ?_, hdesc⟩
  rw [hwrite, take_readLimit hsize]

variable {checkpoint : RecoveryCheckpoint Patch}

theorem acceptable_of_latest (hlimits : limits.Admissible) {file : Option Bytes}
    (h : (scanPath sha codec limits file).latest = some checkpoint) :
    Acceptable codec limits checkpoint := by
  cases file with
  | none => cases h
  | some bytes =>
    obtain ⟨accepted, -, hdesc, -⟩ := scanBytes_describes sha codec
      hlimits (decide (bytes.length > limits.maxFileBytes))
      (bytes.take (limits.maxFileBytes + 1))
    have hlast : (accepted.map Subtype.val).getLast? = some checkpoint := by
      rw [← hdesc.latest_eq]
      exact h
    obtain ⟨r, -, rfl⟩ := mem_map.mp (mem_of_getLast? hlast)
    exact r.property

theorem scanPath_of_single (sha : Sha256) (hlimits : limits.Admissible)
    (h : Acceptable codec limits checkpoint) :
    let scan := scanPath sha codec limits
      (some (recordBytes sha checkpoint.sequence checkpoint.payload))
    scan.latest = some checkpoint ∧ scan.validEntries = 1 ∧ scan.tailStatus = .clean := by
  intro scan
  let r : AcceptedCheckpoint codec limits := ⟨checkpoint, h⟩
  have hord : OrderedLog codec limits [r] := ⟨hlimits.entries_pos, pairwise_singleton _ _⟩
  have hwrite : (recordCode sha codec hlimits).write [r] =
      recordBytes sha checkpoint.sequence checkpoint.payload := by
    rw [FrameCode.write_cons, FrameCode.write_nil, append_nil]
    rfl
  have hsize : ((recordCode sha codec hlimits).write [r]).length ≤ limits.maxFileBytes := by
    rw [hwrite, recordBytes_length]
    have hpayload := h.payload_le
    have hrec := hlimits.record_le
    omega
  obtain ⟨hdesc, hclean⟩ := scanPath_of_log hord hsize
  rw [hwrite] at hdesc hclean
  exact ⟨hdesc.latest_eq, hdesc.entries_eq, hclean⟩

end CollideOScope.Recovery
