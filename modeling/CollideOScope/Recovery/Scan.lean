import CollideOScope.Recovery.Record
import CollideOScope.Support.FramedLog

/-!
# The journal scanner

`scan_bytes` reads records from the front of a byte string until one of its
early exits is taken.  One pass of its loop body is `scanRecord`; the loop
itself is `scanLoop`.

The accepted records form the maximal log of the byte string in the sense of
`Support.FramedLog`, and every field of the scan is a function of that log.
-/

namespace CollideOScope.Recovery

open Nat List

inductive RecoveryTailStatus where
  | clean | truncated | corrupt | unsupportedVersion | limitExceeded
  deriving DecidableEq

def RecoveryTailStatus.hasBadTail (status : RecoveryTailStatus) : Bool := status ≠ .clean

structure RecoveryCheckpoint (Patch : Type) where
  sequence : UInt64
  patch : Patch
  payload : Bytes

structure RecoveryScan (Patch : Type) where
  latest : Option (RecoveryCheckpoint Patch)
  (validEntries validBytes : ℕ)
  tailStatus : RecoveryTailStatus
  warning : Option String

namespace RecoveryScan

variable {Patch : Type}

def default : RecoveryScan Patch where
  latest := none
  validEntries := 0
  validBytes := 0
  tailStatus := .clean
  warning := none

def hasBadTail (scan : RecoveryScan Patch) : Bool := scan.tailStatus.hasBadTail

def setBadTail (scan : RecoveryScan Patch) (status : RecoveryTailStatus)
    (warning : String) : RecoveryScan Patch :=
  { scan with tailStatus := status, warning := some warning }

/-- The three assignments made when a record is accepted. -/
def accept (scan : RecoveryScan Patch) (checkpoint : RecoveryCheckpoint Patch) (stop : ℕ) :
    RecoveryScan Patch :=
  { scan with
    validEntries := scan.validEntries + 1
    validBytes := stop
    latest := some checkpoint }

theorem hasBadTail_eq_false_iff {scan : RecoveryScan Patch} :
    scan.hasBadTail = false ↔ scan.tailStatus = .clean := by
  simp [hasBadTail, RecoveryTailStatus.hasBadTail]

end RecoveryScan

/-- What one pass of the loop body of `scan_bytes` decides. -/
inductive ScanStep (Patch : Type) where
  | badTail (status : RecoveryTailStatus) (warning : String)
  | accept (checkpoint : RecoveryCheckpoint Patch) (stop : ℕ)

section

variable {Patch : Type} (sha : Sha256) (codec : PatchCodec Patch)
  (limits : RecoveryLimits) (oversizedFile : Bool)

/-- The status of a record cut short by the end of the bytes read. -/
def incompleteTail : ScanStep Patch :=
  .badTail (if oversizedFile then .limitExceeded else .truncated)
    "Recovery journal has an incomplete crash tail; using the latest valid checkpoint."

/-- One pass of the loop body of `scan_bytes`. -/
def scanRecord (bytes : Bytes) (offset validEntries : ℕ)
    (previousSequence : UInt64) : ScanStep Patch :=
  if validEntries = limits.maxEntries then
    .badTail .limitExceeded
      s!"Recovery journal has more than {limits.maxEntries} entries; ignored the excess tail."
  else if bytes.length - offset < recordHeaderBytes then incompleteTail oversizedFile
  else
    let header := readHeader (slice bytes offset (offset + recordHeaderBytes))
    if header.magic ≠ recordMagic then
      .badTail .corrupt
        "Recovery journal checksum/header is corrupt; using the latest valid checkpoint."
    else if header.version ≠ recoveryJournalVersion then
      .badTail .unsupportedVersion
        s!"Recovery journal version {header.version} is unsupported; using the latest compatible checkpoint."
    else if header.flags ≠ recordFlags ∨ header.reserved ≠ recordReserved
        ∨ header.sequence = 0 ∨ header.sequence ≤ previousSequence then
      .badTail .corrupt
        "Recovery journal record order/header is corrupt; using the latest valid checkpoint."
    else if header.payloadLen.toNat > limits.maxPayloadBytes then
      .badTail .limitExceeded
        s!"Recovery checkpoint is {header.payloadLen} bytes; limit is {limits.maxPayloadBytes}. Ignored the tail."
    else
      let stop := offset + recordHeaderBytes + header.payloadLen.toNat
      if bytes.length < stop then incompleteTail oversizedFile
      else
        let payload := slice bytes (offset + recordHeaderBytes) stop
        if recordChecksum sha header.version header.flags header.sequence
            header.payloadLen header.reserved payload ≠ header.checksum then
          .badTail .corrupt
            "Recovery journal checksum is corrupt; using the latest valid checkpoint."
        else
          match codec.fromSlice payload with
          | .error _ =>
            .badTail .corrupt
              "Recovery checkpoint payload is invalid; using the latest valid checkpoint."
          | .ok patch => .accept ⟨header.sequence, patch, payload⟩ stop

/-- A checkpoint that the scanner may accept under the given limits. -/
structure Acceptable (checkpoint : RecoveryCheckpoint Patch) : Prop where
  sequence_ne_zero : checkpoint.sequence ≠ 0
  payload_le : checkpoint.payload.length ≤ limits.maxPayloadBytes
  parses : codec.fromSlice checkpoint.payload = .ok checkpoint.patch

theorem slice_drop (bytes : Bytes) (offset start stop : ℕ) :
    slice (bytes.drop offset) start stop = slice bytes (offset + start) (offset + stop) := by
  have hlen : offset + stop - (offset + start) = stop - start := by omega
  rw [slice, slice, drop_drop, hlen]

variable {sha codec limits oversizedFile}
variable {bytes : Bytes} {offset validEntries stop : ℕ}
  {previousSequence : UInt64} {checkpoint : RecoveryCheckpoint Patch}

theorem scanRecord_accept_sound
    (h : scanRecord sha codec limits oversizedFile bytes offset validEntries
      previousSequence = .accept checkpoint stop) :
    validEntries ≠ limits.maxEntries ∧ previousSequence < checkpoint.sequence ∧
      Acceptable codec limits checkpoint ∧
      recordBytes sha checkpoint.sequence checkpoint.payload <+:
        bytes.drop offset ∧
      stop = offset + (recordBytes sha checkpoint.sequence checkpoint.payload).length := by
  unfold scanRecord incompleteTail at h
  split at h
  · cases h
  rename_i hents
  split at h
  · cases h
  rename_i hroom
  push Not at hroom
  simp only at h
  set raw := slice bytes offset (offset + recordHeaderBytes) with hraw
  set header := readHeader raw with hheader
  split at h
  · cases h
  rename_i hmagic
  split at h
  · cases h
  rename_i hversion
  split at h
  · cases h
  rename_i hord
  split at h
  · cases h
  rename_i hsize
  split at h
  · cases h
  rename_i hfit
  set payload := slice bytes (offset + recordHeaderBytes)
    (offset + recordHeaderBytes + header.payloadLen.toNat) with hpayload
  split at h
  · cases h
  rename_i hsum
  split at h
  · cases h
  rename_i patch hparse
  push Not at hmagic hversion hord hsize hfit hsum
  obtain ⟨hflags, hres, hnz, hfresh⟩ := hord
  obtain ⟨rfl, rfl⟩ := ScanStep.accept.inj h
  have hlen : payload.length = header.payloadLen.toNat := by
    rw [hpayload, slice_length hfit]
    omega
  have hlen32 : UInt32.ofNat payload.length = header.payloadLen := by rw [hlen, UInt32.ofNat_toNat]
  have hrawlen : raw.length = recordHeaderBytes := by
    rw [hraw, slice_length (by omega)]
    omega
  have hwrit : recordHeader sha header.sequence payload = header := by
    rw [recordHeader, hlen32]
    rw [hversion, hflags, hres] at hsum
    rw [hsum]
    simp only [← hmagic, ← hversion, ← hflags, ← hres]
  have hrec : recordBytes sha header.sequence payload = raw ++ payload := by
    rw [recordBytes, hwrit, hheader, writeHeader_readHeader hrawlen]
  refine ⟨hents, ?_, ⟨hnz, ?_, hparse⟩, ?_, ?_⟩
  · exact UInt64.not_le.mp hfresh
  · simpa [hlen] using hsize
  · rw [hrec, hraw, hpayload, slice_append_slice _ (le_add_right _ _) (le_add_right _ _)]
    exact take_prefix _ _
  · rw [hrec, length_append, hrawlen, hlen, add_assoc]

theorem scanRecord_accept_complete
    (hents : validEntries ≠ limits.maxEntries)
    (hfresh : previousSequence < checkpoint.sequence)
    (hacc : Acceptable codec limits checkpoint)
    (hlen32 : checkpoint.payload.length < 2 ^ 32)
    (hbegins : recordBytes sha checkpoint.sequence checkpoint.payload <+:
      bytes.drop offset) :
    scanRecord sha codec limits oversizedFile bytes offset validEntries previousSequence =
      .accept checkpoint (offset +
        (recordBytes sha checkpoint.sequence checkpoint.payload).length) := by
  have hfit := hbegins.length_le
  rw [recordBytes_length, length_drop] at hfit
  have hheader : readHeader
      (slice bytes offset (offset + recordHeaderBytes)) =
        recordHeader sha checkpoint.sequence checkpoint.payload := by
    have h := readHeader_of_begins sha hbegins
    rwa [slice_drop, add_zero] at h
  have hpayload : slice bytes (offset + recordHeaderBytes)
      (offset + recordHeaderBytes + checkpoint.payload.length) = checkpoint.payload := by
    have h := slice_payload_of_begins sha hbegins
    rwa [slice_drop, ← add_assoc] at h
  have hlen : (UInt32.ofNat checkpoint.payload.length).toNat =
      checkpoint.payload.length := UInt32.toNat_ofNat_of_lt' hlen32
  have hpos : 0 < recordHeaderBytes := by decide
  have hord : ¬(checkpoint.sequence = 0 ∨ checkpoint.sequence ≤ previousSequence) := by
    rintro (hzero | hle)
    · exact hacc.sequence_ne_zero hzero
    · exact UInt64.not_le.mpr hfresh hle
  have hroom : ¬bytes.length - offset < recordHeaderBytes := by omega
  have hsize : ¬checkpoint.payload.length > limits.maxPayloadBytes := not_lt.mpr hacc.payload_le
  have hstop : ¬bytes.length < offset + recordHeaderBytes + checkpoint.payload.length := by omega
  have hend : offset + recordHeaderBytes + checkpoint.payload.length =
      offset + (recordBytes sha checkpoint.sequence checkpoint.payload).length := by
    rw [recordBytes_length, add_assoc]
  unfold scanRecord
  simp only [hheader, recordHeader, hlen, hpayload, if_neg hents, if_neg hroom, ne_eq,
    not_true_eq_false, if_false, false_or, if_neg hord, if_neg hsize, if_neg hstop, hacc.parses]
  rw [hend]

theorem scanRecord_accept_lt
    (h : scanRecord sha codec limits oversizedFile bytes offset validEntries
      previousSequence = .accept checkpoint stop) : offset < stop := by
  obtain ⟨-, -, -, -, hstop⟩ := scanRecord_accept_sound h
  rw [hstop, recordBytes_length, recordHeaderBytes]
  omega

theorem scanRecord_badTail_ne_clean {status : RecoveryTailStatus}
    {warning : String}
    (h : scanRecord sha codec limits oversizedFile bytes offset validEntries
      previousSequence = .badTail status warning) : status ≠ .clean := by
  have hincomplete {status : RecoveryTailStatus} {warning : String}
      (h : (incompleteTail oversizedFile : ScanStep Patch) =
        .badTail status warning) : status ≠ .clean := by
    cases h
    cases oversizedFile
    · decide
    · decide
  unfold scanRecord at h
  split at h
  · cases h
    decide
  split at h
  · exact hincomplete h
  simp only at h
  split at h
  · cases h
    decide
  split at h
  · cases h
    decide
  split at h
  · cases h
    decide
  split at h
  · cases h
    decide
  split at h
  · exact hincomplete h
  split at h
  · cases h
    decide
  split at h
  · cases h
    decide
  · cases h

variable (sha codec limits oversizedFile)

/-- The loop of `scan_bytes` from a given offset. -/
def scanLoop (bytes : Bytes) (scan : RecoveryScan Patch) (offset : ℕ)
    (previousSequence : UInt64) : RecoveryScan Patch :=
  if offset < bytes.length then
    match _h : scanRecord sha codec limits oversizedFile bytes offset
        scan.validEntries previousSequence with
    | .badTail status warning => scan.setBadTail status warning
    | .accept checkpoint stop =>
      scanLoop bytes (scan.accept checkpoint stop) stop checkpoint.sequence
  else scan
termination_by bytes.length - offset
decreasing_by
  have hlt := scanRecord_accept_lt (by assumption)
  omega

def scanBytes (bytes : Bytes) : RecoveryScan Patch :=
  let scan := scanLoop sha codec limits oversizedFile bytes RecoveryScan.default 0 0
  if oversizedFile ∧ scan.hasBadTail = false then
    scan.setBadTail .limitExceeded
      s!"Recovery journal exceeds {limits.maxFileBytes} bytes; ignored the excess tail."
  else scan

end

section

variable {Patch : Type} (sha : Sha256) (codec : PatchCodec Patch) {limits : RecoveryLimits}

/-- Checkpoints that satisfy every per-record condition of the scanner. -/
abbrev AcceptedCheckpoint (codec : PatchCodec Patch) (limits : RecoveryLimits) : Type :=
  {checkpoint : RecoveryCheckpoint Patch // Acceptable codec limits checkpoint}

def recordCode (hlimits : limits.Admissible) :
    FrameCode (AcceptedCheckpoint codec limits) UInt8 where
  encode c := recordBytes sha c.val.sequence c.val.payload
  encode_ne_nil c := recordBytes_ne_nil sha _ _
  eq_of_begins := by
    rintro ⟨c, hc⟩ ⟨c', hc'⟩ bytes h h'
    have hlen := hlimits.payload_lt_u32 hc.payload_le
    have hlen' := hlimits.payload_lt_u32 hc'.payload_le
    obtain ⟨hseq, hpay⟩ := recordBytes_begins_inj sha hlen hlen' h h'
    have hpatch : c.patch = c'.patch := by
      have hparse := hc.parses
      rw [hpay, hc'.parses] at hparse
      exact (Except.ok.inj hparse).symm
    obtain ⟨sequence, patch, payload⟩ := c
    obtain ⟨sequence', patch', payload'⟩ := c'
    simp only at hseq hpay hpatch
    subst hseq hpay hpatch
    rfl

/-- Strictly increasing sequences, and no more records than allowed. -/
structure Ordered (limits : RecoveryLimits) (records : List (RecoveryCheckpoint Patch)) : Prop where
  count_le : records.length ≤ limits.maxEntries
  increasing : records.Pairwise fun c c' => c.sequence < c'.sequence

def OrderedLog (codec : PatchCodec Patch) (limits : RecoveryLimits)
    (records : List (AcceptedCheckpoint codec limits)) : Prop :=
  Ordered limits (records.map Subtype.val)

theorem orderedLog_hereditary : FrameCode.Hereditary (OrderedLog codec limits) := by
  intro records initial hinitial h
  have hmap : initial.map Subtype.val <+: records.map Subtype.val := hinitial.map _
  exact ⟨hmap.length_le.trans h.count_le, h.increasing.sublist hmap.sublist⟩

structure Describes (hlimits : limits.Admissible) (scan : RecoveryScan Patch)
    (records : List (AcceptedCheckpoint codec limits)) : Prop where
  latest_eq : scan.latest = (records.map Subtype.val).getLast?
  entries_eq : scan.validEntries = records.length
  bytes_eq : scan.validBytes = ((recordCode sha codec hlimits).write records).length

/-- The loop invariant of `scan_bytes`: the records accepted so far end at
`offset`, and `previous` is the sequence of the last of them. -/
structure ScanInvariant (hlimits : limits.Admissible) (bytes : Bytes) (scan : RecoveryScan Patch)
    (offset : ℕ) (previous : UInt64) (records : List (AcceptedCheckpoint codec limits)) : Prop
    extends Describes sha codec hlimits scan records where
  log : (recordCode sha codec hlimits).IsLog (OrderedLog codec limits) bytes records
  clean : scan.tailStatus = .clean
  offset_eq : offset = ((recordCode sha codec hlimits).write records).length
  below : ∀ c ∈ records, c.val.sequence ≤ previous
  attained : (records = [] ∧ previous = 0) ∨ ∃ c ∈ records, c.val.sequence = previous

variable {hlimits : limits.Admissible} {bytes : Bytes} {scan : RecoveryScan Patch} {offset : ℕ}
  {previous : UInt64} {records : List (AcceptedCheckpoint codec limits)}

theorem ScanInvariant.start (hlimits : limits.Admissible) (bytes : Bytes) :
    ScanInvariant sha codec hlimits bytes RecoveryScan.default 0 0 [] where
  latest_eq := rfl
  entries_eq := rfl
  bytes_eq := rfl
  log := ⟨⟨zero_le _, List.Pairwise.nil⟩, nil_prefix⟩
  clean := rfl
  offset_eq := rfl
  below := by simp
  attained := .inl ⟨rfl, rfl⟩

variable {sha codec}

section

variable (hinv : ScanInvariant sha codec hlimits bytes scan offset previous records)
  {oversizedFile : Bool}
include hinv

theorem ScanInvariant.drop_offset :
    bytes = (recordCode sha codec hlimits).write records ++ bytes.drop offset := by
  obtain ⟨rest, hrest⟩ := hinv.log.begins
  rw [hinv.offset_eq, ← hrest, drop_left]

theorem ScanInvariant.scanRecord_of_extends {r : AcceptedCheckpoint codec limits}
    (hlog : (recordCode sha codec hlimits).IsLog (OrderedLog codec limits) bytes (records ++ [r])) :
    scanRecord sha codec limits oversizedFile bytes offset scan.validEntries previous =
      .accept r.val (offset + (recordBytes sha r.val.sequence r.val.payload).length) := by
  have hord : Ordered limits ((records ++ [r]).map Subtype.val) := hlog.admissible
  have hcnt := hord.count_le
  have hinc := hord.increasing
  rw [map_append, pairwise_append] at hinc
  have hents : scan.validEntries ≠ limits.maxEntries := by
    rw [hinv.entries_eq]
    simp only [length_map, length_append, length_singleton] at hcnt
    omega
  have hfresh : previous < r.val.sequence := by
    rcases hinv.attained with ⟨-, hzero⟩ | ⟨c, hc, hseq⟩
    · rw [hzero]
      exact UInt64.pos_iff_ne_zero.mpr r.property.sequence_ne_zero
    · rw [← hseq]
      exact hinc.2.2 c.val (mem_map_of_mem hc) r.val (by simp)
  have hbegins : recordBytes sha r.val.sequence r.val.payload <+:
      bytes.drop offset := by
    have hlong := hlog.begins
    rw [hinv.drop_offset, FrameCode.write_append, prefix_append_right_inj, FrameCode.write_cons,
      FrameCode.write_nil, append_nil] at hlong
    exact hlong
  exact scanRecord_accept_complete hents hfresh r.property
    (hlimits.payload_lt_u32 r.property.payload_le) hbegins

theorem ScanInvariant.accept
    {checkpoint : RecoveryCheckpoint Patch} {stop : ℕ}
    (h : scanRecord sha codec limits oversizedFile bytes offset scan.validEntries
      previous = .accept checkpoint stop)
    :
    ∃ r : AcceptedCheckpoint codec limits, r.val = checkpoint ∧
      ScanInvariant sha codec hlimits bytes (scan.accept checkpoint stop) stop
        checkpoint.sequence (records ++ [r]) := by
  obtain ⟨hents, hfresh, hacc, hbegins, hstop⟩ := scanRecord_accept_sound h
  let r : AcceptedCheckpoint codec limits := ⟨checkpoint, hacc⟩
  have hwrite : (recordCode sha codec hlimits).write (records ++ [r]) =
      (recordCode sha codec hlimits).write records ++
        recordBytes sha checkpoint.sequence checkpoint.payload := by
    rw [FrameCode.write_append, FrameCode.write_cons, FrameCode.write_nil, append_nil]
    rfl
  have hlen : stop = ((recordCode sha codec hlimits).write (records ++ [r])).length := by
    rw [hwrite, length_append, ← hinv.offset_eq, hstop]
  have hbelow : ∀ c ∈ records, c.val.sequence < checkpoint.sequence := by
    intro c hc
    exact UInt64.lt_of_le_of_lt (hinv.below c hc) hfresh
  refine ⟨r, rfl, ?_⟩
  constructor
  · constructor
    · simp [RecoveryScan.accept, r]
    · simp [RecoveryScan.accept, hinv.entries_eq]
    · exact hlen
  · constructor
    · constructor
      · have hcnt := hinv.log.admissible.count_le
        rw [length_map, ← hinv.entries_eq] at hcnt
        simp only [length_map, length_append, length_singleton, ← hinv.entries_eq]
        omega
      · rw [map_append, pairwise_append]
        refine ⟨hinv.log.admissible.increasing, by simp, ?_⟩
        intro c hc c' hc'
        obtain ⟨old, hold, rfl⟩ := mem_map.mp hc
        obtain rfl : c' = checkpoint := by simpa [r] using hc'
        exact hbelow old hold
    · rw [hwrite, hinv.drop_offset, prefix_append_right_inj]
      exact hbegins
  · exact hinv.clean
  · exact hlen
  · intro c hc
    rcases mem_append.mp hc with hold | hnew
    · exact UInt64.le_of_lt (hbelow c hold)
    · obtain rfl : c = r := by simpa using hnew
      exact UInt64.le_refl _
  · exact .inr ⟨r, by simp, rfl⟩

end

theorem scanLoop_describes (oversizedFile : Bool)
    (hinv : ScanInvariant sha codec hlimits bytes scan offset previous records) :
    ∃ accepted,
      (recordCode sha codec hlimits).IsMaximalLog (OrderedLog codec limits) bytes accepted ∧
      Describes sha codec hlimits
        (scanLoop sha codec limits oversizedFile bytes scan offset previous)
        accepted ∧
      ((scanLoop sha codec limits oversizedFile bytes scan offset previous).tailStatus = .clean ↔
        (recordCode sha codec hlimits).write accepted = bytes) := by
  fun_induction scanLoop sha codec limits oversizedFile bytes scan offset
    previous generalizing records with
  | case1 scan offset previous hlt status warning hstep =>
    have hlen : ((recordCode sha codec hlimits).write records).length <
        bytes.length := hinv.offset_eq ▸ hlt
    refine ⟨records, ⟨hinv.log, ?_⟩, ?_, ?_⟩
    · intro r hlog
      rw [hinv.scanRecord_of_extends hlog] at hstep
      cases hstep
    · exact ⟨hinv.latest_eq, hinv.entries_eq, hinv.bytes_eq⟩
    · constructor
      · intro hclean
        exact absurd hclean (scanRecord_badTail_ne_clean hstep)
      · intro hall
        rw [hall] at hlen
        exact absurd hlen (lt_irrefl _)
  | case2 scan offset previous hlt checkpoint stop hstep ih =>
    obtain ⟨r, -, hnext⟩ := hinv.accept hstep
    exact ih hnext
  | case3 scan offset previous hge =>
    have hall : (recordCode sha codec hlimits).write records = bytes := by
      apply hinv.log.begins.eq_of_length_le
      rw [← hinv.offset_eq]
      omega
    refine ⟨records, ⟨hinv.log, ?_⟩, hinv.toDescribes, ?_⟩
    · intro r hlog
      have hlen := hlog.begins.length_le
      rw [FrameCode.write_append, hall, FrameCode.write_cons, length_append, length_append] at hlen
      have hpos := length_pos_of_ne_nil ((recordCode sha codec hlimits).encode_ne_nil r)
      omega
    · simp [hinv.clean, hall]

theorem scanBytes_describes (sha : Sha256) (codec : PatchCodec Patch)
    (hlimits : limits.Admissible) (oversizedFile : Bool) (bytes : Bytes) :
    ∃ accepted,
      (recordCode sha codec hlimits).IsMaximalLog (OrderedLog codec limits) bytes accepted ∧
      Describes sha codec hlimits (scanBytes sha codec limits oversizedFile bytes) accepted ∧
      ((scanBytes sha codec limits oversizedFile bytes).tailStatus = .clean ↔
        oversizedFile = false ∧ (recordCode sha codec hlimits).write accepted = bytes) := by
  obtain ⟨accepted, hmax, hdesc, hclean⟩ :=
    scanLoop_describes oversizedFile (ScanInvariant.start sha codec hlimits bytes)
  refine ⟨accepted, hmax, ?_⟩
  unfold scanBytes
  simp only
  split
  · rename_i hover
    exact ⟨⟨hdesc.latest_eq, hdesc.entries_eq, hdesc.bytes_eq⟩,
      by simp [RecoveryScan.setBadTail, hover.1]⟩
  · rename_i hover
    refine ⟨hdesc, ?_⟩
    rw [← hclean]
    constructor
    · intro hstatus
      refine ⟨?_, hstatus⟩
      by_contra hoversized
      exact hover ⟨Bool.eq_true_of_not_eq_false hoversized,
        RecoveryScan.hasBadTail_eq_false_iff.mpr hstatus⟩
    · exact And.right

end

/-!
## The scanner reads exactly the maximal valid log

The claim is stated over `encode_record` itself: a byte string is a log when it
is the concatenation of the records that `encode_record` returns for a list of
checkpoints.
-/

variable {Patch : Type}

/-- The concatenation of `encode_record` over a list of checkpoints. -/
def encodeLog (sha : Sha256) : List (RecoveryCheckpoint Patch) → Except RecoveryJournalError Bytes
  | [] => .ok []
  | checkpoint :: rest => do
      let record ← encodeRecord sha checkpoint.sequence checkpoint.payload
      let records ← encodeLog sha rest
      return record ++ records

/-- The record lists a journal may hold under the given limits. -/
structure ValidRecords (codec : PatchCodec Patch) (limits : RecoveryLimits)
    (records : List (RecoveryCheckpoint Patch)) : Prop
    extends Ordered limits records where
  acceptable : ∀ checkpoint ∈ records, Acceptable codec limits checkpoint

variable {sha : Sha256} {codec : PatchCodec Patch} {limits : RecoveryLimits}
  {records : List (RecoveryCheckpoint Patch)}

theorem encodeLog_map_val (hlimits : limits.Admissible)
    (records : List (AcceptedCheckpoint codec limits)) :
    encodeLog sha (records.map Subtype.val) =
      .ok ((recordCode sha codec hlimits).write records) := by
  induction records with
  | nil => rfl
  | cons r records ih =>
    have hrec : encodeRecord sha r.val.sequence r.val.payload =
        .ok (recordBytes sha r.val.sequence r.val.payload) :=
      (encodeRecord_eq_ok_iff sha).mpr
        ⟨r.property.sequence_ne_zero, hlimits.payload_lt_u32 r.property.payload_le, rfl⟩
    rw [map_cons, encodeLog, hrec, ih, FrameCode.write_cons]
    rfl

theorem ValidRecords.exists_accepted (h : ValidRecords codec limits records) :
    ∃ accepted : List (AcceptedCheckpoint codec limits),
      accepted.map Subtype.val = records ∧ OrderedLog codec limits accepted := by
  have hval : (records.attachWith _ h.acceptable).map Subtype.val = records :=
    attachWith_map_subtype_val _
  refine ⟨records.attachWith _ h.acceptable, hval, ?_⟩
  rw [OrderedLog, hval]
  exact h.toOrdered

theorem OrderedLog.validRecords {accepted : List (AcceptedCheckpoint codec limits)}
    (h : OrderedLog codec limits accepted) :
    ValidRecords codec limits (accepted.map Subtype.val) where
  toOrdered := h
  acceptable := by
    intro checkpoint hmem
    obtain ⟨r, -, rfl⟩ := mem_map.mp hmem
    exact r.property

theorem exists_isLog_of_encodeLog (hlimits : limits.Admissible) {bytes written : Bytes}
    (hvalid : ValidRecords codec limits records) (hwrit : encodeLog sha records = .ok written)
    (hbegins : written <+: bytes) :
    ∃ accepted : List (AcceptedCheckpoint codec limits),
      accepted.map Subtype.val = records ∧
      (recordCode sha codec hlimits).write accepted = written ∧
      (recordCode sha codec hlimits).IsLog (OrderedLog codec limits) bytes accepted := by
  obtain ⟨accepted, rfl, hord⟩ := hvalid.exists_accepted
  rw [encodeLog_map_val hlimits] at hwrit
  have hwrite := Except.ok.inj hwrit
  refine ⟨accepted, rfl, hwrite, hord, ?_⟩
  rwa [hwrite]

/-- `scan_bytes` is exactly the maximal-valid-prefix parser of the record
format, and it inverts the concatenation of `encode_record`. -/
theorem scanBytes_exact (sha : Sha256) (codec : PatchCodec Patch) {limits : RecoveryLimits}
    (hlimits : limits.bounded = .ok limits) (bytes : Bytes) :
    let scan := scanBytes sha codec limits false bytes
    (∃ records, ValidRecords codec limits records ∧
      encodeLog sha records = .ok (bytes.take scan.validBytes) ∧
      scan.validBytes ≤ bytes.length ∧
      scan.validEntries = records.length ∧
      scan.latest = records.getLast?) ∧
    (scan.tailStatus = .clean ↔ scan.validBytes = bytes.length) ∧
    (∀ records n, ValidRecords codec limits records → n ≤ bytes.length →
      encodeLog sha records = .ok (bytes.take n) → n ≤ scan.validBytes) ∧
    ∀ records, ValidRecords codec limits records →
      encodeLog sha records = .ok bytes →
        scan.tailStatus = .clean ∧ scan.latest = records.getLast? ∧
          scan.validEntries = records.length ∧
          scan.validBytes = bytes.length := by
  have hadmissible := (RecoveryLimits.bounded_eq_ok_iff.mp hlimits).1
  obtain ⟨accepted, hmax, hdescribes, hclean⟩ :=
    scanBytes_describes sha codec hadmissible false bytes
  have hwhole : (recordCode sha codec hadmissible).write accepted = bytes ↔
      ((recordCode sha codec hadmissible).write accepted).length = bytes.length := by
    constructor
    · intro heq
      rw [heq]
    · intro hlen
      exact hmax.begins.eq_of_length hlen
  intro scan
  refine ⟨⟨accepted.map Subtype.val, hmax.admissible.validRecords, ?_, ?_, ?_,
    hdescribes.latest_eq⟩, ?_, ?_, ?_⟩
  · rw [encodeLog_map_val hadmissible, hdescribes.bytes_eq,
      ← prefix_iff_eq_take.mp hmax.begins]
  · rw [hdescribes.bytes_eq]
    exact hmax.begins.length_le
  · rw [length_map, hdescribes.entries_eq]
  · rw [hclean, hdescribes.bytes_eq, ← hwhole]
    simp
  · intro records n hvalid hn hwritten
    obtain ⟨other, -, hwrite, hlog⟩ := exists_isLog_of_encodeLog hadmissible
      hvalid hwritten ( take_prefix n bytes)
    have hle := hmax.length_le (orderedLog_hereditary codec) hlog
    rw [hwrite, length_take, min_eq_left hn] at hle
    rwa [hdescribes.bytes_eq]
  · intro records hvalid hwritten
    obtain ⟨other, rfl, hwrite, hlog⟩ := exists_isLog_of_encodeLog hadmissible
      hvalid hwritten (prefix_refl bytes)
    subst hwrite
    obtain rfl := hmax.eq_of_write (orderedLog_hereditary codec) hlog.admissible
    exact ⟨hclean.mpr ⟨rfl, rfl⟩, hdescribes.latest_eq,
      by rw [length_map, hdescribes.entries_eq], hdescribes.bytes_eq⟩

/-- The file that holds the smallest document as its only record scans to
exactly that record. -/
theorem scanBytes_exact_minimalDocument :
    let bytes := recordBytes documentSha 1 minimalDocument
    let scan := scanBytes documentSha documentCodec RecoveryLimits.default
      false bytes
    scan.tailStatus = .clean ∧
      scan.latest = some ⟨1, minimalDocument, minimalDocument⟩ ∧
      scan.validEntries = 1 ∧ scan.validBytes = bytes.length := by
  have hlimits : RecoveryLimits.default.bounded = .ok RecoveryLimits.default := by decide
  apply (scanBytes_exact documentSha documentCodec hlimits _).2.2.2
    [⟨1, minimalDocument, minimalDocument⟩]
  · refine ⟨⟨by decide, by simp⟩, ?_⟩
    intro checkpoint hmem
    obtain rfl := mem_singleton.mp hmem
    exact ⟨by decide, by decide, by rfl⟩
  · rfl

end CollideOScope.Recovery
