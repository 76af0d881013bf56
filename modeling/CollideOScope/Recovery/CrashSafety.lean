import CollideOScope.Recovery.Journal

/-!
# Crash safety of `append_patch`

A planned commit either appends to a file that scans clean, with room for one
more record, or replaces the whole file by the new record.  In both cases every
file that a crash may leave scans to the old latest checkpoint or to the new
one.
-/

namespace CollideOScope.Recovery

open Nat FrameCode List RecoveryLimits

variable {Patch : Type} {sha : Sha256} {codec : PatchCodec Patch} {limits : RecoveryLimits}

/-- Between calls, the cached scan is the scan of the file and the next
sequence follows it. -/
structure Synced (sha : Sha256) (codec : PatchCodec Patch)
    (limits : RecoveryLimits) (world : JournalWorld Patch) : Prop where
  limits_eq : world.journal.limits = limits
  scan_eq : world.journal.scan = scanPath sha codec limits world.file
  next_eq : world.journal.nextSequence = nextSequenceOf world.journal.scan

variable {journal : RecoveryJournal Patch} {file : Option Bytes}

theorem openWithLimits_eq_ok_iff :
    openWithLimits sha codec file limits = .ok journal ↔
      limits.Admissible ∧
        journal =
          { limits := limits
            scan := scanPath sha codec limits file
            nextSequence := nextSequenceOf (scanPath sha codec limits file) } := by
  unfold openWithLimits
  cases hbdd : limits.bounded with
  | error e =>
    have hbad : ¬limits.Admissible := by
      intro hgood
      rw [bounded_eq_ok_iff.mpr ⟨hgood, rfl⟩] at hbdd
      cases hbdd
    simp only [bind, Except.bind, reduceCtorEq, false_iff]
    exact fun h => hbad h.1
  | ok limits' =>
    obtain ⟨hgood, rfl⟩ := bounded_eq_ok_iff.mp hbdd
    simp only [bind, Except.bind, pure, Except.pure, Except.ok.injEq, hgood, true_and]
    exact eq_comm

theorem synced_of_open (h : openWithLimits sha codec file limits = .ok journal)
    : Synced sha codec limits ⟨journal, file⟩ := by
  obtain ⟨-, rfl⟩ := openWithLimits_eq_ok_iff.mp h
  exact ⟨rfl, rfl, rfl⟩

variable {payload : Bytes}

theorem validatePayload_eq_ok_iff :
    validatePayload limits payload = .ok () ↔
      payload.length ≤ limits.maxPayloadBytes ∧
        recordHeaderBytes + payload.length ≤ limits.maxFileBytes := by
  unfold validatePayload
  split
  · rename_i hlarge
    simp only [reduceCtorEq, false_iff]
    omega
  · split
    · rename_i hrec
      simp only [reduceCtorEq, false_iff]
      omega
    · rename_i hsmall hrec
      simp only [true_iff]
      omega

theorem sequenceAfter_toNat {sequence : UInt64} (h : sequenceAfter sequence ≠ 0) :
    (sequenceAfter sequence).toNat = sequence.toNat + 1 := by
  unfold sequenceAfter at h ⊢
  split
  · rename_i hroom
    rw [UInt64.toNat_add, UInt64.toNat_one, mod_eq_of_lt hroom]
  · rename_i hfull
    rw [if_neg hfull] at h
    exact absurd rfl h

theorem nextSequenceOf_toNat {scan : RecoveryScan Patch} (h : nextSequenceOf scan ≠ 0) :
    (nextSequenceOf scan).toNat = scan.latest.elim 0 (fun c => c.sequence.toNat) + 1 := by
  unfold nextSequenceOf at h ⊢
  cases hlatest : scan.latest with
  | none => rfl
  | some checkpoint =>
    rw [hlatest] at h
    exact sequenceAfter_toNat h

theorem Ordered.sequence_le_last {records : List (RecoveryCheckpoint Patch)}
    (h : Ordered limits records) {last : RecoveryCheckpoint Patch}
    (hlast : records.getLast? = some last) :
    ∀ c ∈ records, c.sequence ≤ last.sequence := by
  intro c hc
  obtain ⟨front, rfl⟩ := getLast?_eq_some_iff.mp hlast
  rcases mem_append.mp hc with hfront | hback
  · have hpair := (pairwise_append.mp h.increasing).2.2 c hfront last (by simp)
    exact UInt64.le_of_lt hpair
  · obtain rfl := mem_singleton.mp hback
    exact UInt64.le_refl _

/-- What a successful plan fixes: the new checkpoint is acceptable, its record
is its encoding, and the appending path is taken only on a clean file with room
for one more record. -/
structure PlanFacts (codec : PatchCodec Patch) (hlimits : limits.Admissible)
    (sha : Sha256) (world : JournalWorld Patch) (plan : AppendPlan)
    (fresh : AcceptedCheckpoint codec limits) : Prop where
  sequence_eq : plan.sequence = world.journal.nextSequence
  fresh_sequence : fresh.val.sequence = plan.sequence
  fresh_payload : fresh.val.payload = plan.payload
  record_eq : plan.record = recordBytes sha plan.sequence plan.payload
  sequence_ne_zero : plan.sequence ≠ 0
  record_le : plan.record.length ≤ limits.maxFileBytes
  append_path : plan.compact = false →
    ∃ records : List (AcceptedCheckpoint codec limits),
      world.file = some ((recordCode sha codec hlimits).write records) ∧
      Describes sha codec hlimits world.journal.scan records ∧
      OrderedLog codec limits (records ++ [fresh]) ∧
      ((recordCode sha codec hlimits).write (records ++ [fresh])).length ≤ limits.maxFileBytes

variable {patch : Patch} {world : JournalWorld Patch}

theorem planAppend_eq_ok_iff {plan : AppendPlan} :
    planAppend sha codec world patch = .ok plan ↔
      world.journal.nextSequence ≠ 0 ∧
      plan.sequence = world.journal.nextSequence ∧
      codec.toString patch = .ok plan.payload ∧
      validatePayload world.journal.limits plan.payload = .ok () ∧
      (∃ parsed, codec.fromSlice plan.payload = .ok parsed) ∧
      encodeRecord sha world.journal.nextSequence plan.payload = .ok plan.record ∧
      plan.compact = (world.file.isNone || world.journal.scan.hasBadTail
        || decide (world.journal.scan.validEntries ≥
          world.journal.limits.maxEntries)
        || decide (saturatingAddU64 (world.file.elim 0 length)
          plan.record.length > world.journal.limits.maxFileBytes)) := by
  obtain ⟨sequence, payload, record, compact⟩ := plan
  unfold planAppend
  simp only
  split
  · simp_all
  · rename_i hnz
    cases htext : codec.toString patch with
    | error e => simp [Except.mapError, bind, Except.bind]
    | ok text =>
      cases hvalid : validatePayload world.journal.limits text with
      | error e =>
        simp only [Except.mapError, bind, Except.bind, hvalid]
        simp only [reduceCtorEq, false_iff]
        rintro ⟨-, -, htext', hvalid', -⟩
        cases htext'
        rw [hvalid] at hvalid'
        cases hvalid'
      | ok u =>
        cases hparse : codec.fromSlice text with
        | error e =>
          simp only [Except.mapError, bind, Except.bind, hvalid, hparse]
          simp only [reduceCtorEq, false_iff]
          rintro ⟨-, -, htext', -, ⟨parsed, hparse'⟩, -⟩
          cases htext'
          rw [hparse] at hparse'
          cases hparse'
        | ok parsed =>
          cases hrec : encodeRecord sha world.journal.nextSequence text with
          | error e =>
            simp only [Except.mapError, bind, Except.bind, hvalid, hparse, hrec]
            simp only [reduceCtorEq, false_iff]
            rintro ⟨-, -, htext', -, -, hrecord', -⟩
            cases htext'
            rw [hrec] at hrecord'
            cases hrecord'
          | ok bytes =>
            simp only [Except.mapError, bind, Except.bind, hvalid, hparse, hrec, pure, Except.pure,
              Except.ok.injEq, AppendPlan.mk.injEq]
            constructor
            · rintro ⟨rfl, rfl, rfl, rfl⟩
              exact ⟨hnz, rfl, rfl, hvalid, ⟨parsed, hparse⟩, hrec, rfl⟩
            · rintro ⟨-, rfl, htext', -, -, hrecord', hcompc⟩
              subst htext'
              rw [hrec] at hrecord'
              cases hrecord'
              exact ⟨rfl, rfl, rfl, hcompc.symm⟩

theorem exists_planAppend_eq_ok {parsed : Patch} {record : Bytes}
    (hnext : world.journal.nextSequence ≠ 0) (htext : codec.toString patch = .ok payload)
    (hvalid : validatePayload world.journal.limits payload = .ok ())
    (hparse : codec.fromSlice payload = .ok parsed)
    (henc : encodeRecord sha world.journal.nextSequence payload = .ok record) :
    ∃ plan, planAppend sha codec world patch = .ok plan ∧
      plan.sequence = world.journal.nextSequence := by
  let compact := world.file.isNone || world.journal.scan.hasBadTail
    || decide (world.journal.scan.validEntries ≥
      world.journal.limits.maxEntries)
    || decide (saturatingAddU64 (world.file.elim 0 length)
      record.length > world.journal.limits.maxFileBytes)
  refine ⟨⟨world.journal.nextSequence, payload, record, compact⟩, ?_, rfl⟩
  exact planAppend_eq_ok_iff.mpr ⟨hnext, rfl, htext, hvalid, ⟨parsed, hparse⟩, henc, rfl⟩

theorem Synced.exists_planFacts (hlimits : limits.Admissible)
    (hsynced : Synced sha codec limits world)
    {plan : AppendPlan} (hplan : planAppend sha codec world patch = .ok plan) :
    ∃ fresh, PlanFacts codec hlimits sha world plan fresh := by
  obtain ⟨hnz, hseq, -, hvalid, ⟨parsed, hparse⟩, henc, hcompc⟩ := planAppend_eq_ok_iff.mp hplan
  rw [hsynced.limits_eq] at hvalid hcompc
  rw [← hseq] at hnz henc
  obtain ⟨hpayload, hsize⟩ := validatePayload_eq_ok_iff.mp hvalid
  obtain ⟨-, -, hrec⟩ := (encodeRecord_eq_ok_iff sha).mp henc
  let fresh : AcceptedCheckpoint codec limits :=
    ⟨⟨plan.sequence, parsed, plan.payload⟩, hnz, hpayload, hparse⟩
  have hrecordLe : plan.record.length ≤ limits.maxFileBytes := by
    rw [hrec, recordBytes_length]
    exact hsize
  refine ⟨fresh, hseq, rfl, rfl, hrec, hnz, hrecordLe, ?_⟩
  intro happ
  rw [happ] at hcompc
  obtain ⟨hkept, hroom⟩ := Bool.or_eq_false_iff.mp hcompc.symm
  obtain ⟨hkept, hents⟩ := Bool.or_eq_false_iff.mp hkept
  obtain ⟨hpres, htail⟩ := Bool.or_eq_false_iff.mp hkept
  obtain ⟨bytes, hfile⟩ : ∃ bytes, world.file = some bytes := by
    cases hfile : world.file with
    | none =>
      rw [hfile] at hpres
      cases hpres
    | some bytes => exact ⟨bytes, rfl⟩
  have hscan := hsynced.scan_eq
  rw [hfile] at hscan hroom
  have hclean := RecoveryScan.hasBadTail_eq_false_iff.mp htail
  rw [hscan] at hclean
  obtain ⟨records, hord, hwrite, hdesc⟩ := exists_log_of_clean hlimits hclean
  rw [← hscan] at hdesc
  have hcnt := of_decide_eq_false hents
  have hbytes := of_decide_eq_false hroom
  have hfileLe := hlimits.file_le
  rw [recoveryMaxFileBytes] at hfileLe
  refine ⟨records, hfile.trans (congrArg some hwrite), hdesc, ?_, ?_⟩
  · constructor
    · rw [hdesc.entries_eq] at hcnt
      simp only [length_map, length_append, length_singleton]
      omega
    · rw [map_append, pairwise_append]
      refine ⟨hord.increasing, pairwise_singleton _ _, ?_⟩
      intro c hc c' hc'
      obtain rfl := mem_singleton.mp hc'
      obtain ⟨last, hlast⟩ : ∃ last,
          (records.map Subtype.val).getLast? = some last :=
        ⟨_, getLast?_eq_some_getLast (ne_nil_of_mem hc)⟩
      have hbelow := hord.sequence_le_last hlast c hc
      have hnext : plan.sequence = sequenceAfter last.sequence := by
        rw [hseq, hsynced.next_eq, nextSequenceOf, hdesc.latest_eq, hlast]
      have hlarger := sequenceAfter_toNat (hnext ▸ hnz)
      rw [← hnext] at hlarger
      apply UInt64.lt_of_le_of_lt hbelow
      rw [UInt64.lt_iff_toNat_lt, hlarger]
      exact Nat.lt_succ_self _
  · rw [write_append, ← hwrite, write_cons, write_nil, append_nil, length_append]
    have hlen : ((recordCode sha codec hlimits).encode fresh).length = plan.record.length := by
      rw [hrec]
      rfl
    rw [hlen]
    simp only [saturatingAddU64, u64Max, Option.elim_some] at hbytes
    omega

/-- What a file found after a crash or after a completed write scans to: the
old latest checkpoint with at least as many entries, or the fresh one. -/
inductive Recovers (before after : RecoveryScan Patch) (fresh : RecoveryCheckpoint Patch) : Prop
  | old (latest_eq : after.latest = before.latest)
      (entries_eq : after.validEntries = before.validEntries)
  | appended (latest_eq : after.latest = some fresh)
      (entries_eq : after.validEntries = before.validEntries + 1)
  | replaced (latest_eq : after.latest = some fresh)
      (entries_eq : after.validEntries = 1)

variable {hlimits : limits.Admissible} {world : JournalWorld Patch}
  {plan : AppendPlan} {fresh : AcceptedCheckpoint codec limits}

theorem PlanFacts.recovers_append (hfacts : PlanFacts codec hlimits sha world plan fresh)
    (hcompc : plan.compact = false) {bytes torn : Bytes} (hfile : world.file = some bytes)
    (htorn : torn <+: plan.record) :
    let after := scanPath sha codec limits (some (bytes ++ torn))
    (torn = plan.record → after.latest = some fresh.val ∧
      after.validEntries = world.journal.scan.validEntries + 1 ∧
      after.tailStatus = .clean) ∧
    (torn ≠ plan.record → after.latest = world.journal.scan.latest ∧
      after.validEntries = world.journal.scan.validEntries) := by
  intro after
  obtain ⟨records, hwrite, hdesc, hord, hsize⟩ := hfacts.append_path hcompc
  obtain rfl := Option.some.inj (hfile.symm.trans hwrite)
  have hrec : plan.record = recordBytes sha fresh.val.sequence fresh.val.payload := by
    rw [hfacts.record_eq, hfacts.fresh_sequence, hfacts.fresh_payload]
  have hlog : (recordCode sha codec hlimits).write (records ++ [fresh]) =
      (recordCode sha codec hlimits).write records ++ plan.record := by
    rw [write_append, write_cons, write_nil, append_nil, hrec]
    rfl
  constructor
  · rintro rfl
    obtain ⟨hafter, hclean⟩ := scanPath_of_log hord hsize
    rw [hlog] at hafter hclean
    refine ⟨?_, ?_, hclean⟩
    · rw [hafter.latest_eq, map_append, map_singleton, getLast?_concat]
    · rw [hafter.entries_eq, hdesc.entries_eq, length_append, length_singleton]
  · intro hne
    rw [hrec] at htorn hne
    have hshort : ((recordCode sha codec hlimits).write records ++
        torn).length ≤ limits.maxFileBytes := by
      rw [hlog, length_append, hrec] at hsize
      rw [length_append]
      exact (Nat.add_le_add_left htorn.length_le _).trans hsize
    have hold : OrderedLog codec limits records :=
      orderedLog_hereditary codec (prefix_append _ _) hord
    have hafter := scanPath_of_torn hold htorn hne hshort
    exact ⟨hafter.latest_eq.trans hdesc.latest_eq.symm,
      hafter.entries_eq.trans hdesc.entries_eq.symm⟩

theorem PlanFacts.recovers_replace (hfacts : PlanFacts codec hlimits sha world plan fresh) :
    let after := scanPath sha codec limits (some plan.record)
    after.latest = some fresh.val ∧ after.validEntries = 1 ∧ after.tailStatus = .clean := by
  have hafter := scanPath_of_single sha hlimits fresh.property
  rwa [hfacts.fresh_sequence, hfacts.fresh_payload, ← hfacts.record_eq]
    at hafter

section

variable (hsynced : Synced sha codec limits world)
  (hfacts : PlanFacts codec hlimits sha world plan fresh)
include hsynced hfacts

theorem PlanFacts.recovers_crash {crashed : Option Bytes}
    (hcrash : plan.write.CrashAt world.file crashed) :
    Recovers world.journal.scan (scanPath sha codec limits crashed) fresh.val ∧
      (plan.compact = false → world.journal.scan.validEntries ≤
        (scanPath sha codec limits crashed).validEntries) := by
  unfold AppendPlan.write at hcrash
  by_cases hcompc : plan.compact = true
  · rw [if_pos hcompc] at hcrash
    refine ⟨?_, fun hfalse => absurd (hcompc.symm.trans hfalse) nofun⟩
    cases hcrash with
    | before file =>
      rw [← hsynced.scan_eq]
      exact .old rfl rfl
    | after file =>
      obtain ⟨hlatest, hents, -⟩ := hfacts.recovers_replace
      exact .replaced hlatest hents
  · rw [if_neg hcompc] at hcrash
    have happ := Bool.eq_false_of_not_eq_true hcompc
    generalize hfile : world.file = file at hcrash
    cases hcrash with
    | torn htorn =>
      rename_i bytes torn
      obtain ⟨hwhole, hpartial⟩ := hfacts.recovers_append happ hfile htorn
      by_cases hall : torn = plan.record
      · obtain ⟨hlatest, hents, -⟩ := hwhole hall
        exact ⟨.appended hlatest hents, fun _ => hents ▸ le_succ _⟩
      · obtain ⟨hlatest, hents⟩ := hpartial hall
        exact ⟨.old hlatest hents, fun _ => hents ▸ le_refl _⟩

theorem PlanFacts.sequence_succ :
    fresh.val.sequence.toNat = world.journal.scan.latest.elim 0
      (fun c => c.sequence.toNat) + 1 := by
  have hseq : fresh.val.sequence = nextSequenceOf world.journal.scan := by
    rw [hfacts.fresh_sequence, hfacts.sequence_eq, hsynced.next_eq]
  rw [hseq]
  apply nextSequenceOf_toNat
  rw [← hseq]
  exact fresh.property.sequence_ne_zero

end

/-- Crash safety of `append_patch`: from any file content, every crash point of
a commit leaves a file whose latest checkpoint is the old one or the new one
with the next sequence, so no checkpoint is lost and none older comes back. -/
theorem appendPatch_crash_safe (sha : Sha256) (codec : PatchCodec Patch) {limits : RecoveryLimits}
    {file crashed : Option Bytes} {journal : RecoveryJournal Patch} {patch : Patch}
    (hopen : openWithLimits sha codec file limits = .ok journal)
    (hcrash : AppendCrash sha codec ⟨journal, file⟩ patch crashed) :
    let before := scanPath sha codec limits file
    let after := scanPath sha codec limits crashed
    (after.latest = before.latest ∨
      ∃ new, after.latest = some new ∧
        codec.toString patch = .ok new.payload ∧
        codec.fromSlice new.payload = .ok new.patch ∧
        new.sequence.toNat = before.latest.elim 0 (fun old => old.sequence.toNat) + 1) ∧
    (∀ old, before.latest = some old →
      ∃ new, after.latest = some new ∧ old.sequence ≤ new.sequence) ∧
    ∀ plan, planAppend sha codec ⟨journal, file⟩ patch = .ok plan →
      plan.compact = false → before.validEntries ≤ after.validEntries := by
  intro before after
  have hsynced := synced_of_open hopen
  have hadmissible := (openWithLimits_eq_ok_iff.mp hopen).1
  have hbefore : journal.scan = before := hsynced.scan_eq
  unfold AppendCrash at hcrash
  cases hplan : planAppend sha codec ⟨journal, file⟩ patch with
  | error e =>
    rw [hplan] at hcrash
    obtain rfl : crashed = file := hcrash
    refine ⟨.inl rfl, ?_, nofun⟩
    intro old hold
    exact ⟨old, hold, UInt64.le_refl _⟩
  | ok plan =>
    rw [hplan] at hcrash
    obtain ⟨fresh, hfacts⟩ := hsynced.exists_planFacts hadmissible hplan
    obtain ⟨hrecovers, hentries⟩ := hfacts.recovers_crash hsynced hcrash
    have hsucc := hfacts.sequence_succ hsynced
    have htext := (planAppend_eq_ok_iff.mp hplan).2.2.1
    simp only [hbefore] at hrecovers hentries hsucc
    have hlatest : after.latest = before.latest ∨ after.latest = some fresh.val := by
      cases hrecovers with
      | old h => exact .inl h
      | appended h | replaced h => exact .inr h
    refine ⟨?_, ?_, ?_⟩
    · rcases hlatest with hold | hnew
      · exact .inl hold
      · refine .inr ⟨fresh.val, hnew, ?_, fresh.property.parses, hsucc⟩
        rw [hfacts.fresh_payload]
        exact htext
    · intro old hold
      rcases hlatest with hsame | hnew
      · exact ⟨old, hsame.trans hold, UInt64.le_refl _⟩
      · refine ⟨fresh.val, hnew, ?_⟩
        rw [hold, Option.elim_some] at hsucc
        rw [UInt64.le_iff_toNat_le, hsucc]
        exact le_succ _
    · intro plan' hplan'
      cases hplan'
      exact hentries

/-- A second commit of the smallest document that crashed in the middle of its
record leaves a checkpoint. -/
theorem appendPatch_crash_safe_torn :
    let file := recordBytes documentSha 1 minimalDocument
    let torn := (recordBytes documentSha 2 minimalDocument).take 30
    ∃ new : RecoveryCheckpoint Bytes,
      (scanPath documentSha documentCodec default
        (some (file ++ torn))).latest = some new ∧ 1 ≤ new.sequence := by
  intro file torn
  have hold : Acceptable documentCodec default ⟨1, minimalDocument, minimalDocument⟩ :=
    ⟨by decide, by decide, by rfl⟩
  obtain ⟨hlatest, hentries, hclean⟩ := scanPath_of_single documentSha default_admissible hold
  obtain ⟨journal, hopen, hscan, hlimits⟩ : ∃ journal,
      openWithLimits documentSha documentCodec (some file) default = .ok journal ∧
      journal.scan = scanPath documentSha documentCodec default
        (some file) ∧ journal.limits = RecoveryLimits.default :=
    ⟨_, openWithLimits_eq_ok_iff.mpr ⟨RecoveryLimits.default_admissible, rfl⟩, rfl, rfl⟩
  have hnext : journal.nextSequence = 2 := by
    rw [(synced_of_open hopen).next_eq, hscan, nextSequenceOf, hlatest]
    rfl
  have hplan : planAppend documentSha documentCodec ⟨journal, some file⟩
      minimalDocument = .ok
        { sequence := 2
          payload := minimalDocument
          record := recordBytes documentSha 2 minimalDocument
          compact := false } := by
    refine planAppend_eq_ok_iff.mpr ⟨?_, hnext.symm, rfl, ?_, ⟨minimalDocument, by rfl⟩, ?_, ?_⟩
    · simp only [hnext]
      decide
    · simp only [hlimits]
      rfl
    · simp only [hnext]
      rfl
    · simp only [hscan, hlimits]
      rw [hentries, RecoveryScan.hasBadTail_eq_false_iff.mpr hclean]
      rfl
  have hcrash : AppendCrash documentSha documentCodec ⟨journal, some file⟩
      minimalDocument (some (file ++ torn)) := by
    unfold AppendCrash
    rw [hplan]
    exact .torn ( take_prefix 30 _)
  exact (appendPatch_crash_safe documentSha documentCodec hopen hcrash).2.1 _ hlatest

end CollideOScope.Recovery

/-!
## Runs of journal calls

Without I/O faults and without another writer, a journal that was opened on any
file is driven by `append_patch`, `compact_to_latest`, `discard` and `rescan`
in any order.
-/

namespace CollideOScope.Recovery

variable {Patch : Type}

inductive JournalCall (Patch : Type) where
  | appendPatch (patch : Patch)
  | compactToLatest | discard | rescan

def journalMachine (sha : Sha256) (codec : PatchCodec Patch)
    (limits : RecoveryLimits) (file : Option Bytes) :
    Machine (JournalWorld Patch) (JournalCall Patch) where
  start world := openWithLimits sha codec file limits = .ok world.journal ∧ world.file = file
  step world
    | .appendPatch patch => some (appendPatch sha codec world patch).2
    | .compactToLatest => some (compactToLatest sha codec world).2
    | .discard => some (discard world)
    | .rescan => some (rescan sha codec world)

/-- The sequences acknowledged since the last discard, newest first. -/
def acknowledge (sha : Sha256) (codec : PatchCodec Patch)
    (acknowledged : List UInt64) (world : JournalWorld Patch) :
    JournalCall Patch → List UInt64
  | .appendPatch patch =>
    match (appendPatch sha codec world patch).1 with
    | .ok receipt => receipt.sequence :: acknowledged
    | .error _ => acknowledged
  | .compactToLatest => acknowledged
  | .discard => []
  | .rescan => acknowledged

/-- The machine with the acknowledged sequences as history. -/
def journalRuns (sha : Sha256) (codec : PatchCodec Patch)
    (limits : RecoveryLimits) (file : Option Bytes) :
    Machine (JournalWorld Patch × List UInt64) (JournalCall Patch) :=
  (journalMachine sha codec limits file).observe []
    fun acknowledged world call _ => acknowledge sha codec acknowledged world call

variable {sha : Sha256} {codec : PatchCodec Patch} {limits : RecoveryLimits}
  {world : JournalWorld Patch} {plan : AppendPlan}

theorem bounds_of_clean (hlimits : limits.Admissible) {bytes : Bytes}
    (hclean : (scanPath sha codec limits (some bytes)).tailStatus = .clean) :
    (scanPath sha codec limits (some bytes)).validEntries ≤ limits.maxEntries ∧
      bytes.length ≤ limits.maxFileBytes := by
  obtain ⟨records, hord, -, hdesc⟩ := exists_log_of_clean hlimits hclean
  constructor
  · have hcnt := hord.count_le
    rwa [List.length_map, ← hdesc.entries_eq] at hcnt
  · by_contra hlarge
    obtain ⟨_, -, -, hiff⟩ := scanBytes_describes sha codec hlimits
      (decide (bytes.length > limits.maxFileBytes))
      (bytes.take (limits.maxFileBytes + 1))
    have hsmall := (hiff.mp hclean).1
    exact of_decide_eq_false hsmall (not_le.mp hlarge)

structure Published (sha : Sha256) (codec : PatchCodec Patch) (limits : RecoveryLimits)
    (receipt : JournalAppendReceipt) (world : JournalWorld Patch) : Prop
    extends Synced sha codec limits world where
  latest : ∃ checkpoint, world.journal.scan.latest = some checkpoint ∧
    checkpoint.sequence = receipt.sequence
  clean : world.journal.scan.tailStatus = .clean
  present : ∃ bytes, world.file = some bytes

theorem PlanFacts.scan_applied {hlimits : limits.Admissible}
    {fresh : AcceptedCheckpoint codec limits}
    (hfacts : PlanFacts codec hlimits sha world plan fresh) :
    ∃ bytes, plan.write.apply world.file = some bytes ∧
      (scanPath sha codec limits (some bytes)).latest = some fresh.val ∧
      (scanPath sha codec limits (some bytes)).tailStatus = .clean := by
  unfold AppendPlan.write
  by_cases hcompc : plan.compact = true
  · obtain ⟨hlatest, -, hclean⟩ := hfacts.recovers_replace
    rw [if_pos hcompc]
    exact ⟨plan.record, rfl, hlatest, hclean⟩
  · have happ := Bool.eq_false_of_not_eq_true hcompc
    obtain ⟨records, hfile, -⟩ := hfacts.append_path happ
    obtain ⟨hwhole, -⟩ := hfacts.recovers_append happ hfile (List.prefix_refl plan.record)
    obtain ⟨hlatest, -, hclean⟩ := hwhole rfl
    rw [if_neg hcompc, hfile]
    exact ⟨_, rfl, hlatest, hclean⟩

/-- A planned commit is always verified: `append_patch` publishes it. -/
theorem Synced.appendPatch_of_plan (hlimits : limits.Admissible)
    (hsynced : Synced sha codec limits world) {patch : Patch}
    (hplan : planAppend sha codec world patch = .ok plan) :
    ∃ receipt next, appendPatch sha codec world patch = (.ok receipt, next) ∧
      receipt.sequence = plan.sequence ∧
      Published sha codec limits receipt next := by
  obtain ⟨fresh, hfacts⟩ := hsynced.exists_planFacts hlimits hplan
  obtain ⟨bytes, hfile, hlatest, hclean⟩ := hfacts.scan_applied
  have hacc : ((scanPath sha codec limits (some bytes)).latest.any
      (·.sequence = plan.sequence) &&
        !(scanPath sha codec limits (some bytes)).hasBadTail) = true := by
    rw [hlatest, RecoveryScan.hasBadTail_eq_false_iff.mpr hclean,
      Option.any_some, hfacts.fresh_sequence]
    simp
  unfold appendPatch
  simp only [hplan, hfile, hsynced.limits_eq, hacc, if_true]
  refine ⟨_, _, rfl, rfl, ⟨⟨rfl, rfl, ?_⟩, ?_, hclean, ⟨_, rfl⟩⟩⟩
  · simp only [nextSequenceOf, hlatest, hfacts.fresh_sequence]
  · exact ⟨fresh.val, hlatest, hfacts.fresh_sequence⟩

theorem Synced.lt_plan_sequence (hsynced : Synced sha codec limits world) {patch : Patch}
    (hplan : planAppend sha codec world patch = .ok plan) {checkpoint : RecoveryCheckpoint Patch}
    (hlatest : world.journal.scan.latest = some checkpoint) :
    checkpoint.sequence < plan.sequence := by
  obtain ⟨hnz, hseq, -⟩ := planAppend_eq_ok_iff.mp hplan
  rw [hsynced.next_eq] at hnz hseq
  have hsucc := nextSequenceOf_toNat hnz
  rw [hlatest, Option.elim_some, ← hseq] at hsucc
  rw [UInt64.lt_iff_toNat_lt, hsucc]
  exact Nat.lt_succ_self _

theorem scanPath_nil : scanPath sha codec limits (some []) = RecoveryScan.default := by
  have hsmall : decide ((0 : ℕ) > limits.maxFileBytes) = false := by simp
  simp only [scanPath, List.length_nil, hsmall, List.take_nil, scanBytes]
  rw [scanLoop]
  simp

theorem synced_rescan (hsynced : Synced sha codec limits world) :
    Synced sha codec limits (rescan sha codec world) ∧
      (rescan sha codec world).journal.scan = world.journal.scan := by
  have hscan : (rescan sha codec world).journal.scan = world.journal.scan := by
    rw [hsynced.scan_eq, ← hsynced.limits_eq]
    rfl
  refine ⟨⟨hsynced.limits_eq, ?_, rfl⟩, hscan⟩
  rw [hscan]
  exact hsynced.scan_eq

theorem synced_discard (hsynced : Synced sha codec limits world) :
    Synced sha codec limits (discard world) where
  limits_eq := hsynced.limits_eq
  scan_eq := scanPath_nil.symm
  next_eq := rfl

theorem synced_compactToLatest (hlimits : limits.Admissible)
    (hsynced : Synced sha codec limits world) :
    Synced sha codec limits (compactToLatest sha codec world).2 ∧
      (compactToLatest sha codec world).2.journal.scan.latest = world.journal.scan.latest := by
  unfold compactToLatest
  cases hlatest : world.journal.scan.latest with
  | none =>
    simp only [FileWrite.apply]
    refine ⟨⟨hsynced.limits_eq, ?_, rfl⟩, ?_⟩
    · simp only [rescan, hsynced.limits_eq]
    · simp only [rescan, scanPath_nil, RecoveryScan.default]
  | some checkpoint =>
    have hacc : Acceptable codec limits checkpoint := by
      rw [hsynced.scan_eq] at hlatest
      exact acceptable_of_latest hlimits hlatest
    have henc : encodeRecord sha checkpoint.sequence checkpoint.payload =
        .ok (recordBytes sha checkpoint.sequence checkpoint.payload) :=
      (encodeRecord_eq_ok_iff sha).mpr ⟨hacc.sequence_ne_zero,
        hlimits.payload_lt_u32 hacc.payload_le, rfl⟩
    obtain ⟨hsame, -, -⟩ := scanPath_of_single sha hlimits hacc
    simp only [henc, FileWrite.apply]
    refine ⟨⟨hsynced.limits_eq, ?_, rfl⟩, ?_⟩
    · simp only [rescan, hsynced.limits_eq]
    · simp only [rescan, hsynced.limits_eq, hsame]

structure RunInvariant (sha : Sha256) (codec : PatchCodec Patch) (limits : RecoveryLimits)
    (world : JournalWorld Patch) (acknowledged : List UInt64) : Prop
    extends Synced sha codec limits world where
  admissible : limits.Admissible
  below : ∀ a ∈ acknowledged, ∃ checkpoint,
    world.journal.scan.latest = some checkpoint ∧ a ≤ checkpoint.sequence

variable {acknowledged : List UInt64}

theorem RunInvariant.appendPatch
    (hinv : RunInvariant sha codec limits world acknowledged) (patch : Patch) :
    RunInvariant sha codec limits (appendPatch sha codec world patch).2
      (acknowledge sha codec acknowledged world (.appendPatch patch)) := by
  cases hplan : planAppend sha codec world patch with
  | error e =>
    have hsame : Recovery.appendPatch sha codec world patch = (.error e, world) := by
      unfold Recovery.appendPatch
      rw [hplan]
    simp only [acknowledge, hsame]
    exact hinv
  | ok plan =>
    obtain ⟨receipt, next, happ, hseq, hpub⟩ :=
      hinv.toSynced.appendPatch_of_plan hinv.admissible hplan
    obtain ⟨checkpoint, hlatest, hcheckpoint⟩ := hpub.latest
    simp only [acknowledge, happ]
    refine ⟨hpub.toSynced, hinv.admissible, ?_⟩
    intro a ha
    refine ⟨checkpoint, hlatest, ?_⟩
    rw [hcheckpoint, hseq]
    rcases List.mem_cons.mp ha with rfl | hold
    · rw [hseq]
      exact UInt64.le_refl _
    · obtain ⟨old, holdLatest, hle⟩ := hinv.below a hold
      have hlt := hinv.toSynced.lt_plan_sequence hplan holdLatest
      exact UInt64.le_of_lt (UInt64.lt_of_le_of_lt hle hlt)

theorem RunInvariant.call {file : Option Bytes} {call : JournalCall Patch}
    {next : JournalWorld Patch} (hinv : RunInvariant sha codec limits world acknowledged)
    (hworld : (journalMachine sha codec limits file).step world call = some next) :
    RunInvariant sha codec limits next (acknowledge sha codec acknowledged world call) := by
  cases call with
  | appendPatch patch =>
    cases hworld
    exact hinv.appendPatch patch
  | compactToLatest =>
    cases hworld
    obtain ⟨hsynced, hlatest⟩ := synced_compactToLatest hinv.admissible hinv.toSynced
    refine ⟨hsynced, hinv.admissible, ?_⟩
    rw [hlatest]
    exact hinv.below
  | discard =>
    cases hworld
    exact ⟨synced_discard hinv.toSynced, hinv.admissible, nofun⟩
  | rescan =>
    cases hworld
    obtain ⟨hsynced, hscan⟩ := synced_rescan hinv.toSynced
    refine ⟨hsynced, hinv.admissible, ?_⟩
    rw [hscan]
    exact hinv.below

theorem runInvariant_of_open {file : Option Bytes} {journal : RecoveryJournal Patch}
    (hopen : openWithLimits sha codec file limits = .ok journal) :
    RunInvariant sha codec limits ⟨journal, file⟩ [] :=
  ⟨synced_of_open hopen, (openWithLimits_eq_ok_iff.mp hopen).1, nofun⟩

theorem runInvariant_of_reachable {file : Option Bytes}
    (h : (journalRuns sha codec limits file).Reachable (world, acknowledged)) :
    RunInvariant sha codec limits world acknowledged := by
  have hall := h.invariant (P := fun p => RunInvariant sha codec limits p.1 p.2) ?_ ?_
  · exact hall
  · rintro ⟨world, acknowledged⟩ ⟨⟨hopen, rfl⟩, hfst⟩
    obtain rfl : acknowledged = [] := hfst
    exact runInvariant_of_open hopen
  · rintro ⟨world, acknowledged⟩ call ⟨next, acknowledged'⟩ hinv hstep
    obtain ⟨hworld, hhist⟩ := Machine.observe_step_eq_some.mp hstep
    simp only at hworld hhist hinv
    subst hhist
    exact hinv.call hworld

/-- In every run, a commit with an admissible payload and an unexhausted
sequence succeeds, stays within the caps and acknowledges a fresh sequence. -/
theorem appendPatch_ok_of_reachable {file : Option Bytes}
    (h : (journalRuns sha codec limits file).Reachable (world, acknowledged)) {patch parsed : Patch}
    {payload : Bytes} (htext : codec.toString patch = .ok payload)
    (hvalid : validatePayload world.journal.limits payload = .ok ())
    (hparse : codec.fromSlice payload = .ok parsed) (hnext : world.journal.nextSequence ≠ 0) :
    ∃ receipt next bytes,
      appendPatch sha codec world patch = (.ok receipt, next) ∧
      next.file = some bytes ∧
      (scanPath sha codec limits next.file).tailStatus = .clean ∧
      (scanPath sha codec limits next.file).validEntries ≤ limits.maxEntries ∧
      bytes.length ≤ limits.maxFileBytes ∧
      ∀ a ∈ acknowledged, a < receipt.sequence := by
  have hinv := runInvariant_of_reachable h
  have hpayload := (validatePayload_eq_ok_iff.mp hvalid).1
  rw [hinv.limits_eq] at hpayload
  have hencode : encodeRecord sha world.journal.nextSequence payload =
      .ok (recordBytes sha world.journal.nextSequence payload) :=
    (encodeRecord_eq_ok_iff sha).mpr ⟨hnext, hinv.admissible.payload_lt_u32 hpayload, rfl⟩
  obtain ⟨plan, hplan, -⟩ := exists_planAppend_eq_ok hnext htext hvalid hparse hencode
  obtain ⟨receipt, next, happend, hsequence, hpublished⟩ :=
    hinv.toSynced.appendPatch_of_plan hinv.admissible hplan
  obtain ⟨bytes, hfile⟩ := hpublished.present
  have hclean : (scanPath sha codec limits next.file).tailStatus = .clean := by
    rw [← hpublished.scan_eq]
    exact hpublished.clean
  have hbounds := bounds_of_clean hinv.admissible (hfile ▸ hclean)
  refine ⟨receipt, next, bytes, happend, hfile, hclean, ?_, hbounds.2, ?_⟩
  · rw [hfile]
    exact hbounds.1
  · intro a ha
    obtain ⟨checkpoint, hlatest, hle⟩ := hinv.below a ha
    rw [hsequence]
    exact UInt64.lt_of_le_of_lt hle (hinv.toSynced.lt_plan_sequence hplan hlatest)

/-- On a missing file, a second commit of the smallest document succeeds and
acknowledges a sequence above the first one. -/
theorem appendPatch_ok_of_reachable_minimalDocument :
    ∃ (world : JournalWorld Bytes) (receipt : JournalAppendReceipt)
      (next : JournalWorld Bytes) (bytes : Bytes),
      (journalRuns documentSha documentCodec RecoveryLimits.default none).Reachable (world, [1]) ∧
      appendPatch documentSha documentCodec world minimalDocument = (.ok receipt, next) ∧
      next.file = some bytes ∧ bytes.length ≤ recoveryMaxFileBytes ∧
      1 < receipt.sequence := by
  let first : JournalWorld Bytes := ⟨⟨RecoveryLimits.default, RecoveryScan.default, 1⟩, none⟩
  let runs := journalRuns documentSha documentCodec RecoveryLimits.default none
  have hopen : openWithLimits documentSha documentCodec none
      RecoveryLimits.default = .ok first.journal :=
    openWithLimits_eq_ok_iff.mpr ⟨RecoveryLimits.default_admissible, rfl⟩
  have hvalid : validatePayload RecoveryLimits.default minimalDocument = .ok () := by rfl
  obtain ⟨plan, hplan, hsequence⟩ : ∃ plan,
      planAppend documentSha documentCodec first minimalDocument = .ok plan ∧
      plan.sequence = 1 :=
    exists_planAppend_eq_ok (by decide) rfl hvalid (by rfl) (by rfl)
  have hsynced : Synced documentSha documentCodec RecoveryLimits.default
      first := synced_of_open hopen
  obtain ⟨receipt, world, happend, hreceipt, hpublished⟩ :=
    hsynced.appendPatch_of_plan RecoveryLimits.default_admissible hplan
  rw [hsequence] at hreceipt
  have hnext : world.journal.nextSequence = 2 := by
    obtain ⟨checkpoint, hlatest, hcheckpoint⟩ := hpublished.latest
    rw [hpublished.next_eq, nextSequenceOf, hlatest]
    simp only [hcheckpoint, hreceipt]
    rfl
  have hreach : runs.Reachable (world, [1]) := by
    have hstart : runs.start (first, []) := ⟨⟨hopen, rfl⟩, rfl⟩
    refine ⟨_, hstart, (Machine.Run.refl _).tail (e := .appendPatch minimalDocument) trivial ?_⟩
    apply Machine.observe_step_eq_some.mpr
    simp [journalMachine, acknowledge, happend, hreceipt]
  have hworld : validatePayload world.journal.limits minimalDocument = .ok () := by
    rw [hpublished.limits_eq]
    exact hvalid
  obtain ⟨receipt', next, bytes, happend', hfile, -, -, hsize, habove⟩ :=
    appendPatch_ok_of_reachable hreach rfl hworld (by rfl) (by rw [hnext]; decide)
  exact ⟨world, receipt', next, bytes, hreach, happend', hfile, hsize,
    habove 1 (List.mem_singleton_self 1)⟩

/-- The files that are left when the process dies, in a commit or outside. -/
def LeftBehind (sha : Sha256) (codec : PatchCodec Patch) (world : JournalWorld Patch)
    (file : Option Bytes) : Prop :=
  file = world.file ∨ ∃ patch, AppendCrash sha codec world patch file

/-- A journal after calls and crashes, each crash followed by an opening of
the file that it left, with the sequences acknowledged since the last discard. -/
inductive Session (sha : Sha256) (codec : PatchCodec Patch) (limits : RecoveryLimits) :
    JournalWorld Patch → List UInt64 → Prop
  | opened {file journal} (h : openWithLimits sha codec file limits = .ok journal) :
      Session sha codec limits ⟨journal, file⟩ []
  | called {world acknowledged call next} (h : Session sha codec limits world acknowledged)
      (hstep : (journalMachine sha codec limits none).step world call = some next) :
      Session sha codec limits next (acknowledge sha codec acknowledged world call)
  | crashed {world acknowledged file journal} (h : Session sha codec limits world acknowledged)
      (hleft : LeftBehind sha codec world file)
      (hopen : openWithLimits sha codec file limits = .ok journal) :
      Session sha codec limits ⟨journal, file⟩ acknowledged

theorem RunInvariant.crash {file : Option Bytes} {journal : RecoveryJournal Patch}
    (hinv : RunInvariant sha codec limits world acknowledged)
    (hleft : LeftBehind sha codec world file)
    (hopen : openWithLimits sha codec file limits = .ok journal) :
    RunInvariant sha codec limits ⟨journal, file⟩ acknowledged := by
  have hsynced := synced_of_open hopen
  refine ⟨hsynced, hinv.admissible, fun a ha => ?_⟩
  obtain ⟨old, hold, hle⟩ := hinv.below a ha
  have hsame (h : file = world.file) : journal.scan.latest = some old := by
    rw [hsynced.scan_eq, ← hold, hinv.scan_eq, h]
  obtain hfile | ⟨patch, hcrash⟩ := hleft
  · exact ⟨old, hsame hfile, hle⟩
  unfold AppendCrash at hcrash
  cases hplan : planAppend sha codec world patch with
  | error e =>
    rw [hplan] at hcrash
    exact ⟨old, hsame hcrash, hle⟩
  | ok plan =>
    rw [hplan] at hcrash
    obtain ⟨fresh, hfacts⟩ := hinv.toSynced.exists_planFacts hinv.admissible hplan
    have hlt := hinv.toSynced.lt_plan_sequence hplan hold
    rw [← hfacts.fresh_sequence] at hlt
    have hscan := hsynced.scan_eq
    cases (hfacts.recovers_crash hinv.toSynced hcrash).1 with
    | old h => exact ⟨old, by rw [hscan, h, hold], hle⟩
    | appended h | replaced h =>
      exact ⟨fresh.val, by rw [hscan, h], UInt64.le_of_lt (UInt64.lt_of_le_of_lt hle hlt)⟩

theorem runInvariant_of_session (h : Session sha codec limits world acknowledged) :
    RunInvariant sha codec limits world acknowledged := by
  induction h with
  | opened hopen => exact runInvariant_of_open hopen
  | called _ hstep ih => exact ih.call hstep
  | crashed _ hleft hopen ih => exact ih.crash hleft hopen

/-- Through any calls and crashes, what was acknowledged is at or below the
checkpoint that a scan of the file finds, and no sequence is acknowledged twice. -/
theorem acknowledged_survives (h : Session sha codec limits world acknowledged) :
    (∀ a ∈ acknowledged, ∃ checkpoint,
      (scanPath sha codec limits world.file).latest = some checkpoint ∧ a ≤ checkpoint.sequence) ∧
    ∀ patch receipt next, appendPatch sha codec world patch = (.ok receipt, next) →
      (∀ a ∈ acknowledged, a < receipt.sequence) ∧ ∃ checkpoint,
        (scanPath sha codec limits next.file).latest = some checkpoint ∧
          checkpoint.sequence = receipt.sequence := by
  have hinv := runInvariant_of_session h
  refine ⟨fun a ha => hinv.scan_eq ▸ hinv.below a ha, ?_⟩
  intro patch receipt next happend
  cases hplan : planAppend sha codec world patch with
  | error e =>
    rw [appendPatch, hplan] at happend
    cases happend
  | ok plan =>
    obtain ⟨receipt', next', happend', hsequence, hpublished⟩ :=
      hinv.toSynced.appendPatch_of_plan hinv.admissible hplan
    obtain ⟨rfl, rfl⟩ : receipt' = receipt ∧ next' = next := by simpa [happend] using happend'.symm
    refine ⟨fun a ha => ?_, hpublished.scan_eq ▸ hpublished.latest⟩
    obtain ⟨checkpoint, hlatest, hle⟩ := hinv.below a ha
    rw [hsequence]
    exact UInt64.lt_of_le_of_lt hle (hinv.toSynced.lt_plan_sequence hplan hlatest)

/-- The process dies after the first commit of the smallest document. -/
theorem acknowledged_survives_minimalDocument :
    ∃ world : JournalWorld Bytes, Session documentSha documentCodec .default world [1] ∧
      ∃ checkpoint, (scanPath documentSha documentCodec .default world.file).latest =
        some checkpoint ∧ 1 ≤ checkpoint.sequence := by
  have hopen (file : Option Bytes) : ∃ journal,
      openWithLimits documentSha documentCodec file .default = .ok journal :=
    ⟨_, openWithLimits_eq_ok_iff.mpr ⟨RecoveryLimits.default_admissible, rfl⟩⟩
  let first : JournalWorld Bytes := ⟨⟨.default, .default, 1⟩, none⟩
  have hfirst : openWithLimits documentSha documentCodec first.file .default = .ok first.journal :=
    openWithLimits_eq_ok_iff.mpr ⟨RecoveryLimits.default_admissible, rfl⟩
  obtain ⟨plan, hplan, hsequence⟩ : ∃ plan,
      planAppend documentSha documentCodec first minimalDocument = .ok plan ∧ plan.sequence = 1 :=
    exists_planAppend_eq_ok (by decide) rfl (by rfl) (by rfl) (by rfl)
  obtain ⟨receipt, next, happend, hreceipt, -⟩ :=
    (synced_of_open hfirst).appendPatch_of_plan RecoveryLimits.default_admissible hplan
  obtain ⟨journal, hreopen⟩ := hopen next.file
  have hstep : (journalMachine documentSha documentCodec .default none).step first
      (.appendPatch minimalDocument) = some next := by simp [journalMachine, happend]
  have hcalled := (Session.opened hfirst).called hstep
  have hsession : Session documentSha documentCodec .default ⟨journal, next.file⟩ [1] := by
    refine .crashed ?_ (.inl rfl) hreopen
    simpa [acknowledge, happend, hreceipt, hsequence] using hcalled
  exact ⟨_, hsession, (acknowledged_survives hsession).1 1 (by simp)⟩

end CollideOScope.Recovery
