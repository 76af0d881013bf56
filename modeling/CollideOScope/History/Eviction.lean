import CollideOScope.History.Timeline

/-!
# What eviction takes

Both eviction loops drop the oldest entries: the front of the undo stack, and
the front of the redo stack once the undo stack is empty.  They stop at the
least number of dropped entries that fits.
-/

namespace CollideOScope.History

open ManualHistory Machine List Nat

variable {T : Type}

structure ExactTotals (history : ManualHistory T) : Prop where
  undoBytes_eq : history.undoBytes = stackBytes history.undo
  redoBytes_eq : history.redoBytes = stackBytes history.redo

/-- The history without its `count` oldest entries. -/
def ManualHistory.dropOldest (history : ManualHistory T) (count : ℕ) : ManualHistory T :=
  { history with
    undo := history.undo.drop count
    undoBytes := stackBytes (history.undo.drop count)
    redo := history.redo.drop (count - history.undo.length)
    redoBytes := stackBytes (history.redo.drop (count - history.undo.length)) }

/-- The stacks leave room for more entries of the given number and size. -/
def ManualHistory.Fits (history : ManualHistory T) (entries bytes : ℕ) : Prop :=
  history.undo.length + history.redo.length + entries ≤ history.limits.maxEntries ∧
    stackBytes history.undo + stackBytes history.redo + bytes ≤ history.limits.maxBytes

instance (history : ManualHistory T) (entries bytes : ℕ) : Decidable (history.Fits entries bytes) :=
  inferInstanceAs (Decidable (_ ∧ _))

variable {history : ManualHistory T}

theorem exactTotals_dropOldest (count : ℕ) : ExactTotals (history.dropOldest count) := ⟨rfl, rfl⟩

theorem ExactTotals.dropOldest_zero (h : ExactTotals history) : history.dropOldest 0 = history := by
  have hundo := h.undoBytes_eq
  have hredo := h.redoBytes_eq
  unfold dropOldest
  rw [Nat.zero_sub, drop_zero, drop_zero, ← hundo, ← hredo]

variable {removed : HistoryCheckpoint T}

theorem dropOldest_undo_cons {undo : List (HistoryCheckpoint T)}
    (hundo : history.undo = removed :: undo) (bytes count : ℕ) :
    { history with undo := undo, undoBytes := bytes }.dropOldest count =
      history.dropOldest (count + 1) := by
  simp [dropOldest, hundo]

theorem dropOldest_redo_cons {redo : List (HistoryCheckpoint T)} (hundo : history.undo = [])
    (hredo : history.redo = removed :: redo) (bytes count : ℕ) :
    { history with redo := redo, redoBytes := bytes }.dropOldest count =
      history.dropOldest (count + 1) := by
  simp [dropOldest, hundo, hredo]

variable {m n : ℕ}

theorem stackBytes_drop_le (stack : List (HistoryCheckpoint T)) (h : m ≤ n) :
    stackBytes (stack.drop n) ≤ stackBytes (stack.drop m) := by
  obtain ⟨extra, rfl⟩ := Nat.exists_eq_add_of_le h
  rw [← drop_drop]
  have hsplit : stackBytes (stack.drop m) =
      stackBytes ((stack.drop m).take extra) + stackBytes ((stack.drop m).drop extra) := by
    unfold stackBytes
    rw [← sum_append_nat, ← map_append, take_append_drop]
  omega

variable {entries bytes : ℕ}

theorem fits_dropOldest_mono (h : m ≤ n) (hfits : (history.dropOldest m).Fits entries bytes) :
    (history.dropOldest n).Fits entries bytes := by
  obtain ⟨hents, hbytes⟩ := hfits
  have hundo := stackBytes_drop_le history.undo h
  have hredo := stackBytes_drop_le history.redo (Nat.sub_le_sub_right h history.undo.length)
  simp only [dropOldest, length_drop] at hents hbytes
  refine ⟨?_, ?_⟩
  · simp only [dropOldest, length_drop]
    omega
  · simp only [dropOldest]
    omega

theorem fits_dropOldest_all (hents : entries ≤ history.limits.maxEntries)
    (hbytes : bytes ≤ history.limits.maxBytes) :
    (history.dropOldest (history.undo.length + history.redo.length)).Fits entries bytes := by
  have hundo : history.undo.drop (history.undo.length + history.redo.length) = [] :=
    drop_eq_nil_of_le (le_add_right _ _)
  have hredo : history.redo.drop
      (history.undo.length + history.redo.length - history.undo.length) = [] :=
    drop_eq_nil_of_le (by omega)
  simp only [dropOldest, hundo, hredo]
  refine ⟨?_, ?_⟩
  · simpa using hents
  · simpa [stackBytes] using hbytes

theorem isLeast_succ {p : ℕ → Prop} (hzero : ¬p 0) {count : ℕ}
    (h : IsLeast {n | p (n + 1)} count) : IsLeast {n | p n} (count + 1) := by
  obtain ⟨hholds, hleast⟩ := h
  refine ⟨hholds, ?_⟩
  intro other hother
  cases other with
  | zero => exact absurd hother hzero
  | succ other => exact succ_le_succ (hleast hother)

variable {exceeds : ManualHistory T → Bool} {p : ManualHistory T → Prop}

section

variable (h : ExactTotals history)
include h

theorem ExactTotals.not_bound
    (hexc : exceeds (history.dropOldest 0) = false ↔ p (history.dropOldest 0))
    (hover : exceeds history = true) : ¬p (history.dropOldest 0) := by
  intro hmeets
  have hwith := hexc.mpr hmeets
  rw [h.dropOldest_zero, hover] at hwith
  cases hwith

theorem evictWhile_isLeast
    (hexc : ∀ count, exceeds (history.dropOldest count) = false ↔ p (history.dropOldest count))
    (hall : p (history.dropOldest (history.undo.length + history.redo.length))) :
    ∃ count, evictWhile exceeds history = history.dropOldest count ∧
      IsLeast {count | p (history.dropOldest count)} count := by
  fun_induction evictWhile exceeds history with
  | case1 history hover removed undo hundo ih =>
    have hbytes := h.undoBytes_eq
    rw [hundo, stackBytes_cons] at hbytes
    have hrest : history.undoBytes - removed.bytes = stackBytes undo := by
      rw [hbytes, Nat.add_sub_cancel_left]
    have hlen : history.undo.length + history.redo.length =
        undo.length + history.redo.length + 1 := by
      rw [hundo, length_cons, add_right_comm]
    rw [hlen] at hall
    have hstep := dropOldest_undo_cons hundo (history.undoBytes - removed.bytes)
    simp only [hstep] at ih
    obtain ⟨count, hevict, hcnt⟩ := ih ⟨hrest, h.redoBytes_eq⟩ (fun count => hexc (count + 1)) hall
    exact ⟨count + 1, hevict, isLeast_succ (h.not_bound (hexc 0) hover) hcnt⟩
  | case2 history hover hundo removed redo hredo ih =>
    have hbytes := h.redoBytes_eq
    rw [hredo, stackBytes_cons] at hbytes
    have hrest : history.redoBytes - removed.bytes = stackBytes redo := by
      rw [hbytes, Nat.add_sub_cancel_left]
    have hlen : history.undo.length + history.redo.length =
        history.undo.length + redo.length + 1 := by
      rw [hredo, length_cons, add_assoc]
    rw [hlen] at hall
    have hstep := dropOldest_redo_cons hundo hredo (history.redoBytes - removed.bytes)
    simp only [hstep] at ih
    obtain ⟨count, hevict, hcnt⟩ := ih ⟨h.undoBytes_eq, hrest⟩ (fun count => hexc (count + 1)) hall
    exact ⟨count + 1, hevict, isLeast_succ (h.not_bound (hexc 0) hover) hcnt⟩
  | case3 history hover hundo hredo =>
    rw [hundo, hredo] at hall
    exact absurd hall (h.not_bound (hexc 0) hover)
  | case4 history hwith =>
    refine ⟨0, h.dropOldest_zero.symm, ?_, fun _ _ => zero_le _⟩
    rw [Set.mem_ofPred_eq, ← hexc, h.dropOldest_zero]
    exact Bool.eq_false_of_not_eq_true hwith

theorem exceedsLimits_eq_false_iff (hlim : history.limits.Admissible) :
    exceedsLimits history = false ↔ history.Fits 0 0 := by
  have hsmall : history.limits.maxBytes < u64Max := by
    have hlt := hlim.lt_u64Max
    omega
  simp [exceedsLimits, saturatingAddU64_le_iff hsmall, h.undoBytes_eq, h.redoBytes_eq, Fits]

theorem exceedsWithOpen_eq_false_iff (hlim : history.limits.Admissible) (openBytes : ℕ) :
    exceedsWithOpen openBytes history = false ↔ history.Fits 1 openBytes := by
  have hsmall : history.limits.maxBytes < u64Max := by
    have hlt := hlim.lt_u64Max
    omega
  have hsum : saturatingAddU64 history.undoBytes history.redoBytes + openBytes ≤
        history.limits.maxBytes ↔
      stackBytes history.undo + stackBytes history.redo + openBytes ≤ history.limits.maxBytes := by
    rw [h.undoBytes_eq, h.redoBytes_eq]
    simp only [saturatingAddU64]
    omega
  simp [exceedsWithOpen, saturatingAddU64_le_iff hsmall, hsum, Fits]

/-- `trim_to_limits` drops the least number of oldest entries that fits. -/
theorem trimToLimits_isLeast (hlim : history.limits.Admissible) :
    ∃ count, history.trimToLimits = history.dropOldest count ∧
      IsLeast {count | (history.dropOldest count).Fits 0 0} count :=
  evictWhile_isLeast (p := fun history => history.Fits 0 0) h
    (fun count => exceedsLimits_eq_false_iff (exactTotals_dropOldest count) hlim)
    (fits_dropOldest_all (zero_le _) (zero_le _))

/-- `make_room_for_open` drops the least number of oldest entries that leaves
room for the open checkpoint. -/
theorem makeRoomForOpen_isLeast (hlim : history.limits.Admissible)
    {openBytes : ℕ} (hopen : openBytes ≤ history.limits.maxCheckpointBytes) :
    ∃ count, history.makeRoomForOpen openBytes = history.dropOldest count ∧
      IsLeast {count | (history.dropOldest count).Fits 1 openBytes} count :=
  evictWhile_isLeast (p := fun history => history.Fits 1 openBytes) h
    (fun count => exceedsWithOpen_eq_false_iff (exactTotals_dropOldest count) hlim openBytes)
    (fits_dropOldest_all hlim.entries_pos (hopen.trans hlim.checkpoint_le))

end

section

variable {limits : HistoryLimits} {world : T} {s : HistoryHost T}

theorem historyInvariant_of_host (h : (historyMachine limits world).Reachable s) :
    ∃ g, HistoryInvariant limits s g := by
  have hobs : ∃ g, (historyRuns limits world).Reachable (s, g) := Reachable.exists_observe h
  obtain ⟨g, hreach⟩ := hobs
  exact ⟨g, historyInvariant_of_reachable hreach⟩

theorem HistoryInvariant.exactTotals {g : HistoryGhost T}
    (h : HistoryInvariant limits s g) : ExactTotals s.history :=
  ⟨h.stacked.undoBytes_eq, h.stacked.redoBytes_eq⟩

end

theorem recordManual_of_within {origin : MutationOrigin}
    {before : HistoryCheckpoint T} {afterFingerprint : HistoryFingerprint}
    (horig : origin.isManual = true) (hpend : history.pending = none)
    (hopen : history.opened = none) (hbytes : before.bytes ≤ history.limits.maxCheckpointBytes)
    (hchanged : before.fingerprint ≠ afterFingerprint)
    (hwith : exceedsLimits (history.clearRedo.pushUndo before) = false) :
    history.recordManual origin before afterFingerprint =
      (.ok .recorded, (history.clearRedo.pushUndo before).bumpGeneration) := by
  have htrim : (history.clearRedo.pushUndo before).trimToLimits =
      history.clearRedo.pushUndo before := evictWhile_of_within hwith
  simp [recordManual, horig, hpend, hopen, validateCheckpoint, not_lt.mpr hbytes, hchanged, htrim]

variable {token : HistoryRestoreToken}

theorem commitRestore_of_within
    (direction : HistoryRestoreDirection) (target : HistoryCheckpoint T)
    {current : HistoryCheckpoint T}
    (hpend : history.pending = some ⟨token, direction, target.fingerprint⟩)
    (hbytes : current.bytes ≤ history.limits.maxCheckpointBytes)
    (htgt : (history.restoreStack direction).getLast? = some target)
    (hlabel : target.label = current.label)
    (hcategory : target.category = current.category)
    (hwith : exceedsLimits ({ history with pending := none }.moveRestored
      direction target current) = false) :
    history.commitRestore token current =
      (.ok (), ({ history with pending := none }.moveRestored direction target
        current).bumpGeneration) := by
  have htrim : ({ history with pending := none }.moveRestored direction target
      current).trimToLimits = { history with pending := none }.moveRestored
        direction target current := evictWhile_of_within hwith
  simp [commitRestore, hpend, validateCheckpoint, not_lt.mpr hbytes, htgt, hlabel, hcategory, htrim]

def tightLimits : HistoryLimits := ⟨128, 10, 6⟩

def sized (bytes : ℕ) : HistoryCapture := ⟨[], bytes, "Move", "transform"⟩

def tightHistory (undo redo : List (HistoryCheckpoint ℕ))
    (nextToken generation : UInt64) : ManualHistory ℕ where
  limits := tightLimits
  undo
  redo
  undoBytes := stackBytes undo
  redoBytes := stackBytes redo
  opened := none
  pending := none
  nextRestoreToken := nextToken
  generation

/-- Two recorded changes of three bytes each. -/
def tightRecorded : ManualHistory ℕ := tightHistory [(sized 3).of 1, (sized 3).of 2] [] 1 3

theorem tightRecorded_reachable :
    (historyMachine tightLimits 1).Reachable ⟨tightRecorded, 3, none⟩ := by
  have hfst : (tightHistory [] [] 1 1).recordManual .nativeManual
      ((sized 3).of 1) [2] = (.ok .recorded, tightHistory [(sized 3).of 1] [] 1 2) :=
    recordManual_of_within rfl rfl rfl (by decide) (by decide) (by decide)
  have hsnd : (tightHistory [(sized 3).of 1] [] 1 2).recordManual
      .nativeManual ((sized 3).of 2) [3] = (.ok .recorded, tightRecorded) :=
    recordManual_of_within rfl rfl rfl (by decide) (by decide) (by decide)
  have hrun : (historyMachine tightLimits 1).exec ⟨tightHistory [] [] 1 1, 1, none⟩
      [.recordManual .nativeManual (sized 3) 2 [2], .recordManual .nativeManual (sized 3) 3 [3]] =
      some ⟨tightRecorded, 3, none⟩ := by
    simp [exec, historyMachine, hostNext, hfst, hsnd]
  exact reachable_of_exec ⟨rfl, rfl, rfl⟩ hrun

theorem HistoryCapture.of_state (capture : HistoryCapture) (world : T) :
    (capture.of world).state = world := rfl

theorem hostNext_commitRestore {history next : ManualHistory T} {live : T}
    {candidate : HistoryRestoreCandidate T} {current : HistoryCapture}
    (hcom : history.commitRestore token (current.of live) = (.ok (), next)) :
    hostNext ⟨history, live, some candidate⟩ (.commitRestore token current) =
      ⟨next, candidate.target.state, some candidate⟩ := by
  rw [hostNext, hcom]
  rfl

/-- Both changes undone, the first undo with a checkpoint of six bytes, and a
redo prepared. -/
def tightUndone : HistoryHost ℕ where
  history := (tightHistory [] [(sized 6).of 3, (sized 3).of 2] 3 7).prepareRedo.2
  live := 1
  prepared := some ⟨⟨3, by decide⟩, .redo, (sized 3).of 2⟩

theorem tightUndone_reachable : (historyMachine tightLimits 1).Reachable tightUndone := by
  have hprep : hostNext ⟨tightRecorded, 3, none⟩ .prepareUndo =
      ⟨tightRecorded.prepareUndo.2, 3, some ⟨⟨1, by decide⟩, .undo, (sized 3).of 2⟩⟩ := rfl
  have hfst : tightRecorded.prepareUndo.2.commitRestore ⟨1, by decide⟩
      ((sized 6).of 3) = (.ok (), tightHistory [(sized 3).of 1] [(sized 6).of 3] 2 5) :=
    commitRestore_of_within .undo ((sized 3).of 2) rfl (by decide) rfl rfl rfl (by decide)
  have hagain (candidate : HistoryRestoreCandidate ℕ) :
      hostNext ⟨tightHistory [(sized 3).of 1] [(sized 6).of 3] 2 5, 2,
        some candidate⟩ .prepareUndo =
      ⟨(tightHistory [(sized 3).of 1] [(sized 6).of 3] 2 5).prepareUndo.2, 2,
        some ⟨⟨2, by decide⟩, .undo, (sized 3).of 1⟩⟩ := rfl
  have hsnd : (tightHistory [(sized 3).of 1] [(sized 6).of 3] 2
      5).prepareUndo.2.commitRestore ⟨2, by decide⟩ ((sized 3).of 2) =
        (.ok (), tightHistory [] [(sized 6).of 3, (sized 3).of 2] 3 7) :=
    commitRestore_of_within .undo ((sized 3).of 1) rfl (by decide) rfl rfl rfl (by decide)
  have hrun : (historyMachine tightLimits 1).exec ⟨tightRecorded, 3, none⟩
      [.prepareUndo, .commitRestore ⟨1, by decide⟩ (sized 6), .prepareUndo,
        .commitRestore ⟨2, by decide⟩ (sized 3), .prepareRedo] =
      some tightUndone := by
    simp only [exec, historyMachine, Option.bind_some, hprep, hostNext_commitRestore hfst,
      HistoryCapture.of_state, hagain, hostNext_commitRestore hsnd]
    rfl
  exact tightRecorded_reachable.run (freeRun_of_exec hrun)

section

variable {limits : HistoryLimits} {world : T} {s : HistoryHost T}

variable {opened : OpenGesture T}

theorem cancelGesture_opened (history : ManualHistory T)
    (hpend : history.pending = none) (hopen : history.opened = some opened) :
    history.cancelGesture opened.id =
      (.ok .cancelled, { history with opened := none }.bumpGeneration) := by
  simp [cancelGesture, hpend, hopen]

theorem finishGesture_unchanged (history : ManualHistory T)
    (hpend : history.pending = none) (hopen : history.opened = some opened) :
    history.finishGesture opened.id opened.before.fingerprint =
      (.ok .noChange, { history with opened := none }.bumpGeneration) := by
  simp [finishGesture, hpend, hopen]

variable {count : ℕ}

theorem ExactTotals.unchanged_iff {entries bytes : ℕ} (h : ExactTotals history)
    (hcnt : IsLeast {count | (history.dropOldest count).Fits entries bytes} count) :
    (history.dropOldest count).undo = history.undo ∧
      (history.dropOldest count).redo = history.redo ↔ history.Fits entries bytes := by
  obtain ⟨hfits, hleast⟩ := hcnt
  constructor
  · rintro ⟨hundo, hredo⟩
    rw [Set.mem_ofPred_eq] at hfits
    unfold Fits at hfits ⊢
    rwa [hundo, hredo] at hfits
  · intro hroom
    rw [← h.dropOldest_zero] at hroom
    obtain rfl := le_zero.mp (hleast hroom)
    rw [h.dropOldest_zero]
    exact ⟨rfl, rfl⟩

/-- A gesture that is cancelled, or finished with the fingerprint it began
with, leaves the stacks without the least number of oldest entries that makes
room for its open checkpoint; they are unchanged exactly when there was room
before the gesture. -/
theorem gesture_without_change (h : (historyMachine limits world).Reachable s)
    (id : HistoryGestureId) (origin : MutationOrigin) (before : HistoryCheckpoint T)
    (hbegin : (s.history.beginGesture id origin before).1 = .ok .recorded) :
    let began := (s.history.beginGesture id origin before).2
    (began.cancelGesture id).1 = .ok .cancelled ∧
    (began.finishGesture id before.fingerprint).1 = .ok .noChange ∧
    ∃ count,
      IsLeast {count | (s.history.dropOldest count).Fits 1 before.bytes} count ∧
      ∀ ended, ended = (began.cancelGesture id).2 ∨
          ended = (began.finishGesture id before.fingerprint).2 →
        ended.undo = s.history.undo.drop count ∧
        ended.redo = s.history.redo.drop (count - s.history.undo.length) ∧
        (ended.undo = s.history.undo ∧ ended.redo = s.history.redo ↔
          s.history.Fits 1 before.bytes) := by
  obtain ⟨g, hinv⟩ := historyInvariant_of_host h
  rcases beginGesture_cases s.history id origin before with
    ⟨outcome, hcall, hother⟩ | ⟨hopened, hpending, hbytes, hcall⟩
  · rw [hcall] at hbegin
    exact absurd hbegin hother
  rw [hcall]
  have hadmissible := hinv.history_admissible
  obtain ⟨count, hroom, hcount⟩ := makeRoomForOpen_isLeast hinv.exactTotals hadmissible hbytes
  rw [hroom]
  have hcancel := cancelGesture_opened
    { s.history.dropOldest count with
      opened := some ⟨id, origin, before⟩ }.bumpGeneration hpending rfl
  have hfinish := finishGesture_unchanged
    { s.history.dropOldest count with
      opened := some ⟨id, origin, before⟩ }.bumpGeneration hpending rfl
  simp only at hcancel hfinish ⊢
  rw [hcancel, hfinish]
  refine ⟨rfl, rfl, count, hcount, ?_⟩
  rintro ended (rfl | rfl)
  · exact ⟨rfl, rfl, hinv.exactTotals.unchanged_iff hcount⟩
  · exact ⟨rfl, rfl, hinv.exactTotals.unchanged_iff hcount⟩

theorem gesture_without_change_tight :
    ∃ count, IsLeast {count | (tightRecorded.dropOldest count).Fits 1 6} count ∧
      ((tightRecorded.beginGesture ⟨7, by decide⟩ .nativeManual
        ((sized 6).of 3)).2.cancelGesture ⟨7, by decide⟩).2.undo =
          tightRecorded.undo.drop count := by
  obtain ⟨-, -, count, hcount, hended⟩ :=
    gesture_without_change tightRecorded_reachable ⟨7, by decide⟩ .nativeManual ((sized 6).of 3) rfl
  exact ⟨count, hcount, (hended _ (.inl rfl)).1⟩

/-- A gesture with a checkpoint of six bytes drops the older of two recorded
changes, also when it is cancelled or changes nothing. -/
theorem cancelled_gesture_evicts :
    ∃ (s : HistoryHost ℕ) (id : HistoryGestureId) (before : HistoryCheckpoint ℕ),
      (historyMachine tightLimits 1).Reachable s ∧ s.history.opened = none ∧
      s.history.pending = none ∧
      (s.history.beginGesture id .nativeManual before).1 = .ok .recorded ∧
      s.history.undo = [(sized 3).of 1, (sized 3).of 2] ∧
      ((s.history.beginGesture id .nativeManual before).2.cancelGesture
        id).2.undo = [(sized 3).of 2] ∧
      ((s.history.beginGesture id .nativeManual before).2.finishGesture id
        before.fingerprint).2.undo = [(sized 3).of 2] := by
  have hroom : tightRecorded.makeRoomForOpen 6 = tightHistory [(sized 3).of 2] [] 1 3 := by
    rw [makeRoomForOpen, evictWhile]
    exact evictWhile_of_within (by decide)
  have hbegin : tightRecorded.beginGesture ⟨7, by decide⟩ .nativeManual
      ((sized 6).of 3) = (.ok .recorded, { tightRecorded.makeRoomForOpen 6 with
        opened := some ⟨⟨7, by decide⟩, .nativeManual, (sized 6).of 3⟩
        }.bumpGeneration) := rfl
  refine ⟨⟨tightRecorded, 3, none⟩, ⟨7, by decide⟩, (sized 6).of 3,
    tightRecorded_reachable, rfl, rfl, rfl, rfl, ?_, ?_⟩
  · rw [hbegin, hroom]
    rfl
  · rw [hbegin, hroom]
    rfl

def ManualHistory.prepareReverse (history : ManualHistory T) :
    HistoryRestoreDirection →
      Except HistoryError (Option (HistoryRestoreCandidate T)) × ManualHistory T
  | .undo => history.prepareRedo
  | .redo => history.prepareUndo

theorem prepareRestore_target_iff (history : ManualHistory T)
    (hpend : history.pending = none) (hopen : history.opened = none)
    (direction : HistoryRestoreDirection) (current : HistoryCheckpoint T) :
    (∃ candidate, (history.prepareRestore direction).1 = .ok (some candidate) ∧
      candidate.target = current) ↔
    history.nextRestoreToken ≠ 0 ∧ (history.restoreStack direction).getLast? = some current := by
  by_cases htok : history.nextRestoreToken = 0
  · cases hlast : (history.restoreStack direction).getLast? with
    | none => simp [prepareRestore, hpend, hopen, hlast]
    | some target => simp [prepareRestore, hpend, hopen, hlast, allocateRestoreToken, htok]
  · cases hlast : (history.restoreStack direction).getLast? with
    | none => simp [prepareRestore, hpend, hopen, hlast]
    | some target => simp [prepareRestore, hpend, hopen, hlast, allocateRestoreToken, htok]

theorem getLast?_concat_drop {α : Type} (items : List α) (last : α) (count : ℕ) :
    ((items ++ [last]).drop count).getLast? = some last ↔ count ≤ items.length := by
  constructor
  · intro hlast
    by_contra hmore
    rw [drop_eq_nil_of_le (by simp; omega)] at hlast
    cases hlast
  · intro hle
    rw [drop_append_of_le_length hle, getLast?_concat]

variable {current target : HistoryCheckpoint T}

theorem undo_keeps_current (history : ManualHistory T)
    (hlim : history.limits.Admissible)
    (hcur : current.bytes ≤ history.limits.maxBytes)
    (hcnt : IsLeast {count |
      ((history.moveRestored .undo target current).dropOldest count).Fits 0 0} count) :
    (((history.moveRestored .undo target current).dropOldest
      count).restoreStack .redo).getLast? = some current := by
  refine (getLast?_concat_drop history.redo current _).mpr ?_
  have hfits : ((history.moveRestored .undo target current).dropOldest
      (history.undo.dropLast.length + history.redo.length)).Fits 0 0 := by
    have hundo : history.undo.dropLast.drop
        (history.undo.dropLast.length + history.redo.length) = [] :=
      drop_eq_nil_of_le (le_add_right _ _)
    have hredo : (history.redo ++ [current]).drop
        (history.undo.dropLast.length + history.redo.length -
          history.undo.dropLast.length) = [current] := by
      rw [Nat.add_sub_cancel_left, drop_left]
    simp only [dropOldest, moveRestored, hundo, hredo]
    refine ⟨?_, ?_⟩
    · exact hlim.entries_pos
    · simpa [stackBytes] using hcur
  have hle := hcnt.2 hfits
  exact Nat.sub_le_iff_le_add'.mpr hle

theorem redo_keeps_current_iff (history : ManualHistory T)
    (htgt : history.redo.getLast? = some target)
    (hents : history.undo.length + history.redo.length ≤ history.limits.maxEntries)
    (hcnt : IsLeast {count |
      ((history.moveRestored .redo target current).dropOldest count).Fits 0 0} count) :
    (((history.moveRestored .redo target current).dropOldest
      count).restoreStack .undo).getLast? = some current ↔
      current.bytes + stackBytes history.redo.dropLast ≤ history.limits.maxBytes := by
  refine (getLast?_concat_drop history.undo current count).trans ?_
  have hpos : 0 < history.redo.length := by
    cases hredo : history.redo with
    | nil =>
      rw [hredo] at htgt
      cases htgt
    | cons first rest => exact zero_lt_succ _
  have hfits : ((history.moveRestored .redo target current).dropOldest
      history.undo.length).Fits 0 0 ↔
      current.bytes + stackBytes history.redo.dropLast ≤ history.limits.maxBytes := by
    have hundo : (history.undo ++ [current]).drop history.undo.length = [current] := drop_left
    have hredo : history.redo.dropLast.drop
        (history.undo.length - (history.undo ++ [current]).length) = history.redo.dropLast := by
      rw [length_append, Nat.sub_eq_zero_of_le (Nat.le_add_right _ _), drop_zero]
    simp only [Fits, dropOldest, moveRestored,
      hundo, hredo, length_singleton, length_dropLast, add_zero]
    have hroom : 1 + (history.redo.length - 1) ≤ history.limits.maxEntries := by omega
    exact and_iff_right hroom
  rw [← hfits]
  constructor
  · intro hle
    exact fits_dropOldest_mono hle hcnt.1
  · intro hroom
    exact hcnt.2 hroom

theorem ExactTotals.moveRestored (h : ExactTotals history) {direction : HistoryRestoreDirection}
    (htgt : (history.restoreStack direction).getLast? = some target)
    (hroom : history.undoBytes + history.redoBytes + current.bytes ≤ u64Max) :
    ExactTotals (history.moveRestored direction target current) := by
  have hstacked : Stacked
      ⟨history.undo.map (·.state), current.state,
        (history.redo.map (·.state)).reverse⟩ history :=
    ⟨⟨suffix_refl _, prefix_refl _⟩, h.undoBytes_eq, h.redoBytes_eq⟩
  obtain ⟨_, -, -, hmoved⟩ := hstacked.moveRestored rfl hroom htgt
  exact ⟨hmoved.undoBytes_eq, hmoved.redoBytes_eq⟩

theorem HistoryInvariant.commitRestore_dropOldest {g : HistoryGhost T}
    (hinv : HistoryInvariant limits s g) {pending : PendingRestore}
    (hpend : s.history.pending = some pending) {token : HistoryRestoreToken}
    (hcom : (s.history.commitRestore token current).1 = .ok ()) :
    ∃ target count, current.bytes ≤ limits.maxBytes ∧
      s.history.opened = none ∧
      (s.history.restoreStack pending.direction).getLast? = some target ∧
      (s.history.commitRestore token current).2 =
        (({ s.history with pending := none }.moveRestored pending.direction
          target current).dropOldest count).bumpGeneration ∧
      IsLeast {count | (({ s.history with pending := none }.moveRestored
        pending.direction target current).dropOldest count).Fits 0 0}
        count := by
  rcases commitRestore_cases s.history token current with
    ⟨error, hcall⟩ | ⟨pending', target, hpending', hbytes, htgt, hcall⟩
  · rw [hcall] at hcom
    cases hcom
  obtain rfl := Option.some.inj (hpend.symm.trans hpending')
  have hadm := hinv.history_admissible
  have hopen := hinv.opened_of_pending hpend
  have hfits : current.bytes ≤ limits.maxBytes := by
    rw [hinv.limits_eq] at hbytes
    exact hbytes.trans hinv.admissible.checkpoint_le
  have hex : ExactTotals { s.history with pending := none } :=
    ⟨hinv.stacked.undoBytes_eq, hinv.stacked.redoBytes_eq⟩
  have hback : ({ s.history with pending := none }.restoreStack
      pending.direction).getLast? = some target := by
    cases hdir : pending.direction with
    | undo | redo => rwa [hdir] at htgt
  have hlim : ({ s.history with pending := none }.moveRestored
      pending.direction target current).limits.Admissible := by
    cases pending.direction with
    | undo | redo => exact hadm
  obtain ⟨count, htrim, hcnt⟩ := trimToLimits_isLeast
    (hex.moveRestored hback (hinv.bytes_room hfits)) hlim
  refine ⟨target, count, hfits, hopen, htgt, ?_, hcnt⟩
  rw [hcall, htrim]

/-- A committed restore can be taken back exactly when a token is left and, for
a redo, its checkpoint fits beside the redo entries that remain. -/
theorem committed_restore_reversible_iff (h : (historyMachine limits world).Reachable s)
    {pending : PendingRestore} (hpending : s.history.pending = some pending)
    (token : HistoryRestoreToken) (current : HistoryCheckpoint T)
    (hcommit : (s.history.commitRestore token current).1 = .ok ()) :
    (∃ candidate, ((s.history.commitRestore token current).2.prepareReverse
        pending.direction).1 = .ok (some candidate) ∧
      candidate.target = current) ↔
    s.history.nextRestoreToken ≠ 0 ∧
      (pending.direction = .redo →
        current.bytes + stackBytes s.history.redo.dropLast ≤ limits.maxBytes) := by
  obtain ⟨g, hinv⟩ := historyInvariant_of_host h
  obtain ⟨target, count, hfits, hopened, htarget, hresult, hcount⟩ :=
    hinv.commitRestore_dropOldest hpending hcommit
  have hadmissible := hinv.history_admissible
  rw [hresult]
  cases hdirection : pending.direction with
  | undo =>
    rw [hdirection] at hcount
    have hkept := undo_keeps_current { s.history with pending := none } hadmissible
      (hfits.trans_eq (congrArg HistoryLimits.maxBytes hinv.limits_eq.symm))
      hcount
    refine (prepareRestore_target_iff
      ((({ s.history with pending := none }.moveRestored .undo target
        current).dropOldest count).bumpGeneration) rfl hopened .redo
      current).trans ?_
    exact and_congr_right fun _ => ⟨fun _ hredo => (by cases hredo), fun _ => hkept⟩
  | redo =>
    rw [hdirection] at hcount htarget
    have hentries := hinv.entries_le
    rw [entryCount, ← hinv.limits_eq] at hentries
    have hkept := redo_keeps_current_iff { s.history with pending := none } htarget
      ((le_add_right _ _).trans hentries) hcount
    rw [hinv.limits_eq] at hkept
    refine (prepareRestore_target_iff
      ((({ s.history with pending := none }.moveRestored .redo target
        current).dropOldest count).bumpGeneration) rfl hopened .undo
      current).trans ?_
    exact and_congr_right fun _ => hkept.trans ⟨fun hroom _ => hroom, fun hroom => hroom rfl⟩

theorem committed_restore_reversible_iff_undo :
    ∃ candidate, ((tightRecorded.prepareUndo.2.commitRestore ⟨1, by decide⟩
        ((sized 6).of 3)).2.prepareReverse .undo).1 = .ok (some candidate) ∧
      candidate.target = (sized 6).of 3 := by
  have hrun : (historyMachine tightLimits 1).exec ⟨tightRecorded, 3, none⟩
      [.prepareUndo] = some ⟨tightRecorded.prepareUndo.2, 3,
        some ⟨⟨1, by decide⟩, .undo, (sized 3).of 2⟩⟩ := rfl
  have hreachable := tightRecorded_reachable.run (freeRun_of_exec hrun)
  exact (committed_restore_reversible_iff hreachable rfl ⟨1, by decide⟩
    ((sized 6).of 3) rfl).mpr ⟨by decide, fun hredo => by cases hredo⟩

/-- A redo whose checkpoint of six bytes meets another of six evicts its own:
the undo that would take it back finds nothing. -/
theorem committed_redo_not_undoable :
    ∃ (s : HistoryHost ℕ) (token : HistoryRestoreToken) (current : HistoryCheckpoint ℕ),
      (historyMachine tightLimits 1).Reachable s ∧
      s.history.pending.map (·.direction) = some .redo ∧
      (s.history.commitRestore token current).1 = .ok () ∧
      (s.history.commitRestore token current).2.prepareUndo.1 = .ok none := by
  have htrim : ({ tightUndone.history with pending := none }.moveRestored .redo
      ((sized 3).of 2) ((sized 6).of 1)).trimToLimits =
      tightHistory [] [(sized 6).of 3] 4 8 := by
    rw [trimToLimits, evictWhile]
    exact evictWhile_of_within (by decide)
  have hcommit : tightUndone.history.commitRestore ⟨3, by decide⟩
      ((sized 6).of 1) = (.ok (), ({ tightUndone.history with
        pending := none }.moveRestored .redo ((sized 3).of 2)
          ((sized 6).of 1)).trimToLimits.bumpGeneration) := rfl
  refine ⟨tightUndone, ⟨3, by decide⟩, (sized 6).of 1, tightUndone_reachable, rfl, ?_, ?_⟩
  · rw [hcommit]
  · rw [hcommit, htrim]
    rfl

end

end CollideOScope.History
